import Mathlib.Algebra.Order.Floor.Ring
import Mathlib.Data.Rat.Floor
import Mathlib.Tactic.Linarith

/-! The warmup schedule, with the product of budget and percentage taken exactly. -/
namespace WppGateway.Warmup

/- Conversion to int drops the fraction. -/
def truncate (q : Rat) : Int := q.num.tdiv q.den

def percentage (warmupDay : Int) : Option Rat :=
  if warmupDay ≤ 3 then some (1 / 10)
  else if warmupDay ≤ 7 then some (1 / 4)
  else if warmupDay ≤ 10 then some (1 / 2)
  else if warmupDay ≤ 14 then some (3 / 4)
  else none

def warmupBudget (fullBudget warmupDay : Int) : Int :=
  if warmupDay ≤ 0 then fullBudget
  else match percentage warmupDay with
    | none => fullBudget
    | some p =>
      let budget := truncate (fullBudget * p)
      if budget < 1 then 1 else budget

def isWarmingUp (warmupDay : Int) : Bool := decide (warmupDay > 0 ∧ warmupDay ≤ 14)

def Growing (budget : Int → Int → Int) (full larger first later : Int) : Prop :=
  budget full first ≤ budget full later ∧ budget full later ≤ full ∧ budget full first ≤ budget larger first

instance (budget : Int → Int → Int) (full larger first later : Int) :
    Decidable (Growing budget full larger first later) := inferInstanceAs (Decidable (_ ∧ _ ∧ _))

theorem truncateFloor {q : Rat} (nonneg : 0 ≤ q) : truncate q = ⌊q⌋ := by
  rw [truncate,Rat.floor_def',Int.tdiv_eq_ediv_of_nonneg (Rat.num_nonneg.mpr nonneg)]

def share (day : Int) : Rat := (percentage day).getD 1

theorem shareValues (day : Int) : share day = if day ≤ 3 then 1 / 10 else if day ≤ 7 then 1 / 4 else
    if day ≤ 10 then 1 / 2 else if day ≤ 14 then 3 / 4 else 1 := by
  unfold share percentage
  split_ifs <;> rfl

theorem shareNonneg (day : Int) : 0 ≤ share day := by
  rw [shareValues]
  split_ifs <;> norm_num

theorem shareAtMostOne (day : Int) : share day ≤ 1 := by
  rw [shareValues]
  split_ifs <;> norm_num

theorem shareGrows {first later : Int} (order : first ≤ later) : share first ≤ share later := by
  rw [shareValues,shareValues]
  split_ifs <;> first | omega | norm_num

theorem warming {day : Int} (started : 1 ≤ day) : isWarmingUp day = (percentage day).isSome := by
  unfold isWarmingUp percentage
  split_ifs <;> simp <;> omega

theorem budgetShare {full day : Int} (positive : 1 ≤ full) (started : 1 ≤ day) :
    warmupBudget full day = max 1 ⌊full * share day⌋ := by
  have product : (0 : Rat) ≤ full * share day :=
    mul_nonneg (by exact_mod_cast (by omega : (0 : Int) ≤ full)) (shareNonneg day)
  rw [warmupBudget,if_neg (by omega)]
  cases found : percentage day with
  | none =>
    simp only [share,found,Option.getD_none,mul_one,Int.floor_intCast]
    omega
  | some p =>
    simp only [share,found,Option.getD_some] at product ⊢
    rw [truncateFloor product]
    omega

theorem budgetZero {day : Int} (started : 1 ≤ day) : warmupBudget 0 day = if isWarmingUp day then 1 else 0 := by
  rw [warmupBudget,if_neg (by omega),warming started]
  cases found : percentage day with
  | none => rfl
  | some p =>
    simp only [Int.cast_zero,zero_mul,truncateFloor (le_refl (0 : Rat)),Int.floor_zero]
    rfl

theorem positiveGrows {full larger first later : Int} (positive : 1 ≤ full) (more : full ≤ larger) (started : 1 ≤ first)
    (order : first ≤ later) : Growing warmupBudget full larger first later := by
  have nonneg : (0 : Rat) ≤ full := by exact_mod_cast (by omega : (0 : Int) ≤ full)
  have laterDay : (full : Rat) * share first ≤ full * share later := mul_le_mul_of_nonneg_left (shareGrows order) nonneg
  have whole : (full : Rat) * share later ≤ full := mul_le_of_le_one_right nonneg (shareAtMostOne later)
  have largerBudget : (full : Rat) * share first ≤ larger * share first :=
    mul_le_mul_of_nonneg_right (by exact_mod_cast more) (shareNonneg first)
  have bounded : ⌊(full : Rat) * share later⌋ ≤ full := by
    rw [← Int.floor_intCast (R := Rat) full]
    exact Int.floor_le_floor whole
  rw [Growing,budgetShare positive started,budgetShare positive (started.trans order),
    budgetShare (positive.trans more) started]
  exact ⟨max_le_max (le_refl 1) (Int.floor_le_floor laterDay),max_le positive bounded,
    max_le_max (le_refl 1) (Int.floor_le_floor largerBudget)⟩

theorem zeroGrows {larger first later : Int} (more : 0 ≤ larger) (started : 1 ≤ first) (order : first ≤ later) :
    Growing warmupBudget 0 larger first later ↔ isWarmingUp first = false := by
  rw [Growing,budgetZero started,budgetZero (started.trans order)]
  cases early : isWarmingUp first with
  | true =>
    refine ⟨fun grows => ?_,fun after => (by cases after)⟩
    obtain ⟨next,full,_⟩ := grows
    rw [if_pos rfl] at next
    exact absurd (next.trans full) (by decide)
  | false =>
    have done : isWarmingUp later = false := by
      simp only [isWarmingUp,decide_eq_false_iff_not] at early ⊢
      omega
    have grown : 0 ≤ warmupBudget larger first := by
      rcases more.lt_or_eq with positive | zero
      · rw [budgetShare positive started]
        exact le_max_of_le_left (by decide)
      · rw [← zero,budgetZero started,early]
        rfl
    rw [done]
    exact ⟨fun _ => rfl,fun _ => ⟨le_refl _,le_refl _,grown⟩⟩

/-- The schedule grows and stays within the full budget just when that budget is not zero or the warmup is over: the
least budget of one message a day is also given to an instance that may send none. -/
theorem scheduleGrows {full larger first later : Int} (nonneg : 0 ≤ full) (more : full ≤ larger) (started : 1 ≤ first)
    (order : first ≤ later) : Growing warmupBudget full larger first later ↔ 1 ≤ full ∨ isWarmingUp first = false := by
  rcases nonneg.lt_or_eq with positive | zero
  · exact ⟨fun _ => .inl positive,fun _ => positiveGrows positive more started order⟩
  · subst zero
    rw [zeroGrows more started order]
    exact ⟨.inr,fun allowed => allowed.resolve_left (by decide)⟩

theorem scheduleGrowsAt : (1 : Int) ≤ 200 ∧ Growing warmupBudget 200 300 3 11 ∧
    warmupBudget 200 3 = 20 ∧ warmupBudget 200 11 = 150 ∧ warmupBudget 5 1 = 1 :=
  ⟨by decide,(scheduleGrows (by decide) (by decide) (by decide) (by decide)).mpr (.inl (by decide)),by decide +kernel⟩

theorem zeroBudgetSends : warmupBudget 0 1 = 1 ∧ warmupBudget 0 15 = 0 ∧ ¬ Growing warmupBudget 0 0 1 15 := by
  decide +kernel

end WppGateway.Warmup
