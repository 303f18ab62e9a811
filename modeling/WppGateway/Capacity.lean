import WppGateway.InstanceChoice
import Mathlib.Algebra.Ring.Nat

/-! Rotation until the pool is empty: every instance gives all it has, and not one message more. -/
namespace WppGateway.Capacity
open Domain Table Selection Leaders InstanceChoice

def capacity (i : Instance) : Nat := (min (dailyRemaining i) (hourRemaining i)).toNat

def total (instances : List Instance) : Nat := (instances.map capacity).sum

def charge (i : Instance) : Instance := {i with messagesToday := i.messagesToday + 1, messagesHour := i.messagesHour + 1}

def chargeAt (id : UUID) (instances : List Instance) : List Instance := update Instance.id id charge instances

def choices : Nat → List Instance → List (Option UUID)
  | 0,_ => []
  | n+1,instances => match rotationSelect instances with
    | .ok best => some best.id::choices n (chargeAt best.id instances)
    | .error _ => none::choices n instances

theorem capacityPositive {i : Instance} : 0 < capacity i ↔ hasRoom i = true := by
  simp only [capacity,hasRoom,Bool.and_eq_true,decide_eq_true_eq]
  omega

theorem capacityCharge {i : Instance} (room : hasRoom i = true) : capacity (charge i) + 1 = capacity i := by
  simp only [hasRoom,Bool.and_eq_true,decide_eq_true_eq] at room
  simp only [capacity,charge,dailyRemaining,hourRemaining] at room ⊢
  omega

theorem totalZero {instances : List Instance} : total instances = 0 ↔ ∀ i ∈ instances, hasRoom i = false := by
  induction instances with
  | nil => exact ⟨fun _ i member => (by cases member),fun _ => rfl⟩
  | cons i rest ih =>
    simp only [total,List.map_cons,List.sum_cons] at ih ⊢
    rw [List.forall_mem_cons,← ih,← Bool.not_eq_true,← capacityPositive]
    omega

inductive Called (instances : List Instance) : Except SelectError Instance → Prop where
  | fails (e : SelectError) (empty : total instances = 0) : Called instances (.error e)
  | takes (best : Instance) (member : best ∈ instances) (room : hasRoom best = true) : Called instances (.ok best)

theorem called (instances : List Instance) : Called instances (rotationSelect instances) := by
  cases selected : rotationSelect instances with
  | ok best =>
    obtain ⟨member,day,hour⟩ := rotationRoom selected
    exact .takes best member (by simp [hasRoom,day,hour])
  | error e =>
    refine .fails e (totalZero.mpr ?_)
    rw [rotationLeader] at selected
    cases found : leader dailyRemaining (instances.filter hasRoom) with
    | some best => rw [found] at selected; cases selected
    | none => simpa using List.filter_eq_nil_iff.mp (leaderNone.mp found)

section Charged
variable {instances : List Instance} {best : Instance}

theorem chargedDistinct (distinct : Distinct Instance.id instances) :
    Distinct Instance.id (chargeAt best.id instances) := distinctUpdate (fun _ => rfl) distinct

theorem totalCharged (distinct : Distinct Instance.id instances) (member : best ∈ instances)
    (room : hasRoom best = true) : total (chargeAt best.id instances) + 1 = total instances := by
  induction instances with
  | nil => cases member
  | cons i rest ih =>
    obtain ⟨apart,later⟩ := List.nodup_cons.mp distinct
    simp only [total,chargeAt,update,List.map_cons,List.sum_cons] at ih ⊢
    rcases List.mem_cons.mp member with rfl | inside
    · have others : update Instance.id best.id charge rest = rest :=
        updateAbsent (fun i member same => apart (same ▸ List.mem_map_of_mem member))
      simp only [update] at others
      have less := capacityCharge room
      rw [if_pos rfl,others]
      omega
    · have other : i.id ≠ best.id := fun same => apart (same ▸ List.mem_map_of_mem inside)
      have less := ih later inside
      rw [if_neg other]
      omega

theorem memCharged {i : Instance} (best : Instance) (member : i ∈ instances) :
    (if i.id = best.id then charge i else i) ∈ chargeAt best.id instances :=
  memUpdate.mpr ⟨i,member,rfl⟩

end Charged

theorem choicesSucceed (n : Nat) (instances : List Instance) (distinct : Distinct Instance.id instances) :
    (choices n instances).map Option.isSome =
      List.replicate (min n (total instances)) true ++ List.replicate (n - total instances) false := by
  induction n generalizing instances with
  | zero => simp [choices]
  | succ n ih =>
    have turn := called instances
    simp only [choices]
    cases selected : rotationSelect instances with
    | ok best =>
      rw [selected] at turn
      cases turn with
      | takes _ member room =>
        have less := totalCharged distinct member room
        have sizes : min (n+1) (total instances) = min n (total (chargeAt best.id instances)) + 1 := by omega
        have left : n + 1 - total instances = n - total (chargeAt best.id instances) := by omega
        rw [sizes,left,List.replicate_succ,List.map_cons,ih _ (chargedDistinct distinct)]
        rfl
    | error e =>
      rw [selected] at turn
      cases turn with
      | fails _ empty =>
        have later := ih instances distinct
        simp only [empty,Nat.min_zero,Nat.sub_zero,List.replicate_zero,List.nil_append] at later ⊢
        rw [List.map_cons,later,List.replicate_succ]
        rfl

theorem choicesCount (n : Nat) (instances : List Instance) (distinct : Distinct Instance.id instances)
    (enough : total instances ≤ n) {i : Instance} (member : i ∈ instances) :
    (choices n instances).count (some i.id) = capacity i := by
  induction n generalizing instances i with
  | zero =>
    have spent := totalZero.mp (Nat.le_zero.mp enough) i member
    have none_ : ¬ 0 < capacity i := fun positive => by rw [capacityPositive,spent] at positive; cases positive
    simp only [choices,List.count_nil]
    omega
  | succ n ih =>
    have turn := called instances
    simp only [choices]
    cases selected : rotationSelect instances with
    | error e =>
      rw [selected] at turn
      cases turn with
      | fails _ empty =>
        dsimp only
        rw [List.count_cons_of_ne (fun same => (by cases same))]
        exact ih instances distinct (by omega) member
    | ok best =>
      rw [selected] at turn
      cases turn with
      | takes _ inside room =>
        have less := totalCharged distinct inside room
        have later := ih _ (chargedDistinct distinct) (by omega) (memCharged best member)
        by_cases own : i.id = best.id
        · cases sameRow distinct member inside own
          rw [if_pos rfl] at later
          rw [List.count_cons_self]
          exact (congrArg (· + 1) later).trans (capacityCharge room)
        · rw [if_neg own] at later
          rw [List.count_cons_of_ne (fun same => own (Option.some.inj same).symm)]
          exact later

/-- Calls of the rotation succeed as long as the pool has capacity and fail for ever afterwards, and each instance is
chosen as often as its own capacity says. -/
theorem rotationUsesAll {instances : List Instance} (distinct : Distinct Instance.id instances) :
    (∀ n, (choices n instances).map Option.isSome =
      List.replicate (min n (total instances)) true ++ List.replicate (n - total instances) false) ∧
    ∀ n, total instances ≤ n → ∀ i ∈ instances, (choices n instances).count (some i.id) = capacity i :=
  ⟨fun n => choicesSucceed n instances distinct,
    fun n enough _ member => choicesCount n instances distinct enough member⟩

def pool : List Instance :=
  [{Gateway.sampleInstance with dailyBudget := 3, hourlyBudget := 2},
    {Gateway.sampleInstance with id := 12, dailyBudget := 2, hourlyBudget := 9}]

theorem poolUsed : choices 5 pool = [some 11,some 11,some 12,some 12,none] ∧
    (choices 5 pool).count (some 11) = 2 ∧ (choices 5 pool).count (some 12) = 2 := by
  obtain ⟨_,counts⟩ := rotationUsesAll (show Distinct Instance.id pool by decide)
  have enough : total pool ≤ 5 := by decide
  have first : capacity (pool.headD Gateway.sampleInstance) = 2 := by decide
  have second : capacity (pool.getLastD Gateway.sampleInstance) = 2 := by decide
  have one := counts 5 enough _ List.mem_cons_self
  have two := counts 5 enough _ (List.mem_cons_of_mem _ List.mem_cons_self)
  exact ⟨by decide +kernel,one.trans first,two.trans second⟩

end WppGateway.Capacity
