import Mathlib.Data.List.Basic
import Mathlib.Logic.Function.Basic

/-! Values from which one is taken at a time, always from one that is largest among those offered. However large the values
were, those that are always offered come down to one level, and what was taken from comes down no further. No program is
named here. -/
namespace WppGateway.Levelling
variable {κ : Type}

structure Level (start value : κ → Int) (steady : κ → Prop) (level : Int) : Prop where
  above : ∀ k, steady k → value k ≤ level + 1
  below : ∀ k, value k ≠ start k → level ≤ value k

theorem levelStart (start : κ → Int) (keys : List κ) : ∃ level, Level start start (· ∈ keys) level := by
  induction keys with
  | nil => exact ⟨0,fun _ none_ => (by cases none_),fun _ changed => absurd rfl changed⟩
  | cons k rest ih =>
    obtain ⟨level,before⟩ := ih
    refine ⟨max level (start k),fun other inside => ?_,fun _ changed => absurd rfl changed⟩
    rcases List.mem_cons.mp inside with rfl | old
    · omega
    · have most := before.above other old
      omega

variable [DecidableEq κ]

def spend (value : κ → Int) (k : κ) : κ → Int := Function.update value k (value k - 1)

inductive Spent : (κ → Int) → List (List κ × κ) → (κ → Int) → Prop where
  | nil (value) : Spent value [] value
  | turn (value offered k rest last) (greedy : ∀ other ∈ offered, value other ≤ value k) (later : Spent (spend value k) rest last) :
      Spent value ((offered,k)::rest) last

section Turns
variable {start value last : κ → Int} {steady : κ → Prop} {level : Int} {turns : List (List κ × κ)}

theorem spendSelf (value : κ → Int) (k : κ) : spend value k k = value k - 1 := Function.update_self ..

theorem spendOther (value : κ → Int) {k other : κ} (apart : other ≠ k) : spend value k other = value other :=
  Function.update_of_ne apart ..

theorem spendLess (value : κ → Int) (k other : κ) : spend value k other ≤ value other := by
  by_cases same : other = k
  · have own := spendSelf value k
    subst same
    omega
  · have kept := spendOther value same
    omega

theorem levelTurn {offered : List κ} {k : κ} (before : Level start value steady level)
    (greedy : ∀ other ∈ offered, value other ≤ value k) (always : ∀ other, steady other → other ∈ offered) :
    ∃ next, Level start (spend value k) steady next := by
  have own := spendSelf value k
  by_cases high : level < value k
  · -- what is chosen stays at the level or above it
    refine ⟨level,fun other fixed => ?_,fun other changed => ?_⟩
    · have less := spendLess value k other
      have most := before.above other fixed
      omega
    · by_cases same : other = k
      · subst same
        omega
      · rw [spendOther value same] at changed ⊢
        exact before.below other changed
  · -- nothing that is always offered is larger, so the level comes down
    refine ⟨value k - 1,fun other fixed => ?_,fun other changed => ?_⟩
    · have most := greedy other (always other fixed)
      have less := spendLess value k other
      omega
    · by_cases same : other = k
      · subst same
        omega
      · have kept := spendOther value same
        rw [kept] at changed
        have more := before.below other changed
        omega

theorem levelSpent (spent : Spent value turns last) (before : Level start value steady level)
    (always : ∀ k, steady k → ∀ turn ∈ turns, k ∈ turn.1) : ∃ next, Level start last steady next := by
  induction spent generalizing level with
  | nil => exact ⟨level,before⟩
  | turn value offered k rest last greedy later ih =>
    obtain ⟨next,after⟩ := levelTurn before greedy (fun other fixed => always other fixed _ List.mem_cons_self)
    exact ih after (fun other fixed turn member => always other fixed turn (List.mem_cons_of_mem _ member))

theorem levelled {keys : List κ} (spent : Spent start turns last)
    (always : ∀ k ∈ keys, ∀ turn ∈ turns, k ∈ turn.1) : ∃ level, Level start last (· ∈ keys) level := by
  obtain ⟨level,before⟩ := levelStart start keys
  exact levelSpent spent before always

end Turns

end WppGateway.Levelling
