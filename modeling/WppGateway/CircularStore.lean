import Mathlib.Data.List.Basic

/-! A circular store: the value with number `n` goes to slot `n % size`, over the oldest one, and the last `size` values
are found by their age. -/
namespace WppGateway.CircularStore

variable {α : Type}

def Holds (slots writes : List α) : Prop :=
  ∀ age, age < min slots.length writes.length → slots[(writes.length - 1 - age) % slots.length]? = writes.reverse[age]?

theorem holdsNone (slots : List α) : Holds slots [] := fun _ young => by simp at young

theorem slotsApart {size number gap : Nat} (positive : 0 < gap) (few : gap < size) (enough : gap ≤ number) :
    (number - gap) % size ≠ number % size := by
  intro same
  have whole := Nat.sub_mod_eq_zero_of_mod_eq same.symm
  rw [Nat.sub_sub_self enough,Nat.mod_eq_of_lt few] at whole
  omega

theorem holdsWrite {slots writes : List α} (room : 0 < slots.length) (held : Holds slots writes) (value : α) :
    Holds (slots.set (writes.length % slots.length) value) (writes ++ [value]) := by
  intro age young
  simp only [List.length_set,List.length_append,List.length_singleton] at young ⊢
  rw [List.reverse_append,List.reverse_singleton,List.singleton_append]
  cases age with
  | zero =>
    have slot : (writes.length + 1 - 1 - 0) % slots.length = writes.length % slots.length := rfl
    rw [slot,List.getElem?_set_self (Nat.mod_lt _ room)]
    rfl
  | succ age =>
    have slot : writes.length + 1 - 1 - (age+1) = writes.length - (age+1) := by omega
    have older : writes.length - (age+1) = writes.length - 1 - age := by omega
    have apart := slotsApart (Nat.succ_pos age) (show age+1 < slots.length by omega) (show age+1 ≤ writes.length by omega)
    rw [slot,List.getElem?_set_ne apart.symm,older,held age (by omega)]
    rfl

/- Where a reader finds the value that is `i` places after the oldest one of `count`, when all it knows is the slot that
will be written next. -/
theorem slotFound {size number count i : Nat} (few : count ≤ size) (made : count ≤ number) :
    ((((number % size : Nat) : Int) - count + size).tmod size + i).tmod size = ((number - count + i) % size : Nat) := by
  have start : (0 : Int) ≤ ((number % size : Nat) : Int) - count + size := by omega
  rw [Int.tmod_eq_emod_of_nonneg start]
  have inside : (0 : Int) ≤ (((number % size : Nat) : Int) - count + size) % size + i := by
    rcases Nat.eq_zero_or_pos size with none_ | some_
    · subst none_
      have zero : count = 0 := by omega
      subst zero
      simp only [Nat.mod_zero,Int.natCast_zero,Int.emod_zero]
      omega
    · have := Int.emod_nonneg (((number % size : Nat) : Int) - count + size) (show (size : Int) ≠ 0 by omega)
      omega
  rw [Int.tmod_eq_emod_of_nonneg inside,Int.emod_add_emod,Int.natCast_emod,Int.natCast_emod]
  have moved : (number : Int) % size - count + size + i = (number : Int) % size + ((i : Int) - count) + size := by omega
  have sum : ((number - count + i : Nat) : Int) = number + (i - count) := by omega
  rw [moved,Int.add_emod_right,Int.emod_add_emod,sum]

end WppGateway.CircularStore
