import Mathlib.Data.Nat.Digits.Lemmas

/-! Numbers written with at least so many digits, zeros in front, as ASCII bytes, and fields with a separator. No program
is named here. -/
namespace WppGateway.Numerals

def digitByte (d : Nat) : UInt8 := UInt8.ofNat (if d < 10 then 48 + d else 87 + d)

def IsDigit (b : UInt8) : Prop := (48 ≤ b ∧ b ≤ 57) ∨ (97 ≤ b ∧ b ≤ 102)

instance (b : UInt8) : Decidable (IsDigit b) := inferInstanceAs (Decidable (_ ∨ _))

def digitValue (b : UInt8) : Nat := if b.toNat < 58 then b.toNat - 48 else b.toNat - 87

def numeral (base width n : Nat) : List UInt8 :=
  ((Nat.digits base n ++ List.replicate (width - (Nat.digits base n).length) 0).reverse).map digitByte

theorem digitRead {d : Nat} (small : d < 16) : digitValue (digitByte d) = d := by
  decide +revert

theorem digitKind {d : Nat} (small : d < 16) : IsDigit (digitByte d) := by
  decide +revert

section Base
variable {base : Nat} (least : 1 < base) (most : base ≤ 16)
include least most

theorem digitSmall {width n d : Nat}
    (member : d ∈ Nat.digits base n ++ List.replicate (width - (Nat.digits base n).length) 0) : d < 16 := by
  rcases List.mem_append.mp member with digit | zero
  · exact (Nat.digits_lt_base least digit).trans_le most
  · rw [List.eq_of_mem_replicate zero]
    decide

theorem numeralByte {width n : Nat} {b : UInt8} (member : b ∈ numeral base width n) : IsDigit b := by
  obtain ⟨d,inside,rfl⟩ := List.mem_map.mp member
  exact digitKind (digitSmall least most (List.mem_reverse.mp inside))

theorem numeralValue (width n : Nat) : Nat.ofDigits base ((numeral base width n).map digitValue).reverse = n := by
  have read : ∀ ds : List Nat, (∀ d ∈ ds, d < 16) → (ds.map digitByte).map digitValue = ds := by
    intro ds small
    rw [List.map_map]
    exact (List.map_congr_left (fun d member => digitRead (small d member))).trans (List.map_id ds)
  rw [numeral,read _ (fun d member => digitSmall least most (List.mem_reverse.mp member)),List.reverse_reverse,
    Nat.ofDigits_append_replicate_zero,Nat.ofDigits_digits]

/- Numerals of one width tell numbers apart, also where they are longer than the width. -/
theorem numeralInjective (width : Nat) : Function.Injective (numeral base width) := by
  intro n m same
  rw [← numeralValue least most width n,same,numeralValue least most width m]

theorem numeralLacks {b : UInt8} (other : ¬ IsDigit b) (width n : Nat) : b ∉ numeral base width n :=
  fun member => other (numeralByte least most member)

end Base

theorem everyByte {P : UInt8 → Prop} [DecidablePred P] (all : ∀ n : Fin 256, P (UInt8.ofNat n)) (b : UInt8) : P b := by
  have here := all ⟨b.toNat,b.toNat_lt⟩
  rwa [UInt8.ofNat_toNat] at here

theorem fieldsInjective {α : Type} {separator : α} {first second rest others : List α} (left : separator ∉ first)
    (right : separator ∉ second) (same : first ++ separator::rest = second ++ separator::others) :
    first = second ∧ rest = others := by
  rcases List.append_eq_append_iff.mp same with ⟨more,rfl,tail⟩ | ⟨more,rfl,tail⟩
  · cases more with
    | nil => exact ⟨(List.append_nil _).symm,(List.cons.inj tail).2⟩
    | cons b more =>
      obtain ⟨rfl,_⟩ := List.cons.inj tail
      exact absurd (List.mem_append_right first List.mem_cons_self) right
  · cases more with
    | nil => exact ⟨List.append_nil _,(List.cons.inj tail).2.symm⟩
    | cons b more =>
      obtain ⟨rfl,_⟩ := List.cons.inj tail
      exact absurd (List.mem_append_right second List.mem_cons_self) left

end WppGateway.Numerals
