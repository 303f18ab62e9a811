import Mathlib.Algebra.BigOperators.Group.List.Basic
import Mathlib.Algebra.Ring.Nat
import Mathlib.Data.List.Nodup

/-! Counts of rows by a key, added up. No program is named here. -/
namespace WppGateway.Tallies
variable {α κ : Type}

theorem sumOnes (p : α → Bool) (rows : List α) : (rows.map (fun row => if p row then 1 else 0)).sum = rows.countP p := by
  induction rows with
  | nil => rfl
  | cons row rest ih => rw [List.map_cons,List.sum_cons,ih,List.countP_cons,Nat.add_comm]

theorem keyOnce [DecidableEq κ] {keys : List κ} (nodup : keys.Nodup) (key : Option κ) :
    keys.countP (fun k => decide (key = some k)) = if key.any (fun k => decide (k ∈ keys)) then 1 else 0 := by
  induction keys with
  | nil => cases key <;> rfl
  | cons k rest ih =>
    obtain ⟨new,tail⟩ := List.nodup_cons.mp nodup
    rw [List.countP_cons,ih tail]
    cases key with
    | none => rfl
    | some other =>
      by_cases here : other = k
      · subst here
        simp [new]
      · simp [here]

theorem sumByKey [DecidableEq κ] {keys : List κ} (nodup : keys.Nodup) (key : α → Option κ) (p : α → Bool) (rows : List α) :
    (keys.map (fun k => (rows.filter (fun row => decide (key row = some k))).countP p)).sum =
      (rows.filter (fun row => (key row).any (fun k => decide (k ∈ keys)))).countP p := by
  simp only [List.countP_filter]
  induction rows with
  | nil => simp
  | cons row rest ih =>
    simp only [List.countP_cons,List.sum_map_add,ih,sumOnes]
    congr 1
    cases p row with
    | false => simp
    | true =>
      simp only [Bool.true_and]
      exact keyOnce nodup (key row)

theorem countSplit {p q r : α → Bool} {rows : List α}
    (split_ : ∀ row ∈ rows, (p row).toNat = (q row).toNat + (r row).toNat) : rows.countP p = rows.countP q + rows.countP r := by
  induction rows with
  | nil => rfl
  | cons row rest ih =>
    have tail := ih (fun other member => split_ other (List.mem_cons_of_mem _ member))
    have head := split_ row List.mem_cons_self
    rw [List.countP_cons,List.countP_cons,List.countP_cons,tail]
    cases first : p row <;> cases second : q row <;> cases third : r row <;> simp [first,second,third] at head ⊢ <;> omega

end WppGateway.Tallies
