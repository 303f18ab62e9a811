import Mathlib.Data.List.Nodup
import Mathlib.Data.List.Sort

/-! Tables as lists of rows with a key. An update rewrites every row of one key. -/
namespace WppGateway.Table
variable {α κ : Type} [DecidableEq κ] {key : α → κ}

def update (key : α → κ) (k : κ) (f : α → α) (rows : List α) : List α :=
  rows.map (fun row => if key row = k then f row else row)

def Distinct (key : α → κ) (rows : List α) : Prop := (rows.map key).Nodup

instance (rows : List α) : Decidable (Distinct key rows) := inferInstanceAs (Decidable (List.Nodup _))

theorem memUpdate {k : κ} {f : α → α} {rows : List α} {row : α} :
    row ∈ update key k f rows ↔ ∃ old ∈ rows, row = if key old = k then f old else old := by
  simp only [update,List.mem_map,eq_comm]

theorem memUpdateOther {k : κ} {f : α → α} {rows : List α} {row : α} (member : row ∈ rows)
    (other : key row ≠ k) : row ∈ update key k f rows :=
  memUpdate.mpr ⟨row,member,(if_neg other).symm⟩

theorem updateKeys {k : κ} {f : α → α} {rows : List α} (kept : ∀ row, key (f row) = key row) :
    (update key k f rows).map key = rows.map key := by
  simp only [update,List.map_map]
  apply List.map_congr_left
  intro row _
  simp only [Function.comp_apply]
  split <;> simp [kept]

theorem distinctUpdate {k : κ} {f : α → α} {rows : List α} (kept : ∀ row, key (f row) = key row)
    (distinct : Distinct key rows) : Distinct key (update key k f rows) := by
  rw [Distinct,updateKeys kept]
  exact distinct

omit [DecidableEq κ] in
theorem distinctAppend {old new : List α} (left : Distinct key old) (right : Distinct key new)
    (apart : ∀ a ∈ new, ∀ b ∈ old, key b ≠ key a) : Distinct key (old ++ new) := by
  rw [Distinct,List.map_append,List.nodup_append]
  refine ⟨left,right,?_⟩
  intro i hi j hj same
  obtain ⟨b,old,rfl⟩ := List.mem_map.mp hi
  obtain ⟨a,new,rfl⟩ := List.mem_map.mp hj
  exact apart a new b old same

omit [DecidableEq κ] in
theorem distinctFilter {rows : List α} (distinct : Distinct key rows) (p : α → Bool) : Distinct key (rows.filter p) :=
  List.Nodup.sublist (List.filter_sublist.map key) distinct

omit [DecidableEq κ] in
theorem distinctMap {f : α → α} {rows : List α} (kept : ∀ row, key (f row) = key row) (distinct : Distinct key rows) :
    Distinct key (rows.map f) := by
  rw [Distinct,List.map_map,show key ∘ f = key from funext kept]
  exact distinct

theorem filterAppend {own new : List α} {q : α → Bool} (kept : ∀ a ∈ own, q a = true)
    (foreign : ∀ a ∈ new, q a = false) : (own ++ new).filter q = own := by
  rw [List.filter_append,List.filter_eq_self.mpr kept,List.filter_eq_nil_iff.mpr (by simpa using foreign)]
  simp

theorem freshKey (key : α → Nat) (rows : List α) : ∃ id, ∀ row ∈ rows, key row < id := by
  induction rows with
  | nil => exact ⟨0,by simp⟩
  | cons row rest ih =>
    obtain ⟨id,above⟩ := ih
    refine ⟨max id (key row + 1),fun r member => ?_⟩
    rcases List.mem_cons.mp member with rfl | later
    · omega
    · have below := above r later
      omega

omit [DecidableEq κ] in
theorem sameRow {rows : List α} (distinct : Distinct key rows) {a b : α} (ha : a ∈ rows) (hb : b ∈ rows)
    (same : key a = key b) : a = b :=
  List.inj_on_of_nodup_map distinct ha hb same

theorem findMember {rows : List α} {k : κ} {row : α} (found : rows.find? (fun r => key r == k) = some row) :
    row ∈ rows ∧ key row = k :=
  ⟨List.mem_of_find?_eq_some found,by simpa using List.find?_some found⟩

theorem findKey {rows : List α} (distinct : Distinct key rows) {row : α} (member : row ∈ rows) :
    rows.find? (fun r => key r == key row) = some row := by
  cases found : rows.find? (fun r => key r == key row) with
  | none =>
    have absent := List.find?_eq_none.mp found row member
    simp at absent
  | some other =>
    obtain ⟨inside,here⟩ := findMember found
    rw [sameRow distinct inside member here]

variable (key) in
theorem findWithout (rows : List α) (k other : κ) :
    (rows.filter (fun r => key r != k)).find? (fun r => key r == other) =
      if other = k then none else rows.find? (fun r => key r == other) := by
  induction rows with
  | nil => simp
  | cons head rest ih =>
    by_cases own : key head = k
    · rw [List.filter_cons_of_neg (by simpa using own),ih]
      split
      · rfl
      · next different => rw [List.find?_cons_of_neg (by simpa [own] using fun same => different (Eq.symm same))]
    · rw [List.filter_cons_of_pos (by simpa using own),List.find?_cons,List.find?_cons]
      cases here : key head == other with
      | true =>
        have different : other ≠ k := fun same => own ((beq_iff_eq.mp here).trans same)
        simp [different]
      | false => exact ih

theorem findUpdate {k : κ} (rows : List α) (f : α → α) (kept : ∀ row, key (f row) = key row) :
    (update key k f rows).find? (fun r => key r == k) = (rows.find? (fun r => key r == k)).map f := by
  induction rows with
  | nil => rfl
  | cons head rest ih =>
    simp only [update] at ih
    simp only [update,List.map_cons]
    by_cases own : key head = k
    · rw [if_pos own,List.find?_cons_of_pos (by simpa [kept] using own),List.find?_cons_of_pos (by simpa using own)]
      rfl
    · rw [if_neg own,List.find?_cons_of_neg (by simpa using own),List.find?_cons_of_neg (by simpa using own)]
      exact ih

theorem findUpdateOther {k other : κ} (rows : List α) {f : α → α} (kept : ∀ row, key (f row) = key row) (different : other ≠ k) :
    (update key k f rows).find? (fun r => key r == other) = rows.find? (fun r => key r == other) := by
  induction rows with
  | nil => rfl
  | cons head rest ih =>
    simp only [update] at ih
    rw [update,List.map_cons,List.find?_cons,List.find?_cons,ih]
    by_cases own : key head = k
    · rw [if_pos own,kept,own,beq_false_of_ne (Ne.symm different)]
    · rw [if_neg own]

theorem updateAbsent {k : κ} {f : α → α} {rows : List α} (absent : ∀ row ∈ rows, key row ≠ k) :
    update key k f rows = rows := by
  conv_rhs => rw [← List.map_id rows]
  apply List.map_congr_left
  intro row member
  exact if_neg (absent row member)

theorem updateSame {k : κ} {f : α → α} {rows : List α} :
    update key k f rows = rows ↔ ∀ row ∈ rows, key row = k → f row = row := by
  induction rows with
  | nil => simp [update]
  | cons head rest ih =>
    simp only [update] at ih
    simp only [update,List.map_cons,List.cons.injEq,List.forall_mem_cons,ih]
    constructor
    · intro both
      obtain ⟨first,later⟩ := both
      exact ⟨fun here => by rwa [if_pos here] at first,later⟩
    · intro both
      obtain ⟨first,later⟩ := both
      refine ⟨?_,later⟩
      split
      · next here => exact first here
      · rfl

theorem updateFilter {k : κ} {f : α → α} {p : α → Bool} (blind : ∀ row, p (f row) = p row) (rows : List α) :
    (update key k f rows).filter p = update key k f (rows.filter p) := by
  simp only [update,List.filter_map]
  congr 1
  apply List.filter_congr
  intro row _
  simp only [Function.comp_apply]
  split
  · exact blind row
  · rfl

theorem filterMapSame {f : α → α} {p q : α → Bool} {rows : List α}
    (kept : ∀ row ∈ rows, q row = true → f row = row ∧ p row = true)
    (out : ∀ row ∈ rows, q row = false → p (f row) = false) : (rows.map f).filter p = rows.filter q := by
  induction rows with
  | nil => rfl
  | cons head rest ih =>
    have tail := ih (fun row member => kept row (List.mem_cons_of_mem _ member))
      (fun row member => out row (List.mem_cons_of_mem _ member))
    cases passes : q head with
    | true =>
      obtain ⟨same,stays⟩ := kept head List.mem_cons_self passes
      rw [List.map_cons,same,List.filter_cons_of_pos stays,List.filter_cons_of_pos passes,tail]
    | false =>
      have stays := out head List.mem_cons_self passes
      rw [List.map_cons,List.filter_cons_of_neg (by simp [stays]),List.filter_cons_of_neg (by simp [passes]),tail]

theorem countUpdate {k : κ} {f : α → α} {rows : List α} (distinct : Distinct key rows) (p : α → Bool)
    {row : α} (member : row ∈ rows) (here : key row = k) :
    (update key k f rows).countP p + (if p row then 1 else 0) =
      rows.countP p + (if p (f row) then 1 else 0) := by
  induction rows with
  | nil => simp at member
  | cons head rest ih =>
    simp only [Distinct,List.map_cons,List.nodup_cons,List.mem_map,not_exists,not_and] at distinct
    simp only [update,List.map_cons,List.countP_cons]
    rcases List.mem_cons.mp member with rfl | later
    · have untouched := updateAbsent (f := f) (fun other inside same =>
        distinct.1 other inside (same.trans here.symm))
      simp only [update] at untouched
      rw [untouched,if_pos here]
      omega
    · have different : key head ≠ k := fun same => distinct.1 row later (here.trans same.symm)
      have tail := ih distinct.2 later
      simp only [update] at tail
      rw [if_neg different]
      omega

theorem filterUpdate {k : κ} {f : α → α} {rows : List α} (distinct : Distinct key rows) {p : α → Bool} {row : α}
    (member : row ∈ rows) (here : key row = k) (passes : p row = true) (leaves : p (f row) = false) :
    (rows.filter p).Perm (row::(update key k f rows).filter p) := by
  induction rows with
  | nil => simp at member
  | cons head rest ih =>
    simp only [Distinct,List.map_cons,List.nodup_cons,List.mem_map,not_exists,not_and] at distinct
    rcases List.mem_cons.mp member with rfl | later
    · have untouched := updateAbsent (f := f) (fun other inside same => distinct.1 other inside (same.trans here.symm))
      simp only [update] at untouched
      rw [List.filter_cons_of_pos passes,update,List.map_cons,if_pos here,
        List.filter_cons_of_neg (by simp [leaves]),untouched]
    · have different : key head ≠ k := fun same => distinct.1 row later (here.trans same.symm)
      have tail := ih distinct.2 later
      simp only [update,List.map_cons,if_neg different] at tail ⊢
      by_cases kept : p head = true
      · rw [List.filter_cons_of_pos kept,List.filter_cons_of_pos kept]
        exact (tail.cons head).trans (List.Perm.swap row head _)
      · rw [List.filter_cons_of_neg kept,List.filter_cons_of_neg kept]
        exact tail

theorem countSet {rows : List α} {j : Nat} {a b : α} (found : rows[j]? = some a) (p : α → Bool) :
    (rows.set j b).countP p + (if p a then 1 else 0) = rows.countP p + (if p b then 1 else 0) := by
  induction rows generalizing j with
  | nil => cases found
  | cons head rest ih =>
    cases j with
    | zero =>
      cases Option.some.inj found
      simp only [List.set_cons_zero,List.countP_cons]
      omega
    | succ j =>
      have tail := ih (j := j) found
      simp only [List.set_cons_succ,List.countP_cons]
      omega

theorem countModify {f : α → α} {p : α → Bool} (blind : ∀ row, p (f row) = p row) (rows : List α) (j : Nat) :
    (rows.modify j f).countP p = rows.countP p := by
  induction rows generalizing j with
  | nil => cases j <;> rfl
  | cons head rest ih =>
    cases j with
    | zero => simp only [List.modify_zero_cons,List.countP_cons,blind]
    | succ j => simp only [List.modify_succ_cons,List.countP_cons,ih]

omit [DecidableEq κ] in
theorem modifyLast (rows : List α) (row : α) (f : α → α) : (rows ++ [row]).modify rows.length f = rows ++ [f row] := by
  induction rows with
  | nil => rfl
  | cons head rest ih => simp only [List.cons_append,List.length_cons,List.modify_succ_cons,ih]

omit [DecidableEq κ] in
theorem modifySource {rows : List α} {f : α → α} {i j : Nat} {row : α} (found : (rows.modify j f)[i]? = some row) :
    ∃ old, rows[i]? = some old ∧ row = if j = i then f old else old := by
  simp only [List.getElem?_modify,Option.map_eq_map,Option.map_eq_some_iff] at found
  obtain ⟨old,there,same⟩ := found
  exact ⟨old,there,same.symm⟩

end WppGateway.Table
