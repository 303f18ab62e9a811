import Mathlib.Data.List.Perm.Basic
import Mathlib.Data.List.Sort
import Mathlib.Order.Lattice

/-! The leader of a list: its first row of greatest value, which a scan ends with that
gives up its best row only for a better one. No program is named here. -/
namespace WppGateway.Leaders
variable {α κ : Type} [LinearOrder κ] {value : α → κ}

inductive Leads (value : α → κ) : List α → α → Prop where
  | first {best rest} (most : ∀ i ∈ rest, value i ≤ value best) : Leads value (best::rest) best
  | later {i rest best} (less : value i < value best) (leads : Leads value rest best) : Leads value (i::rest) best

def better (value : α → κ) (best i : α) : α := if value best < value i then i else best

def leader (value : α → κ) : List α → Option α
  | [] => none
  | first::rest => some (rest.foldl (better value) first)

theorem Leads.member {rows : List α} {best : α} (leads : Leads value rows best) : best ∈ rows := by
  induction leads with
  | first most => exact List.mem_cons_self
  | later less leads ih => exact List.mem_cons_of_mem _ ih

theorem Leads.most {rows : List α} {best : α} (leads : Leads value rows best) :
    ∀ i ∈ rows, value i ≤ value best := by
  induction leads with
  | first most => exact List.forall_mem_cons.mpr ⟨le_rfl,most⟩
  | later less leads ih => exact List.forall_mem_cons.mpr ⟨less.le,ih⟩

theorem leadsScan (rows : List α) (start : α) : Leads value (start::rows) (rows.foldl (better value) start) := by
  induction rows generalizing start with
  | nil => exact .first (by simp)
  | cons i rest ih =>
    have next := ih (better value start i)
    simp only [List.foldl_cons]
    by_cases more : value start < value i
    · simp only [better,if_pos more] at next ⊢
      exact .later (more.trans_le (next.most i List.mem_cons_self)) next
    · simp only [better,if_neg more] at next ⊢
      have below : value i ≤ value start := not_lt.mp more
      -- a row that does not take over stands behind the old best, wherever the scan ends
      generalize rest.foldl (better value) start = best at next
      cases next with
      | first most => exact .first (List.forall_mem_cons.mpr ⟨below,most⟩)
      | later less leads => exact .later less (.later (below.trans_lt less) leads)

theorem leadsUnique {rows : List α} {a b : α} (left : Leads value rows a) (right : Leads value rows b) : a = b := by
  induction left with
  | first most =>
    cases right with
    | first => rfl
    | later less leads => exact absurd less (not_lt.mpr (most b leads.member))
  | later less leads ih =>
    cases right with
    | first most => exact absurd less (not_lt.mpr (most _ leads.member))
    | later _ other => exact ih other

theorem leaderIff {rows : List α} {best : α} : leader value rows = some best ↔ Leads value rows best := by
  cases rows with
  | nil => exact ⟨fun found => (by cases found),fun leads => (by cases leads)⟩
  | cons first rest =>
    simp only [leader,Option.some.injEq]
    constructor
    · intro scanned
      exact scanned ▸ leadsScan rest first
    · exact leadsUnique (leadsScan rest first)

theorem leaderNone {rows : List α} : leader value rows = none ↔ rows = [] := by
  cases rows <;> simp [leader]

theorem leadsFilter {rows : List α} {best : α} {p : α → Bool} (leads : Leads value (rows.filter p) best) :
    ∃ before after, rows = before ++ best::after ∧ ∀ i ∈ before, p i = true → value i < value best := by
  induction rows with
  | nil => cases leads
  | cons i rest ih =>
    rw [List.filter_cons] at leads
    split at leads
    · cases leads with
      | first most => exact ⟨[],rest,rfl,by simp⟩
      | later less leads =>
        obtain ⟨before,after,rfl,early⟩ := ih leads
        exact ⟨i::before,after,rfl,List.forall_mem_cons.mpr ⟨fun _ => less,early⟩⟩
    · next skipped =>
      obtain ⟨before,after,rfl,early⟩ := ih leads
      exact ⟨i::before,after,rfl,List.forall_mem_cons.mpr ⟨fun pass => absurd pass skipped,early⟩⟩

theorem leadsExists (value : α → κ) {rows : List α} (some_ : rows ≠ []) : ∃ best, Leads value rows best := by
  obtain ⟨first,rest,rfl⟩ := List.exists_cons_of_ne_nil some_
  exact ⟨_,leadsScan rest first⟩

theorem Leads.kept {rows : List α} {best : α} {p : α → Bool} (leads : Leads value rows best) (pass : p best = true) :
    Leads value (rows.filter p) best := by
  induction leads with
  | first most =>
    rw [List.filter_cons_of_pos pass]
    exact .first (fun i member => most i (List.mem_filter.mp member).1)
  | later less leads ih =>
    rw [List.filter_cons]
    split
    · exact .later less (ih pass)
    · exact ih pass

/-! Rows in strict order of a second value: among rows of one value the earlier is the greater. -/
section Ties
variable {ι : Type} [LinearOrder ι] {tie : α → ι}

def Outranks (value : α → κ) (tie : α → ι) (k i : α) : Prop :=
  value i < value k ∨ (value i = value k ∧ tie i < tie k)

theorem leadsOutranks {rows : List α} {best : α} (sorted : rows.Pairwise (fun a b => tie b < tie a))
    (leads : Leads value rows best) : ∀ k ∈ rows, k = best ∨ Outranks value tie best k := by
  induction leads with
  | first most =>
    obtain ⟨above,_⟩ := List.pairwise_cons.mp sorted
    refine List.forall_mem_cons.mpr ⟨.inl rfl,fun k member => .inr ?_⟩
    rcases (most k member).lt_or_eq with less | same
    · exact .inl less
    · exact .inr ⟨same,above k member⟩
  | later less leads ih =>
    exact List.forall_mem_cons.mpr ⟨.inr (.inl less),ih (List.pairwise_cons.mp sorted).2⟩

theorem outranksAsymm {k i : α} (above : Outranks value tie k i) : ¬ Outranks value tie i k := by
  intro below
  rcases above with less | ⟨same,less⟩ <;> rcases below with more | ⟨same',more⟩
  · exact absurd more less.asymm
  · exact absurd same'.symm less.ne
  · exact absurd same.symm more.ne
  · exact absurd more less.asymm

theorem leaderPasses {rows : List α} {p : α → Bool} (sorted : rows.Pairwise (fun a b => tie b < tie a)) :
    (∀ best, Leads value rows best → p best = true) ↔
      ∀ i ∈ rows, p i = false → ∃ k ∈ rows, p k = true ∧ Outranks value tie k i := by
  constructor
  · intro passes i member fails
    obtain ⟨best,leads⟩ := leadsExists value (List.ne_nil_of_mem member)
    have pass := passes best leads
    rcases leadsOutranks sorted leads i member with rfl | above
    · rw [fails] at pass; cases pass
    · exact ⟨best,leads.member,pass,above⟩
  · intro outranked best leads
    by_contra fails
    obtain ⟨k,member,pass,above⟩ := outranked best leads.member (by simpa using fails)
    rcases leadsOutranks sorted leads k member with rfl | below
    · exact fails pass
    · exact outranksAsymm above below

end Ties

theorem leaderAgrees {rows : List α} {p : α → Bool} :
    (∀ best, (Leads value rows best ↔ Leads value (rows.filter p) best) ∧ (Leads value rows best → p best = true)) ↔
      ∀ best, Leads value rows best → p best = true := by
  refine ⟨fun agree best => (agree best).2,fun passes best => ⟨⟨fun leads => leads.kept (passes best leads),?_⟩,passes best⟩⟩
  intro kept
  obtain ⟨other,leads⟩ := leadsExists value (List.ne_nil_of_mem (List.mem_filter.mp kept.member).1)
  rwa [leadsUnique kept (leads.kept (passes other leads))]

section Rearranged

def Descending (value : α → κ) (rows : List α) : Prop := rows.Pairwise (fun a b => value b ≤ value a)

def Top (value : α → κ) (rows : List α) (best : α) : Prop := best ∈ rows ∧ ∀ i ∈ rows, value i ≤ value best

theorem topPerm {rows other : List α} {best : α} (same : other.Perm rows) : Top value other best ↔ Top value rows best := by
  simp only [Top,same.mem_iff]

theorem topFirst {rows : List α} {best : α} (top : Top value rows best) :
    ∃ rest, (best::rest).Perm rows ∧ Descending value (best::rest) := by
  obtain ⟨before,behind,rfl⟩ := List.append_of_mem top.1
  refine ⟨(before ++ behind).insertionSort (fun a b => value b ≤ value a),?_,List.pairwise_cons.mpr ⟨?_,?_⟩⟩
  · exact ((List.perm_insertionSort _ _).cons best).trans List.perm_middle.symm
  · intro i member
    have inside := (List.perm_insertionSort _ _).mem_iff.mp member
    refine top.2 i ?_
    simp only [List.mem_append,List.mem_cons] at inside ⊢
    tauto
  · exact List.pairwise_insertionSort _ _

theorem leaderTop {rows : List α} {best : α} (found : leader value rows = some best) : Top value rows best := by
  have leads := leaderIff.mp found
  exact ⟨leads.member,leads.most⟩

theorem leaderFirst {best : α} {rest : List α} (sorted : Descending value (best::rest)) :
    leader value (best::rest) = some best :=
  leaderIff.mpr (.first (List.pairwise_cons.mp sorted).1)

theorem leaderStable (rows : List α) :
    (∀ first second : List α, first.Perm rows → second.Perm rows → Descending value first → Descending value second →
      leader value first = leader value second) ↔
      ∀ i j, Top value rows i → Top value rows j → i = j := by
  constructor
  · intro stable i j top other
    obtain ⟨rest,perm,sorted⟩ := topFirst top
    obtain ⟨rest',perm',sorted'⟩ := topFirst other
    have same := stable _ _ perm perm' sorted sorted'
    rw [leaderFirst sorted,leaderFirst sorted'] at same
    exact Option.some.inj same
  · intro one first second perm perm' _ _
    cases found : leader value first with
    | none =>
      have empty := (leaderNone.mp found ▸ perm).nil_eq
      rw [← empty] at perm'
      exact (leaderNone.mpr perm'.eq_nil).symm
    | some best =>
      cases found' : leader value second with
      | none =>
        have empty := (leaderNone.mp found' ▸ perm').nil_eq
        rw [← empty] at perm
        rw [perm.eq_nil] at found
        cases found
      | some other =>
        exact congrArg some (one best other ((topPerm perm).mp (leaderTop found)) ((topPerm perm').mp (leaderTop found')))

end Rearranged
end WppGateway.Leaders
