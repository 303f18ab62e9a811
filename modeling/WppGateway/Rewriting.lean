import Mathlib.Data.List.Infix

/-! Marks in a list: the list is read from the left, and where marks begin one of them is taken whole. No program is
named here. -/
namespace WppGateway.Rewriting
variable {α β κ : Type}

/- The pieces put together again, with something else in place of the marks. -/
def fill (copy : α → List β) (value : κ → List β) (pieces : List (α ⊕ κ)) : List β :=
  pieces.flatMap (Sum.elim copy value)

def copied (pieces : List (α ⊕ κ)) : List α := pieces.filterMap Sum.getLeft?

section Fill
variable {copy : α → List β} {value : κ → List β} {a : α} {k : κ} {pieces : List (α ⊕ κ)}

@[simp] theorem fillNil : fill copy value [] = [] := rfl
@[simp] theorem fillCopied : fill copy value (.inl a::pieces) = copy a ++ fill copy value pieces := rfl
@[simp] theorem fillMark : fill copy value (.inr k::pieces) = value k ++ fill copy value pieces := rfl

@[simp] theorem fillAppend (first later : List (α ⊕ κ)) :
    fill copy value (first ++ later) = fill copy value first ++ fill copy value later := List.flatMap_append

theorem fillCopies (list : List α) : fill copy value (list.map Sum.inl) = list.flatMap copy := by
  simp [fill,List.flatMap_map]

@[simp] theorem copiedCopied : copied (.inl a::pieces) = a::copied pieces := rfl
@[simp] theorem copiedMark : copied (.inr k::pieces) = copied pieces := rfl

theorem fillCongr {other : α → List β} (same : ∀ a ∈ copied pieces, copy a = other a) :
    fill copy value pieces = fill other value pieces := by
  induction pieces with
  | nil => rfl
  | cons piece rest ih =>
    cases piece with
    | inl a =>
      simp only [copiedCopied,List.forall_mem_cons] at same
      rw [fillCopied,fillCopied,same.1,ih same.2]
    | inr k => rw [fillMark,fillMark,ih same]

theorem fillValues {other : κ → List β} (same : ∀ k, .inr k ∈ pieces → value k = other k) :
    fill copy value pieces = fill copy other pieces := by
  refine List.flatMap_congr (fun piece member => ?_)
  cases piece with
  | inl a => rfl
  | inr k => exact same k member

theorem fillFill {γ ι : Type} {before : γ → List (α ⊕ κ)} {inside : ι → List (α ⊕ κ)} (all : List (γ ⊕ ι)) :
    fill copy value (fill before inside all) =
      fill (fun c => fill copy value (before c)) (fun i => fill copy value (inside i)) all := by
  simp only [fill,List.flatMap_assoc]
  refine List.flatMap_congr (fun piece _ => ?_)
  cases piece <;> rfl

end Fill

variable [DecidableEq α]

section Scan
variable (mark : κ → List α) (keys : List κ)

def found (text : List α) : Option κ := keys.find? (fun k => (mark k).isPrefixOf text)

/- The first number counts the elements of a mark that are still to be passed over. -/
def scan : Nat → List α → List (α ⊕ κ)
  | _,[] => []
  | skip+1,_::rest => scan skip rest
  | 0,a::rest => match found mark keys (a::rest) with
    | some k => .inr k::scan ((mark k).length - 1) rest
    | none => .inl a::scan 0 rest

def plain (pieces : List (α ⊕ κ)) : List α := fill (fun a => [a]) mark pieces

/- The pieces are what reading them from the left finds. -/
def Read : List (α ⊕ κ) → Prop
  | [] => True
  | .inl a::rest => found mark keys (a::plain mark rest) = none ∧ Read rest
  | .inr k::rest => found mark keys (mark k ++ plain mark rest) = some k ∧ Read rest

instance instDecidableRead [DecidableEq κ] : ∀ pieces : List (α ⊕ κ), Decidable (Read mark keys pieces)
  | [] => inferInstanceAs (Decidable True)
  | .inl a::rest =>
    let _ : Decidable (Read mark keys rest) := instDecidableRead rest
    inferInstanceAs (Decidable (found mark keys (a::plain mark rest) = none ∧ Read mark keys rest))
  | .inr k::rest =>
    let _ : Decidable (Read mark keys rest) := instDecidableRead rest
    inferInstanceAs (Decidable (found mark keys (mark k ++ plain mark rest) = some k ∧ Read mark keys rest))

end Scan

variable {mark : κ → List α} {keys : List κ} {text : List α}

theorem foundMember {k : κ} (here : found mark keys text = some k) : k ∈ keys ∧ mark k <+: text :=
  ⟨List.mem_of_find?_eq_some here,by simpa using List.find?_some here⟩

theorem foundNone : found mark keys text = none ↔ ∀ k ∈ keys, ¬ mark k <+: text := by
  simp [found,List.find?_eq_none]

theorem foundSame {other : List α} (same : ∀ k ∈ keys, mark k <+: text ↔ mark k <+: other) :
    found mark keys text = found mark keys other := by
  induction keys with
  | nil => rfl
  | cons k rest ih =>
    simp only [List.forall_mem_cons] at same
    have begins : (mark k).isPrefixOf text = (mark k).isPrefixOf other := by
      rw [Bool.eq_iff_iff,List.isPrefixOf_iff_prefix,List.isPrefixOf_iff_prefix]
      exact same.1
    have tail := ih same.2
    simp only [found,List.find?_cons,begins] at tail ⊢
    rw [tail]

theorem foundOne (k : κ) : found mark [k] text = if mark k <+: text then some k else none := by
  simp only [found,List.find?_singleton,List.isPrefixOf_iff_prefix]

theorem scanSkip (n : Nat) (list : List α) : scan mark keys n list = scan mark keys 0 (list.drop n) := by
  induction list generalizing n with
  | nil => cases n <;> rfl
  | cons a rest ih =>
    cases n with
    | zero => rfl
    | succ n => exact ih n

theorem scanMarks {k : κ} {n : Nat} {list : List α} (member : .inr k ∈ scan mark keys n list) : k ∈ keys := by
  induction list generalizing n with
  | nil => cases n <;> cases member
  | cons a rest ih =>
    cases n with
    | succ n => exact ih member
    | zero =>
      simp only [scan] at member
      split at member
      · next i here =>
        rcases List.mem_cons.mp member with same | later
        · cases same
          exact (foundMember here).1
        · exact ih later
      · rcases List.mem_cons.mp member with same | later
        · cases same
        · exact ih later

theorem scanCopies {a : α} {rest : List α} (here : found mark keys (a::rest) = none) :
    scan mark keys 0 (a::rest) = .inl a::scan mark keys 0 rest := by
  simp only [scan,here]

theorem scanUnmarked {list : List α} (absent : ∀ k ∈ keys, ¬ mark k <:+: list) :
    scan mark keys 0 list = list.map Sum.inl := by
  induction list with
  | nil => rfl
  | cons a rest ih =>
    have here : found mark keys (a::rest) = none :=
      foundNone.mpr (fun k member begins => absent k member begins.isInfix)
    rw [scanCopies here,List.map_cons,
      ih (fun k member inside => absent k member (inside.trans (List.suffix_cons a rest).isInfix))]

section Marks
variable (marked : ∀ k ∈ keys, mark k ≠ [])
include marked

theorem scanTakes {k : κ} {rest : List α} (here : found mark keys (mark k ++ rest) = some k) :
    scan mark keys 0 (mark k ++ rest) = .inr k::scan mark keys 0 rest := by
  obtain ⟨a,tail,split_⟩ := List.exists_cons_of_ne_nil (marked k (foundMember here).1)
  rw [split_,List.cons_append] at here ⊢
  simp only [scan,here,split_,List.length_cons,Nat.add_sub_cancel]
  rw [scanSkip,List.drop_left]

theorem scanPlain {pieces : List (α ⊕ κ)} (read : Read mark keys pieces) :
    scan mark keys 0 (plain mark pieces) = pieces := by
  induction pieces with
  | nil => rfl
  | cons piece rest ih =>
    cases piece with
    | inl a =>
      have tail := ih read.2
      rw [show plain mark (.inl a::rest) = a::plain mark rest from rfl,scanCopies read.1,tail]
    | inr k =>
      have tail := ih read.2
      rw [show plain mark (.inr k::rest) = mark k ++ plain mark rest from rfl,scanTakes marked read.1,tail]

theorem plainScan (list : List α) : plain mark (scan mark keys 0 list) = list ∧ Read mark keys (scan mark keys 0 list) := by
  generalize size : list.length = n
  induction n using Nat.strongRecOn generalizing list with
  | ind n ih =>
    cases list with
    | nil => exact ⟨rfl,trivial⟩
    | cons a rest =>
      cases here : found mark keys (a::rest) with
      | none =>
        obtain ⟨same,read⟩ := ih rest.length (by rw [← size]; exact Nat.lt_succ_self _) rest rfl
        rw [scanCopies here]
        exact ⟨congrArg (a::·) same,by rw [same]; exact here,read⟩
      | some k =>
        obtain ⟨member,later,split_⟩ := foundMember here
        rw [← split_] at here size ⊢
        have positive := List.length_pos_iff.mpr (marked k member)
        rw [List.length_append] at size
        obtain ⟨same,read⟩ := ih later.length (by omega) later rfl
        rw [scanTakes marked here]
        exact ⟨congrArg (mark k ++ ·) same,by rw [same]; exact here,read⟩

theorem scanAppend {first later : List α}
    (seam : ∀ tail, tail <:+ first → tail ≠ [] → ∀ k ∈ keys, mark k <+: tail ++ later → mark k <+: tail) :
    scan mark keys 0 (first ++ later) = scan mark keys 0 first ++ scan mark keys 0 later := by
  generalize size : first.length = n
  induction n using Nat.strongRecOn generalizing first with
  | ind n ih =>
    cases first with
    | nil => rfl
    | cons a rest =>
      have same : found mark keys (a::rest ++ later) = found mark keys (a::rest) := foundSame (fun k member =>
        ⟨seam _ List.suffix_rfl (List.cons_ne_nil a rest) k member,fun begins => begins.trans (List.prefix_append _ _)⟩)
      cases here : found mark keys (a::rest) with
      | none =>
        rw [here,List.cons_append] at same
        rw [scanCopies here,List.cons_append,scanCopies same,List.cons_append]
        refine congrArg _ (ih rest.length (by rw [← size]; exact Nat.lt_succ_self _) (fun tail end_ => ?_) rfl)
        exact seam tail (end_.trans (List.suffix_cons a rest))
      | some k =>
        obtain ⟨member,left,split_⟩ := foundMember here
        rw [← split_] at here same size seam ⊢
        rw [here] at same
        have positive := List.length_pos_iff.mpr (marked k member)
        rw [List.length_append] at size
        rw [scanTakes marked here]
        rw [List.append_assoc] at same ⊢
        rw [scanTakes marked same,List.cons_append]
        refine congrArg _ (ih left.length (by omega) (fun tail end_ => ?_) rfl)
        exact seam tail (end_.trans (List.suffix_append (mark k) left))

end Marks
end WppGateway.Rewriting
