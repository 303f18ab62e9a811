import WppGateway.Runs
import Mathlib.Logic.Function.Basic

/-! A cache that its readers fill: a reader that finds no entry reads the row, later, and then
enters what it read. Writes go to the row alone. Keys and values are of any type. -/
namespace WppGateway.ReadThrough
open Runs
variable {κ ν : Type} [DecidableEq κ]

inductive Stage (ν : Type) where
  | asks
  | reads
  | fills (v : ν)
  | holds (v : ν)
  | gone
  deriving DecidableEq

/- Here `since` is the last write acknowledged when the reader began, by its place. -/
structure Reader (κ ν : Type) where
  key : κ
  since : Option Nat
  stage : Stage ν

structure Cache (κ ν : Type) where
  row : κ → Option ν
  writes : κ → List ν
  acknowledged : κ → Option Nat
  entry : κ → Option ν
  readers : List (Reader κ ν)

inductive Act (κ ν : Type) where
  | write (k : κ) (v : ν)
  | acknowledge (k : κ) (n : Nat)
  | begin_ (k : κ)
  | read (j : Nat)
  | leave (j : Nat)

def latest (old : Option Nat) (n : Nat) : Option Nat := some (max (old.getD n) n)

def setReader (c : Cache κ ν) (j : Nat) (r : Reader κ ν) : Cache κ ν := {c with readers := c.readers.set j r}

def step (c : Cache κ ν) : Act κ ν → Option (Cache κ ν)
  | .write k v => some
      {c with row := Function.update c.row k (some v), writes := Function.update c.writes k (c.writes k ++ [v])}
  | .acknowledge k n =>
    if n < (c.writes k).length then
      some {c with acknowledged := Function.update c.acknowledged k (latest (c.acknowledged k) n)}
    else none
  | .begin_ k => some {c with readers := c.readers ++ [⟨k,c.acknowledged k,.asks⟩]}
  | .read j => do
    let r ← c.readers[j]?
    match r.stage with
    | .asks => match c.entry r.key with
      | some v => some (setReader c j {r with stage := .holds v})
      | none => some (setReader c j {r with stage := .reads})
    | .reads => match c.row r.key with
      | some v => some (setReader c j {r with stage := .fills v})
      | none => none
    | .fills v => some {setReader c j {r with stage := .holds v} with entry := Function.update c.entry r.key (some v)}
    | _ => none
  | .leave j => do
    let r ← c.readers[j]?
    some (setReader c j {r with stage := .gone})

/- What the reader holds was written no earlier than the last write acknowledged when it began. -/
def Recent (c : Cache κ ν) (r : Reader κ ν) (v : ν) : Prop :=
  ∀ n, r.since = some n → ∃ m, n ≤ m ∧ (c.writes r.key)[m]? = some v

def Coherent (c : Cache κ ν) : Prop := ∀ r ∈ c.readers, ∀ v, r.stage = .holds v → Recent c r v

/- The written value is no other than the one that is entered, or about to be. -/
def Unrivalled (c : Cache κ ν) : Act κ ν → Prop
  | .write k v => (∀ old, c.entry k = some old → old = v) ∧
      ∀ r ∈ c.readers, r.key = k → ∀ old, r.stage = .fills old → old = v
  | _ => True

def Last (c : Cache κ ν) (k : κ) (v : ν) : Prop := ∀ last, (c.writes k).getLast? = some last → last = v

structure Current (c : Cache κ ν) : Prop where
  rows : ∀ k v, c.row k = some v → Last c k v
  entries : ∀ k v, c.entry k = some v → Last c k v
  fills : ∀ r ∈ c.readers, ∀ v, r.stage = .fills v → Last c r.key v
  acknowledged : ∀ k n, c.acknowledged k = some n → n < (c.writes k).length
  since : ∀ r ∈ c.readers, ∀ n, r.since = some n → n < (c.writes r.key).length
  held : Coherent c

omit [DecidableEq κ] in
theorem lastRecent {c : Cache κ ν} {r : Reader κ ν} {v : ν} (last : Last c r.key v)
    (since : ∀ n, r.since = some n → n < (c.writes r.key).length) : Recent c r v := by
  intro n began
  have inside := since n began
  have some_ : c.writes r.key ≠ [] := List.ne_nil_of_length_pos (by omega)
  have found := List.getLast?_eq_some_getLast some_
  refine ⟨(c.writes r.key).length - 1,by omega,?_⟩
  rw [← List.getLast?_eq_getElem?,found,last _ found]

omit [DecidableEq κ] in
theorem currentMoves {c : Cache κ ν} {j : Nat} {r : Reader κ ν} {s : Stage ν} {entry : κ → Option ν} (inv : Current c)
    (found : c.readers[j]? = some r) (entries : ∀ k v, entry k = some v → Last c k v)
    (last : ∀ v, s = .fills v ∨ s = .holds v → Last c r.key v) :
    Current {setReader c j {r with stage := s} with entry := entry} := by
  have since := inv.since r (List.mem_of_getElem? found)
  have origin : ∀ q ∈ c.readers.set j {r with stage := s}, q ∈ c.readers ∨ q = {r with stage := s} :=
    fun q member => List.mem_or_eq_of_mem_set member
  refine ⟨inv.rows,entries,?_,inv.acknowledged,?_,?_⟩
  · intro q member v at_
    rcases origin q member with old | rfl
    · exact inv.fills q old v at_
    · exact last v (.inl at_)
  · intro q member n began
    rcases origin q member with old | rfl
    · exact inv.since q old n began
    · exact since n began
  · intro q member v at_
    rcases origin q member with old | rfl
    · exact inv.held q old v at_
    · exact lastRecent (r := {r with stage := s}) (last v (.inr at_)) since

theorem currentWrite {c : Cache κ ν} {k : κ} {v : ν} (inv : Current c) (safe : Unrivalled c (.write k v)) :
    Current {c with row := Function.update c.row k (some v), writes := Function.update c.writes k (c.writes k ++ [v])} := by
  obtain ⟨entered,filling⟩ := safe
  have kept : ∀ (l : List ν) (m : Nat) (w : ν), l[m]? = some w → (l ++ [v])[m]? = some w := fun l m w here => by
    rw [List.getElem?_append_left (List.getElem?_eq_some_iff.mp here).choose]
    exact here
  have last : ∀ k' w, (k' = k → w = v) → (k' ≠ k → Last c k' w) → ∀ w', (Function.update c.writes k (c.writes k ++ [v])
      k').getLast? = some w' → w' = w := by
    intro k' w here there w' latest
    by_cases same : k' = k
    · subst same
      rw [Function.update_self,List.getLast?_concat] at latest
      rw [here rfl,Option.some.inj latest]
    · rw [Function.update_of_ne same] at latest
      exact there same w' latest
  have grows : ∀ k' n, n < (c.writes k').length →
      n < (Function.update c.writes k (c.writes k ++ [v]) k').length := by
    intro k' n inside
    by_cases same : k' = k
    · subst same
      rw [Function.update_self,List.length_append]
      omega
    · rw [Function.update_of_ne same]
      exact inside
  refine ⟨?_,?_,?_,fun k' n old => grows k' n (inv.acknowledged k' n old),
    fun r member n began => grows r.key n (inv.since r member n began),?_⟩
  · intro k' w row
    refine last k' w (fun same => ?_) (fun other => inv.rows k' w ?_)
    · subst same
      simp only [Function.update_self] at row
      exact (Option.some.inj row).symm
    · simpa only [Function.update_of_ne other] using row
  · exact fun k' w old => last k' w (fun same => entered w (same ▸ old)) (fun _ => inv.entries k' w old)
  · exact fun r member w at_ => last r.key w (fun same => filling r member same w at_) (fun _ => inv.fills r member w at_)
  · intro r member w at_ n began
    obtain ⟨m,later,here⟩ := inv.held r member w at_ n began
    refine ⟨m,later,?_⟩
    by_cases same : r.key = k
    · simp only [same,Function.update_self] at here ⊢
      exact kept _ m w here
    · simp only [Function.update_of_ne same]
      exact here

theorem currentAcknowledge {c : Cache κ ν} {k : κ} {n : Nat} (inv : Current c) (inside : n < (c.writes k).length) :
    Current {c with acknowledged := Function.update c.acknowledged k (latest (c.acknowledged k) n)} := by
  refine ⟨inv.rows,inv.entries,inv.fills,fun k' m latest_ => ?_,inv.since,inv.held⟩
  by_cases same : k' = k
  · subst same
    simp only [Function.update_self,latest,Option.some.injEq] at latest_
    cases old : c.acknowledged k' with
    | none => simp only [old,Option.getD_none] at latest_; dsimp only; omega
    | some before =>
      have bound := inv.acknowledged k' before old
      simp only [old,Option.getD_some] at latest_
      dsimp only
      omega
  · simp only [Function.update_of_ne same] at latest_
    exact inv.acknowledged k' m latest_

omit [DecidableEq κ] in
theorem currentBegin {c : Cache κ ν} (inv : Current c) (k : κ) :
    Current {c with readers := c.readers ++ [⟨k,c.acknowledged k,.asks⟩]} := by
  have origin : ∀ q ∈ c.readers ++ [⟨k,c.acknowledged k,.asks⟩], q ∈ c.readers ∨ q = ⟨k,c.acknowledged k,.asks⟩ :=
    fun q member => by simpa using member
  refine ⟨inv.rows,inv.entries,?_,inv.acknowledged,?_,?_⟩
  · intro q member v at_
    rcases origin q member with old | rfl
    · exact inv.fills q old v at_
    · cases at_
  · intro q member n began
    rcases origin q member with old | rfl
    · exact inv.since q old n began
    · exact inv.acknowledged k n began
  · intro q member v at_
    rcases origin q member with old | rfl
    · exact inv.held q old v at_
    · cases at_

theorem currentStep {c d : Cache κ ν} {a : Act κ ν} (inv : Current c) (safe : Unrivalled c a)
    (moved : step c a = some d) : Current d := by
  cases a with
  | write k v => cases moved; exact currentWrite inv safe
  | acknowledge k n =>
    simp only [step] at moved
    split at moved <;> cases moved
    next inside => exact currentAcknowledge inv inside
  | begin_ k => cases moved; exact currentBegin inv k
  | read j =>
    simp only [step,bind,Option.bind_eq_some_iff] at moved
    obtain ⟨r,found,moved⟩ := moved
    cases at_ : r.stage with
    | asks =>
      simp only [at_] at moved
      cases entered : c.entry r.key with
      | some v =>
        simp only [entered] at moved
        cases moved
        exact currentMoves inv found inv.entries (fun w same => by
          rcases same with none_ | same
          · cases none_
          · cases same; exact inv.entries r.key v entered)
      | none =>
        simp only [entered] at moved
        cases moved
        exact currentMoves inv found inv.entries (fun w same => by rcases same with none_ | none_ <;> cases none_)
    | reads =>
      simp only [at_] at moved
      cases row : c.row r.key with
      | none => simp only [row] at moved; cases moved
      | some v =>
        simp only [row] at moved
        cases moved
        exact currentMoves inv found inv.entries (fun w same => by
          rcases same with same | none_
          · cases same; exact inv.rows r.key v row
          · cases none_)
    | fills v =>
      simp only [at_] at moved
      cases moved
      have last := inv.fills r (List.mem_of_getElem? found) v at_
      refine currentMoves inv found (fun k w entered => ?_) (fun w same => ?_)
      · by_cases same : k = r.key
        · subst same
          rw [Function.update_self] at entered
          exact Option.some.inj entered ▸ last
        · rw [Function.update_of_ne same] at entered
          exact inv.entries k w entered
      · rcases same with none_ | same
        · cases none_
        · cases same; exact last
    | holds v => simp only [at_] at moved; cases moved
    | gone => simp only [at_] at moved; cases moved
  | leave j =>
    simp only [step,bind,Option.bind_eq_some_iff] at moved
    obtain ⟨r,found,moved⟩ := moved
    cases moved
    exact currentMoves inv found inv.entries (fun w same => by rcases same with none_ | none_ <;> cases none_)

end WppGateway.ReadThrough
