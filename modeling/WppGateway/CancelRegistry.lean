import WppGateway.Runs
import Mathlib.Logic.Function.Basic

/-! A table that keeps, for each key, the handle of one cancellable task. Tasks
are started, cancelled and removed from the table by several parties; a task that
ends removes the entry of its key by itself. Keys are of any type. -/
namespace WppGateway.CancelRegistry
open Runs
variable {κ : Type} [DecidableEq κ]

structure Job (κ : Type) where
  key : κ
  cancelled : Bool
  returned : Bool
  deriving DecidableEq, Repr

structure Registry (κ : Type) where
  entry : κ → Option Nat
  jobs : List (Job κ)

inductive Act (κ : Type) where
  | register (k : κ)
  | cancel (handle : Nat)
  | drop (k : κ)
  | stop (k : κ)
  | finish (handle : Nat)
  deriving DecidableEq, Repr

def Job.cancel (t : Job κ) : Job κ := {t with cancelled := true}

def cancel (r : Registry κ) (handle : Nat) : Registry κ :=
  {r with jobs := r.jobs.modify handle Job.cancel}

def drop (r : Registry κ) (k : κ) : Registry κ :=
  {r with entry := Function.update r.entry k none}

/- A `stop` is the whole critical section: read, cancel and delete. `cancel` and
`drop` are the two halves of the same work done without the lock. -/
def step (r : Registry κ) : Act κ → Option (Registry κ)
  | .register k => some
      ⟨Function.update r.entry k (some r.jobs.length),r.jobs ++ [⟨k,false,false⟩]⟩
  | .cancel handle => some (cancel r handle)
  | .drop k => some (drop r k)
  | .stop k => match r.entry k with
    | some handle => some (drop (cancel r handle) k)
    | none => some r
  | .finish handle => do
    let t ← r.jobs[handle]?
    some (drop {r with jobs := r.jobs.set handle {t with returned := true}} t.key)

def Running (r : Registry κ) (k : κ) (handle : Nat) : Prop :=
  ∃ t, r.jobs[handle]? = some t ∧ t.key = k ∧ t.cancelled = false ∧ t.returned = false

def Stoppable (r : Registry κ) : Prop := ∀ k handle, Running r k handle → r.entry k = some handle

def Idle (r : Registry κ) (k : κ) : Prop := ∀ handle, ¬ Running r k handle

/- No other running task of the key is there to be forgotten. -/
def Safe (r : Registry κ) : Act κ → Prop
  | .register k => Idle r k
  | .cancel _ => True
  | .drop k => Idle r k
  | .stop _ => True
  | .finish handle => ∀ t, r.jobs[handle]? = some t → ∀ other ≠ handle, ¬ Running r t.key other

/-! The conditions are about finitely many handles, so they can be computed. -/

def runningAt (r : Registry κ) (k : κ) (handle : Nat) : Bool :=
  match r.jobs[handle]? with
  | some t => decide (t.key = k) && !t.cancelled && !t.returned
  | none => false

theorem runningAtIff {r : Registry κ} {k handle} : runningAt r k handle = true ↔ Running r k handle := by
  simp only [runningAt,Running]
  cases r.jobs[handle]? with
  | none => simp
  | some t => simp [and_assoc]

omit [DecidableEq κ] in
theorem runningInside {r : Registry κ} {k handle} (running : Running r k handle) : handle < r.jobs.length := by
  obtain ⟨t,found,_⟩ := running
  exact (List.getElem?_eq_some_iff.mp found).choose

theorem forallInside {r : Registry κ} {k : κ} {p : Nat → Prop} :
    (∀ handle < r.jobs.length, p handle → runningAt r k handle = false) ↔
      ∀ handle, p handle → ¬ Running r k handle := by
  constructor
  · intro all handle holds running
    have active := runningAtIff.mpr running
    rw [all handle (runningInside running) holds] at active; cases active
  · intro all handle _ holds
    cases active : runningAt r k handle with
    | false => rfl
    | true => exact absurd (runningAtIff.mp active) (all handle holds)

instance (r : Registry κ) (k : κ) : Decidable (Idle r k) :=
  decidable_of_iff (∀ handle < r.jobs.length, True → runningAt r k handle = false)
    (forallInside.trans ⟨fun all handle => all handle trivial,fun idle handle _ => idle handle⟩)

instance (r : Registry κ) (handle : Nat) : Decidable (Safe r (.finish handle)) :=
  decidable_of_iff (∀ t ∈ r.jobs[handle]?, ∀ other < r.jobs.length, other ≠ handle → runningAt r t.key other = false)
    ⟨fun all t found => forallInside.mp (all t found),fun all t found => forallInside.mpr (all t found)⟩

instance (r : Registry κ) : (a : Act κ) → Decidable (Safe r a)
  | .register k => inferInstanceAs (Decidable (Idle r k))
  | .cancel _ => .isTrue trivial
  | .drop k => inferInstanceAs (Decidable (Idle r k))
  | .stop _ => .isTrue trivial
  | .finish handle => inferInstanceAs (Decidable (Safe r (.finish handle)))

omit [DecidableEq κ] in
theorem onlyOne {r : Registry κ} (stoppable : Stoppable r) {k a b}
    (left : Running r k a) (right : Running r k b) : a = b :=
  Option.some.inj ((stoppable k a left).symm.trans (stoppable k b right))

omit [DecidableEq κ] in
theorem runningCancel {r : Registry κ} {handle k g} :
    Running (cancel r handle) k g ↔ Running r k g ∧ g ≠ handle := by
  constructor
  · intro running
    obtain ⟨t,found,key,live,open_⟩ := running
    simp only [cancel,List.getElem?_modify] at found
    by_cases same : handle = g
    · obtain ⟨u,_,rfl⟩ := Option.map_eq_some_iff.mp found
      simp [same,Job.cancel] at live
    · exact ⟨⟨t,by simpa [same] using found,key,live,open_⟩,fun eq => same eq.symm⟩
  · intro running
    obtain ⟨⟨t,found,key,live,open_⟩,different⟩ := running
    refine ⟨t,?_,key,live,open_⟩
    simp [cancel,found,different.symm]

theorem runningDrop {r : Registry κ} {k l handle} : Running (drop r l) k handle ↔ Running r k handle :=
  Iff.rfl

theorem entryDrop {r : Registry κ} {k l : κ} :
    (drop r l).entry k = if k = l then none else r.entry k := by
  simp only [drop,Function.update_apply]

theorem stoppableDrop {r : Registry κ} (stoppable : Stoppable r) (k : κ) :
    Stoppable (drop r k) ↔ Idle r k := by
  constructor
  · intro good handle running
    simpa [entryDrop] using good k handle running
  · intro idle l handle running
    have different : l ≠ k := fun same => idle handle (same ▸ running)
    rw [entryDrop,if_neg different]
    exact stoppable l handle running

omit [DecidableEq κ] in
theorem stoppableCancel {r : Registry κ} (stoppable : Stoppable r) (handle : Nat) :
    Stoppable (cancel r handle) :=
  fun k g running => stoppable k g (runningCancel.mp running).1

theorem stopIdle {r s : Registry κ} {k} (stoppable : Stoppable r) (stopped : step r (.stop k) = some s) :
    Idle s k := by
  intro g running
  simp only [step] at stopped
  cases entry : r.entry k with
  | none =>
    simp only [entry,Option.some.injEq] at stopped
    subst s
    simp [stoppable k g running] at entry
  | some handle =>
    simp only [entry,Option.some.injEq] at stopped
    subst s
    obtain ⟨before,different⟩ := runningCancel.mp (runningDrop.mp running)
    exact different (Option.some.inj ((stoppable k g before).symm.trans entry))

theorem runningRegister {r : Registry κ} {k l : κ} {handle : Nat} :
    Running ⟨Function.update r.entry k (some r.jobs.length),r.jobs ++ [⟨k,false,false⟩]⟩ l handle ↔
      Running r l handle ∨ (l = k ∧ handle = r.jobs.length) := by
  constructor
  · intro running
    obtain ⟨t,found,key,live,open_⟩ := running
    rcases Nat.lt_or_ge handle r.jobs.length with inside | beyond
    · rw [List.getElem?_append_left inside] at found
      exact .inl ⟨t,found,key,live,open_⟩
    · rw [List.getElem?_append_right beyond,List.getElem?_singleton] at found
      split at found <;> try contradiction
      rename_i zero
      cases Option.some.inj found
      exact .inr ⟨key.symm,by omega⟩
  · intro either
    rcases either with ⟨t,found,rest⟩ | ⟨rfl,rfl⟩
    · have inside := (List.getElem?_eq_some_iff.mp found).choose
      exact ⟨t,by rw [List.getElem?_append_left inside]; exact found,rest⟩
    · exact ⟨⟨l,false,false⟩,by simp,rfl,rfl,rfl⟩

omit [DecidableEq κ] in
theorem runningReturned {r : Registry κ} {handle : Nat} {t : Job κ} {k g}
    (found : r.jobs[handle]? = some t) :
    Running {r with jobs := r.jobs.set handle {t with returned := true}} k g ↔
      Running r k g ∧ g ≠ handle := by
  have inside := (List.getElem?_eq_some_iff.mp found).choose
  constructor
  · intro running
    obtain ⟨u,at_,key,live,open_⟩ := running
    by_cases same : handle = g
    · subst g
      simp only [List.getElem?_set_self inside,Option.some.injEq] at at_
      subst u
      simp at open_
    · simp only [List.getElem?_set_ne same] at at_
      exact ⟨⟨u,at_,key,live,open_⟩,fun eq => same eq.symm⟩
  · intro running
    obtain ⟨⟨u,at_,rest⟩,different⟩ := running
    exact ⟨u,by simpa only [List.getElem?_set_ne different.symm] using at_,rest⟩

theorem stoppableStep {r s : Registry κ} {a} (stoppable : Stoppable r) (moved : step r a = some s) :
    Stoppable s ↔ Safe r a := by
  cases a with
  | register k =>
    cases Option.some.inj moved
    constructor
    · intro good handle running
      -- the new handle has taken the entry of the one that still runs
      have old := good k handle (runningRegister.mpr (.inl running))
      have inside := runningInside running
      simp only [Function.update_self,Option.some.injEq] at old
      omega
    · intro idle l handle running
      rcases runningRegister.mp running with old | ⟨rfl,rfl⟩
      · have different : l ≠ k := fun same => idle handle (same ▸ old)
        simpa only [Function.update_of_ne different] using stoppable l handle old
      · simp only [Function.update_self]
  | cancel handle =>
    cases Option.some.inj moved
    exact ⟨fun _ => trivial,fun _ => stoppableCancel stoppable handle⟩
  | drop k =>
    cases Option.some.inj moved
    exact stoppableDrop stoppable k
  | stop k =>
    refine ⟨fun _ => trivial,fun _ => ?_⟩
    have idle := stopIdle stoppable moved
    simp only [step] at moved
    cases entry : r.entry k with
    | none =>
      simp only [entry,Option.some.injEq] at moved
      subst s
      exact stoppable
    | some handle =>
      simp only [entry,Option.some.injEq] at moved
      subst s
      exact (stoppableDrop (stoppableCancel stoppable handle) k).mpr idle
  | finish handle =>
    simp only [step,bind,Option.bind_eq_some_iff] at moved
    obtain ⟨t,found,moved⟩ := moved
    cases Option.some.inj moved
    have rest : Stoppable {r with jobs := r.jobs.set handle {t with returned := true}} :=
      fun k g running => stoppable k g ((runningReturned found).mp running).1
    rw [stoppableDrop rest]
    constructor
    · intro idle u same other different running
      cases Option.some.inj (found.symm.trans same)
      exact idle other ((runningReturned found).mpr ⟨running,different⟩)
    · intro safe other running
      obtain ⟨before,different⟩ := (runningReturned found).mp running
      exact safe t found other different before

end WppGateway.CancelRegistry
