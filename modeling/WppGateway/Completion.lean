import WppGateway.HeldRows

/-! What is left of a broadcast when its completion is written. The worker leaves its
loop for the final writes from an empty page and from a failed read alike. -/
namespace WppGateway.Completion
open Runs Domain Store Table Gateway Transitions HeldRows

def finishing : Pc → Bool
  | .updateProgress | .markCompleted => true
  | _ => false

/- A read of the pending rows fails under an open context only when there are none. -/
def ReadsPending (g : System) (e : Event) : Prop :=
  ∀ m ∈ mover g e, m.1.pc = .fetch → m.1.done = false → m.2.ok = false →
    pendingOf g.store m.1.broadcast.id = []

instance (g : System) (e : Event) : Decidable (ReadsPending g e) :=
  inferInstanceAs (Decidable (∀ m ∈ mover g e, m.1.pc = .fetch → m.1.done = false → m.2.ok = false →
    pendingOf g.store m.1.broadcast.id = []))

def CompletionSound (g : System) (e : Event) (_ : System) : Prop :=
  ∀ m ∈ mover g e, m.1.pc = .markCompleted → live m.2 m.1 = true → pendingOf g.store m.1.broadcast.id = []

def Exhausted (g : System) : Prop :=
  ∀ w ∈ g.workers, finishing w.pc = true → w.done = false → pendingOf g.store w.broadcast.id = []

theorem pendingNil {s : Tables} {id : UUID} :
    pendingOf s id = [] ↔ ∀ r ∈ s.recipients, r.broadcastId = id → r.status ≠ .pending := by
  rw [List.eq_nil_iff_forall_not_mem]
  constructor
  · intro none_ r member here pending
    exact none_ r (memPending.mpr ⟨member,here,pending⟩)
  · intro settled r member
    obtain ⟨inside,here,pending⟩ := memPending.mp member
    exact settled r inside here pending

theorem pendingKept {g e t} (moved : Moved g e t) {id : UUID} (none_ : pendingOf g.store id = []) :
    pendingOf t.store id = [] := by
  rw [pendingNil] at none_ ⊢
  rcases workerOrOutside moved with outside | ⟨j,o,w,next,effect,rfl,_,inner,rfl⟩
  · rw [outside.recipients]; exact none_
  · by_cases row : area effect = .recipients
    · obtain ⟨r,f,_,_,_,settles,written⟩ := touches inner row
      rw [written]
      intro line member here
      obtain ⟨old,before,rfl⟩ := memUpdate.mp member
      by_cases same : old.id = r.id
      · rw [if_pos same]; exact settles.notPending old
      · rw [if_neg same] at here ⊢; exact none_ old before here
    · rw [recipientsPerform row]; exact none_

theorem finishingStep {g j o w next effect} (inner : WorkerStep g j o w next effect)
    (ends : finishing next.pc = true) (open_ : next.done = false) :
    finishing w.pc = true ∨ (w.pc = .fetch ∧
      (pendingOf g.store w.broadcast.id = [] ∨ (w.done = false ∧ o.ok = false))) := by
  cases inner with
  | unread at_ lost =>
    refine .inr ⟨at_,.inr ⟨open_,?_⟩⟩
    simpa [live,show w.done = false from open_] using lost
  | emptied at_ answered empty => exact .inr ⟨at_,.inl ((getPendingEmpty (by decide)).mp empty)⟩
  | totals at_ | losesTotals at_ => exact .inl (by rw [at_]; rfl)
  | markUnsent r rest at_ | loseUnsent r rest at_ | markSent inst r rest at_ | loseSent inst r rest at_ =>
    simp only [afterSend] at ends
    split at ends <;> cases ends
  | _ => cases ends

theorem exhaustedStep (g : System) (e : Event) (t : System) (inv : Exhausted g) (reads : ReadsPending g e)
    (moved : step g e = some t) : Exhausted t := by
  have source := movedSource moved
  intro w after ends open_
  obtain ⟨k,found⟩ := List.mem_iff_getElem?.mp after
  refine pendingKept source ?_
  rcases workerOrigin source found with ⟨b,_,rfl,_⟩ | ⟨v,before,rfl | rfl⟩ | ⟨o,v,effect,rfl,before,inner⟩
  · cases ends
  · exact inv _ (List.mem_of_getElem? before) ends open_
  · cases open_
  · obtain ⟨broadcast,done⟩ := workerKeeps inner
    rw [broadcast]
    rcases finishingStep inner ends open_ with earlier | ⟨at_,none_ | ⟨live_,failed⟩⟩
    · exact inv v (List.mem_of_getElem? before) earlier (by rw [← done]; exact open_)
    · exact none_
    · exact reads (v,o) (moverFound before o) at_ live_ failed

theorem completionSound (g : System) (e : Event) (t : System) (inv : Exhausted g) : CompletionSound g e t := by
  intro m moves at_ alive
  cases e with
  | worker j o =>
    obtain ⟨w,found,same⟩ := Option.map_eq_some_iff.mp moves
    cases same
    exact inv w (List.mem_of_getElem? found) (by rw [at_]; rfl) (liveIff.mp alive).2
  | _ => cases moves

/-- In a run without a failed read of pending rows every completion is sound. -/
theorem completionRun {g : System} {events : List Event} (fresh : Fresh g)
    (reads : Guarded step ReadsPending g events) : EveryStep step CompletionSound g events :=
  guardedSteps exhaustedStep (fun g e t inv _ _ => completionSound g e t inv)
    (by intro w member; simp [fresh.workers] at member) reads

def faultyRun : List Event :=
  .startBroadcast (sampleBroadcast 1)::works 0 9 accepts ++ works 0 2 refuses ++ works 0 14 accepts

theorem faultyRunSound : EveryStep step CompletionSound (boot (sampleTables [31])) faultyRun :=
  completionRun (freshBoot _) (guardedChecks (by decide +kernel))

def failedRead : List Event := .startBroadcast (sampleBroadcast 1)::works 0 2 accepts ++ works 0 1 refuses ++
  works 0 1 accepts

theorem failedReadCompletes :
    Fresh (boot (sampleTables [31])) ∧
    (run step (boot (sampleTables [31])) (failedRead ++ works 0 1 accepts)).map (fun t =>
      (t.store.broadcasts.map Broadcast.status,t.store.recipients.map BroadcastRecipient.status)) =
      some ([.completed],[.pending]) ∧
    ¬ EveryStep step CompletionSound (boot (sampleTables [31])) (failedRead ++ works 0 1 accepts) := by
  have ends : (run step (boot (sampleTables [31])) (failedRead ++ works 0 1 accepts)).map (fun t =>
      (t.store.broadcasts.map Broadcast.status,t.store.recipients.map BroadcastRecipient.status)) =
      some ([.completed],[.pending]) := by decide +kernel
  have before : (run step (boot (sampleTables [31])) failedRead).map (fun m =>
      (mover m (.worker 0 accepts)).map (fun p => (p.1.pc,live p.2 p.1,pendingOf m.store p.1.broadcast.id))) =
      some (some (.markCompleted,true,[sampleRecipient 31])) := by decide +kernel
  refine ⟨freshBoot _,ends,fun every => ?_⟩
  obtain ⟨t,ran,_⟩ := Option.map_eq_some_iff.mp ends
  obtain ⟨m,reached,sound⟩ := everyStepLast every ran
  rw [reached,Option.map_some,Option.some.injEq] at before
  obtain ⟨p,moves,values⟩ := Option.map_eq_some_iff.mp before
  simp only [Prod.mk.injEq] at values
  have none_ := sound p moves values.1 values.2.1
  rw [values.2.2] at none_; cases none_

end WppGateway.Completion
