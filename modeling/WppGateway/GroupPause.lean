import WppGateway.HeldRows

/-! What a paused group does to the recipients of a running broadcast. The answer of
SelectInstance is an error like any other to the worker. -/
namespace WppGateway.GroupPause
open Runs Domain Gateway Transitions HeldRows Selection

def asking : Pc → Bool
  | .selecting .pauseCheck _ _ => true
  | _ => false

def turnedAway : Pc → Bool
  | .noInstance .paused _ _ => true
  | _ => false

def AsksOpen (g : System) (e : Event) : Prop :=
  ∀ m ∈ mover g e, asking m.1.pc = true → g.paused m.1.broadcast.groupId = true → m.1.done = true

instance (g : System) (e : Event) : Decidable (AsksOpen g e) :=
  inferInstanceAs (Decidable (∀ m ∈ mover g e, asking m.1.pc = true →
    g.paused m.1.broadcast.groupId = true → m.1.done = true))

def PauseKeeps (g : System) (e : Event) (t : System) : Prop :=
  ∀ m ∈ mover g e, turnedAway m.1.pc = true → t.store.recipients = g.store.recipients

def TurnedAwayDone (g : System) : Prop := ∀ w ∈ g.workers, turnedAway w.pc = true → w.done = true

theorem selectPaused {g groupId alive o sel} (selected : selectStep g groupId alive o sel = some (.failed .paused)) :
    sel = .pauseCheck ∧ g.paused groupId = true := by
  cases selectStepSource selected with
  | paused paused => exact ⟨rfl,paused⟩
  | unknown group e answered found unknown =>
    cases strategy : group.strategy <;> simp only [strategy,newStrategy] at unknown <;> cases unknown
  | exhausted s e answered listing some_ failed =>
    rcases strategyErrors failed with none_ | none_ | ⟨_,none_⟩ <;> cases none_

theorem turnedAwayStep {g j o w next effect} (inner : WorkerStep g j o w next effect)
    (away : turnedAway next.pc = true) : asking w.pc = true ∧ g.paused w.broadcast.groupId = true := by
  cases inner with
  | selectFailed sel e r rest at_ selected =>
    cases e with
    | paused =>
      obtain ⟨rfl,paused⟩ := selectPaused selected
      exact ⟨by rw [at_]; rfl,paused⟩
    | _ => cases away
  | markUnsent r rest at_ | loseUnsent r rest at_ | markSent inst r rest at_ | loseSent inst r rest at_ =>
    simp only [afterSend] at away
    split at away <;> cases away
  | _ => cases away

theorem turnedAwayKept (g : System) (e : Event) (t : System) (inv : TurnedAwayDone g) (asks : AsksOpen g e)
    (moved : step g e = some t) : TurnedAwayDone t := by
  intro w after away
  obtain ⟨k,found⟩ := List.mem_iff_getElem?.mp after
  rcases workerOrigin (movedSource moved) found with ⟨b,_,rfl,_⟩ | ⟨v,before,rfl | rfl⟩ | ⟨o,v,effect,rfl,before,inner⟩
  · cases away
  · exact inv _ (List.mem_of_getElem? before) away
  · rfl
  · obtain ⟨asked,paused⟩ := turnedAwayStep inner away
    rw [(workerKeeps inner).2]
    exact asks (v,o) (moverFound before o) asked paused

theorem pauseKeeps (g : System) (e : Event) (t : System) (inv : TurnedAwayDone g)
    (moved : step g e = some t) : PauseKeeps g e t := by
  intro m moves away
  rcases workerOrOutside (movedSource moved) with outside | ⟨j,o,w,next,effect,rfl,before,inner,rfl⟩
  · exact outside.recipients
  · rw [moverFound before o] at moves
    cases moves
    have done := inv w (List.mem_of_getElem? before) away
    apply recipientsPerform
    intro row
    obtain ⟨_,_,_,open_,_⟩ := touches inner row
    rw [done] at open_; cases open_

/-- In a run whose workers never ask a paused group the pause costs no recipient. -/
theorem pauseRun {g : System} {events : List Event} (fresh : Fresh g) (asks : Guarded step AsksOpen g events) :
    EveryStep step PauseKeeps g events :=
  guardedSteps turnedAwayKept (fun g e t inv _ moved => pauseKeeps g e t inv moved)
    (by intro w member; simp [fresh.workers] at member) asks

def pauseBetween : List Event :=
  .startBroadcast (sampleBroadcast 2)::works 0 11 accepts ++ .pauseGroup 1::.resumeGroup 1::works 0 2 accepts ++
    .pauseGroup 1::works 0 3 accepts

theorem pauseBetweenKeeps : EveryStep step PauseKeeps (boot (sampleTables [31,32])) pauseBetween :=
  pauseRun (freshBoot _) (guardedChecks (by decide +kernel))

def pauseBefore : List Event := .startBroadcast (sampleBroadcast 1)::works 0 4 accepts ++ .pauseGroup 1::works 0 1 accepts

theorem pauseFailsRecipient :
    Fresh (boot (sampleTables [31])) ∧
    (run step (boot (sampleTables [31])) (pauseBefore ++ works 0 1 accepts)).map (fun t =>
      t.store.recipients.map (fun r => (r.id,r.status,r.errorCode))) =
      some [(31,.failed,some "no_instance")] ∧
    ¬ EveryStep step PauseKeeps (boot (sampleTables [31])) (pauseBefore ++ works 0 1 accepts) := by
  have ends : (run step (boot (sampleTables [31])) (pauseBefore ++ works 0 1 accepts)).map (fun t =>
      t.store.recipients.map (fun r => (r.id,r.status,r.errorCode))) =
      some [(31,.failed,some "no_instance")] := by decide +kernel
  have before : (run step (boot (sampleTables [31])) pauseBefore).map (fun m =>
      ((mover m (.worker 0 accepts)).map (fun p => turnedAway p.1.pc),
        m.store.recipients.map (fun r => (r.id,r.status,r.errorCode)))) =
      some (some true,[(31,.pending,none)]) := by decide +kernel
  refine ⟨freshBoot _,ends,fun every => ?_⟩
  obtain ⟨t,ran,after⟩ := Option.map_eq_some_iff.mp ends
  obtain ⟨m,reached,keeps⟩ := everyStepLast every ran
  rw [reached,Option.map_some,Option.some.injEq,Prod.mk.injEq] at before
  obtain ⟨p,moves,away⟩ := Option.map_eq_some_iff.mp before.1
  rw [keeps p moves away,before.2] at after
  cases after

end WppGateway.GroupPause
