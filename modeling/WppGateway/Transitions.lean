import WppGateway.Gateway

/-! What a step can do, said once: the moves of a worker, the moves of the system,
and what each leaves alone. -/
namespace WppGateway.Transitions
open Domain Store Selection MessageText Gateway

def live (o : Oracle) (w : Worker) : Bool := o.ok && !w.done

theorem liveIff {o : Oracle} {w : Worker} : live o w = true ↔ o.ok = true ∧ w.done = false := by
  simp [live]

inductive SelectStep (g : System) (groupId : UUID) (alive : Bool) (o : Oracle) : Selecting → Selected → Prop where
  | paused (paused : g.paused groupId = true) : SelectStep g groupId alive o .pauseCheck (.failed .paused)
  | running (running : g.paused groupId = false) : SelectStep g groupId alive o .pauseCheck (.next .lookup)
  | known (s) (cached : g.strategies groupId = some s) : SelectStep g groupId alive o .lookup (.next (.listing s))
  | misses (uncached : g.strategies groupId = none) : SelectStep g groupId alive o .lookup (.next .group)
  | unread (lost : alive = false) : SelectStep g groupId alive o .group (.failed (.findGroup o.err))
  | absent (answered : alive = true) (missing : findGroup g.store groupId = none) :
      SelectStep g groupId alive o .group (.failed .groupNotFound)
  | unknown (group e) (answered : alive = true) (found : findGroup g.store groupId = some group)
      (unknown : newStrategy group.strategy = .error e) : SelectStep g groupId alive o .group (.failed e)
  | made (group s) (answered : alive = true) (found : findGroup g.store groupId = some group)
      (made : newStrategy group.strategy = .ok s) : SelectStep g groupId alive o .group (.next (.cache s))
  | caches (s) : SelectStep g groupId alive o (.cache s) (.cached s)
  | unlisted (s) (lost : alive = false) : SelectStep g groupId alive o (.listing s) (.failed (.findAvailable o.err))
  | nobody (s) (answered : alive = true) (listing : Listing g.store groupId o.listing)
      (empty : o.listing.filter (fun i => o.connected i.id) = []) :
      SelectStep g groupId alive o (.listing s) (.failed .noConnected)
  | exhausted (s e) (answered : alive = true) (listing : Listing g.store groupId o.listing)
      (some_ : o.listing.filter (fun i => o.connected i.id) ≠ [])
      (failed : strategySelect s (o.listing.filter (fun i => o.connected i.id)) = .error e) :
      SelectStep g groupId alive o (.listing s) (.failed e)
  | chosen (s inst) (answered : alive = true) (listing : Listing g.store groupId o.listing)
      (some_ : o.listing.filter (fun i => o.connected i.id) ≠ [])
      (chosen : strategySelect s (o.listing.filter (fun i => o.connected i.id)) = .ok inst) :
      SelectStep g groupId alive o (.listing s) (.chose inst)

theorem selectStepSource {g groupId alive o sel result} (moved : selectStep g groupId alive o sel = some result) :
    SelectStep g groupId alive o sel result := by
  cases sel with
  | pauseCheck =>
    simp only [selectStep,Option.some.injEq] at moved
    split at moved <;> cases moved
    · next paused => exact .paused paused
    · next running => exact .running (by simpa using running)
  | lookup =>
    simp only [selectStep] at moved
    split at moved <;> cases moved
    · next s cached => exact .known s cached
    · next uncached => exact .misses uncached
  | group =>
    simp only [selectStep] at moved
    split at moved
    · next lost => cases moved; exact .unread lost
    next answered =>
    have answered : alive = true := by simpa using answered
    split at moved
    · next missing => cases moved; exact .absent answered missing
    next group found =>
    split at moved <;> cases moved
    · next e unknown => exact .unknown group e answered found unknown
    · next s made => exact .made group s answered found made
  | cache s => cases moved; exact .caches s
  | listing s =>
    simp only [selectStep] at moved
    split at moved
    · next lost => cases moved; exact .unlisted s lost
    next answered =>
    have answered : alive = true := by simpa using answered
    split at moved <;> try contradiction
    next listing =>
    split at moved
    · next empty => cases moved; exact .nobody s answered listing empty
    next some_ =>
    split at moved <;> cases moved
    · next e failed => exact .exhausted s e answered listing some_ failed
    · next inst chosen => exact .chosen s inst answered listing some_ chosen

inductive WorkerStep (g : System) (j : Nat) (o : Oracle) (w : Worker) : Worker → Effect → Prop where
  | started (at_ : w.pc = .markStarted) (answered : live o w = true) :
      WorkerStep g j o w {w with pc := .loop} (.markStarted w.broadcast.id)
  | notStarted (at_ : w.pc = .markStarted) (lost : live o w = false) :
      WorkerStep g j o w {w with pc := .exiting} .none
  | stopped (at_ : w.pc = .loop) (done : w.done = true) :
      WorkerStep g j o w {w with pc := .exiting} .none
  | goesOn (at_ : w.pc = .loop) (open_ : w.done = false) :
      WorkerStep g j o w {w with pc := .fetch} .none
  | unread (at_ : w.pc = .fetch) (lost : live o w = false) :
      WorkerStep g j o w {w with pc := .updateProgress} .none
  | emptied (at_ : w.pc = .fetch) (answered : live o w = true)
      (empty : getPendingRecipients g.store w.broadcast.id chunkSize = []) :
      WorkerStep g j o w {w with pc := .updateProgress} .none
  | page (recipients : List BroadcastRecipient) (at_ : w.pc = .fetch) (answered : live o w = true)
      (order : recipients.Perm (getPendingRecipients g.store w.broadcast.id chunkSize))
      (plain : (broadcastOptions w.broadcast).shuffleRecipients = false →
        recipients = getPendingRecipients g.store w.broadcast.id chunkSize)
      (some_ : recipients ≠ []) :
      WorkerStep g j o w {w with pc := .chunk recipients} .none
  | chunkEnd (at_ : w.pc = .chunk []) : WorkerStep g j o w {w with pc := .loop} .none
  | chunkStopped (r rest) (at_ : w.pc = .chunk (r::rest)) (done : w.done = true) :
      WorkerStep g j o w {w with pc := .exiting} .none
  | reaches (r rest) (at_ : w.pc = .chunk (r::rest)) (open_ : w.done = false) :
      WorkerStep g j o w {w with pc := .selecting .pauseCheck r rest} .none
  | selectNext (sel next r rest) (at_ : w.pc = .selecting sel r rest)
      (selected : selectStep g w.broadcast.groupId (live o w) o sel = some (.next next)) :
      WorkerStep g j o w {w with pc := .selecting next r rest} .none
  | selectCached (sel s r rest) (at_ : w.pc = .selecting sel r rest)
      (selected : selectStep g w.broadcast.groupId (live o w) o sel = some (.cached s)) :
      WorkerStep g j o w {w with pc := .selecting (.listing s) r rest} (.cacheStrategy w.broadcast.groupId s)
  | selectFailed (sel e r rest) (at_ : w.pc = .selecting sel r rest)
      (selected : selectStep g w.broadcast.groupId (live o w) o sel = some (.failed e)) :
      WorkerStep g j o w {w with pc := .noInstance e r rest} .none
  | selectChose (sel inst r rest) (at_ : w.pc = .selecting sel r rest)
      (selected : selectStep g w.broadcast.groupId (live o w) o sel = some (.chose inst))
      (order : o.vars.Perm (recipientVars w.broadcast r.recipient)) :
      WorkerStep g j o w
        {w with pc := .sending inst (messageText w.broadcast o.vars o.choices) r rest} .none
  | markUnselected (e r rest) (at_ : w.pc = .noInstance e r rest) (answered : live o w = true) :
      WorkerStep g j o w {w with failed := w.failed + 1, pc := .chunk rest} (.recipientFailed r.id "no_instance")
  | loseUnselected (e r rest) (at_ : w.pc = .noInstance e r rest) (lost : live o w = false) :
      WorkerStep g j o w {w with failed := w.failed + 1, pc := .chunk rest} .none
  | delivers (inst text r rest) (at_ : w.pc = .sending inst text r rest) (accepted : o.ok = true) :
      WorkerStep g j o w {w with pc := .sendOk inst r rest}
        (.send ⟨.worker j r.id,inst.id,r.recipient,text,true⟩)
  | refused (inst text r rest) (at_ : w.pc = .sending inst text r rest) (failed : o.ok = false) :
      WorkerStep g j o w {w with pc := .sendFailed r rest}
        (.send ⟨.worker j r.id,inst.id,r.recipient,text,false⟩)
  | markUnsent (r rest) (at_ : w.pc = .sendFailed r rest) (answered : live o w = true) :
      WorkerStep g j o w {w with failed := w.failed + 1, pc := afterSend w.sent (w.failed + 1) rest}
        (.recipientFailed r.id "send_failed")
  | loseUnsent (r rest) (at_ : w.pc = .sendFailed r rest) (lost : live o w = false) :
      WorkerStep g j o w {w with failed := w.failed + 1, pc := afterSend w.sent (w.failed + 1) rest} .none
  | markSent (inst r rest) (at_ : w.pc = .sendOk inst r rest) (answered : live o w = true) :
      WorkerStep g j o w {w with sent := w.sent + 1, pc := afterSend (w.sent + 1) w.failed rest}
        (.recipientSent r.id inst.id)
  | loseSent (inst r rest) (at_ : w.pc = .sendOk inst r rest) (lost : live o w = false) :
      WorkerStep g j o w {w with sent := w.sent + 1, pc := afterSend (w.sent + 1) w.failed rest} .none
  | reports (rest) (at_ : w.pc = .progress rest) (answered : live o w = true) :
      WorkerStep g j o w {w with pc := .chunk rest} (.updateProgress w.broadcast.id w.sent w.failed)
  | losesReport (rest) (at_ : w.pc = .progress rest) (lost : live o w = false) :
      WorkerStep g j o w {w with pc := .chunk rest} .none
  | totals (at_ : w.pc = .updateProgress) (answered : live o w = true) :
      WorkerStep g j o w {w with pc := .markCompleted} (.updateProgress w.broadcast.id w.sent w.failed)
  | losesTotals (at_ : w.pc = .updateProgress) (lost : live o w = false) :
      WorkerStep g j o w {w with pc := .markCompleted} .none
  | completes (at_ : w.pc = .markCompleted) (answered : live o w = true) :
      WorkerStep g j o w {w with pc := .exiting} (.markCompleted w.broadcast.id)
  | losesCompletion (at_ : w.pc = .markCompleted) (lost : live o w = false) :
      WorkerStep g j o w {w with pc := .exiting} .none
  | returns (at_ : w.pc = .exiting) :
      WorkerStep g j o w {w with pc := .returned} (.dropJob w.broadcast.id)

theorem workerStepSource {g j o w next effect} (moved : workerStep g j o w = some (next,effect)) :
    WorkerStep g j o w next effect := by
  have folded : (o.ok && !w.done) = live o w := rfl
  cases at_ : w.pc with
  | markStarted =>
    simp only [workerStep,at_,folded] at moved
    split at moved <;> cases moved
    · exact .started at_ (by assumption)
    · exact .notStarted at_ (by simp_all)
  | loop =>
    simp only [workerStep,at_] at moved
    cases moved
    cases done : w.done with
    | true => simpa [done] using WorkerStep.stopped (g := g) (j := j) (o := o) at_ done
    | false => simpa [done] using WorkerStep.goesOn (g := g) (j := j) (o := o) at_ done
  | fetch =>
    simp only [workerStep,at_,folded] at moved
    split at moved
    · cases moved
      exact .unread at_ (by assumption)
    · rename_i answered
      have answered : live o w = true := by simpa using answered
      split at moved
      · cases moved
        exact .emptied at_ answered (by assumption)
      · rename_i nonempty
        split at moved
        · split at moved <;> try contradiction
          rename_i shuffle order
          cases moved
          refine .page _ at_ answered order (fun plain => ?_) (fun empty => ?_)
          · rw [shuffle] at plain; cases plain
          · exact nonempty (List.nil_perm.mp (empty ▸ order))
        · cases moved
          exact .page _ at_ answered (List.Perm.refl _) (fun _ => rfl) nonempty
  | chunk rest =>
    cases rest with
    | nil =>
      simp only [workerStep,at_] at moved
      cases moved
      exact .chunkEnd at_
    | cons r rest =>
      simp only [workerStep,at_] at moved
      cases moved
      cases done : w.done with
      | true => simpa [done] using WorkerStep.chunkStopped (g := g) (j := j) (o := o) r rest at_ done
      | false => simpa [done] using WorkerStep.reaches (g := g) (j := j) (o := o) r rest at_ done
  | selecting sel r rest =>
    simp only [workerStep,at_,folded] at moved
    cases selected : selectStep g w.broadcast.groupId (live o w) o sel with
    | none => simp [selected] at moved
    | some result =>
      simp only [selected] at moved
      cases result with
      | next sel => cases moved; exact .selectNext _ _ r rest at_ selected
      | cached s => cases moved; exact .selectCached _ s r rest at_ selected
      | failed e => cases moved; exact .selectFailed _ e r rest at_ selected
      | chose inst =>
        dsimp only at moved
        split at moved <;> cases moved
        exact .selectChose _ inst r rest at_ selected (by assumption)
  | noInstance e r rest =>
    simp only [workerStep,at_,folded] at moved
    cases answered : live o w <;> simp only [answered] at moved <;> cases moved
    · exact .loseUnselected e r rest at_ answered
    · exact .markUnselected e r rest at_ answered
  | sending inst text r rest =>
    simp only [workerStep,at_] at moved
    cases ok : o.ok <;> simp only [ok] at moved <;> cases moved
    · exact .refused inst text r rest at_ ok
    · exact .delivers inst text r rest at_ ok
  | sendFailed r rest =>
    simp only [workerStep,at_,folded] at moved
    cases answered : live o w <;> simp only [answered] at moved <;> cases moved
    · exact .loseUnsent r rest at_ answered
    · exact .markUnsent r rest at_ answered
  | sendOk inst r rest =>
    simp only [workerStep,at_,folded] at moved
    cases answered : live o w <;> simp only [answered] at moved <;> cases moved
    · exact .loseSent inst r rest at_ answered
    · exact .markSent inst r rest at_ answered
  | progress rest =>
    simp only [workerStep,at_,folded] at moved
    cases answered : live o w <;> simp only [answered] at moved <;> cases moved
    · exact .losesReport rest at_ answered
    · exact .reports rest at_ answered
  | updateProgress =>
    simp only [workerStep,at_,folded] at moved
    cases answered : live o w <;> simp only [answered] at moved <;> cases moved
    · exact .losesTotals at_ answered
    · exact .totals at_ answered
  | markCompleted =>
    simp only [workerStep,at_,folded] at moved
    cases answered : live o w <;> simp only [answered] at moved <;> cases moved
    · exact .losesCompletion at_ answered
    · exact .completes at_ answered
  | exiting =>
    simp only [workerStep,at_] at moved
    cases moved
    exact .returns at_
  | returned => simp [workerStep,at_] at moved

def opened : Event → Option Call
  | .pauseBroadcast id => some (.pauseRead id)
  | .resumeBroadcast id => some (.resumeFind id)
  | .cancelBroadcast id => some (.cancelLock id)
  | _ => none

inductive Moved (g : System) : Event → System → Prop where
  | starts (b) : Moved g (.startBroadcast b) (startJob g b)
  | opens (e c) (call : opened e = some c) : Moved g e (openCall g c)
  | call (k ok c next effect) (found : g.calls[k]? = some c)
      (moved : callStep g ok c = some (next,effect)) : Moved g (.call k ok) (perform (setCall g k next) effect)
  | worker (j o w next effect) (found : g.workers[j]? = some w) (moved : WorkerStep g j o w next effect) :
      Moved g (.worker j o) (perform (setWorker g j next) effect)
  | send (r) : Moved g (.send r) {g with requests := g.requests ++ [.received r]}
  | request (k o r next effect) (found : g.requests[k]? = some r)
      (moved : requestStep g k o r = some (next,effect)) :
      Moved g (.request k o) (perform (setRequest g k next) effect)
  | pauses (id) : Moved g (.pauseGroup id) {g with paused := Function.update g.paused id true}
  | resumes (id) : Moved g (.resumeGroup id) {g with paused := Function.update g.paused id false}
  | status (id st) : Moved g (.instanceStatus id st) (write g (setInstanceStatus g.store id st))

theorem movedSource {g e t} (moved : step g e = some t) : Moved g e t := by
  cases e with
  | startBroadcast b => cases moved; exact .starts b
  | pauseBroadcast id => cases moved; exact .opens _ _ rfl
  | resumeBroadcast id => cases moved; exact .opens _ _ rfl
  | cancelBroadcast id => cases moved; exact .opens _ _ rfl
  | call k ok =>
    simp only [step,bind,Option.bind_eq_some_iff] at moved
    obtain ⟨c,found,⟨next,effect⟩,inner,moved⟩ := moved
    cases moved
    exact .call k ok c next effect found inner
  | worker j o =>
    simp only [step,bind,Option.bind_eq_some_iff] at moved
    obtain ⟨w,found,⟨next,effect⟩,inner,moved⟩ := moved
    cases moved
    exact .worker j o w next effect found (workerStepSource inner)
  | send r => cases moved; exact .send r
  | request k o =>
    simp only [step,bind,Option.bind_eq_some_iff] at moved
    obtain ⟨r,found,⟨next,effect⟩,inner,moved⟩ := moved
    cases moved
    exact .request k o r next effect found inner
  | pauseGroup id => cases moved; exact .pauses id
  | resumeGroup id => cases moved; exact .resumes id
  | instanceStatus id st => cases moved; exact .status id st

inductive Area where
  | nothing | broadcasts | recipients | messages | strategies | sends | jobs | workers
  deriving DecidableEq, Repr

def area : Effect → Area
  | .none => .nothing
  | .markStarted _ | .updateProgress _ _ _ | .markCompleted _ | .updateStatus _ _ => .broadcasts
  | .recipientSent _ _ | .recipientFailed _ _ => .recipients
  | .createMessage _ | .messageSent _ | .messageFailed _ _ => .messages
  | .cacheStrategy _ _ => .strategies
  | .send _ => .sends
  | .dropJob _ => .jobs
  | .startJob _ | .cancelJob _ | .stopJob _ => .workers

section Frame
variable {g : System} {effect : Effect}

theorem createMessageFrame (s : Tables) (m : MessageLog) :
    ((createMessage s m).getD s).recipients = s.recipients ∧
    ((createMessage s m).getD s).broadcasts = s.broadcasts ∧
    ((createMessage s m).getD s).instances = s.instances ∧ ((createMessage s m).getD s).groups = s.groups := by
  cases made : createMessage s m with
  | none => exact ⟨rfl,rfl,rfl,rfl⟩
  | some t =>
    simp only [createMessage,bind,Option.bind_eq_some_iff] at made
    obtain ⟨_,_,_,_,made⟩ := made
    cases made
    exact ⟨rfl,rfl,rfl,rfl⟩

theorem stopJobFrame (g : System) (id : UUID) :
    (stopJob g id).store = g.store ∧ (stopJob g id).sends = g.sends ∧ (stopJob g id).calls = g.calls ∧
    (stopJob g id).requests = g.requests ∧ (stopJob g id).paused = g.paused ∧
    (stopJob g id).strategies = g.strategies := by
  unfold stopJob
  split <;> exact ⟨rfl,rfl,rfl,rfl,rfl,rfl⟩

theorem recipientsPerform (other : area effect ≠ .recipients) :
    (perform g effect).store.recipients = g.store.recipients := by
  cases effect with
  | recipientSent | recipientFailed => exact absurd rfl other
  | createMessage m => exact (createMessageFrame g.store m).1
  | stopJob id => exact congrArg Tables.recipients (stopJobFrame g id).1
  | _ => rfl

theorem broadcastsPerform (other : area effect ≠ .broadcasts) :
    (perform g effect).store.broadcasts = g.store.broadcasts := by
  cases effect with
  | markStarted | updateProgress | markCompleted | updateStatus => exact absurd rfl other
  | createMessage m => exact (createMessageFrame g.store m).2.1
  | stopJob id => exact congrArg Tables.broadcasts (stopJobFrame g id).1
  | _ => rfl

theorem instancesPerform : (perform g effect).store.instances = g.store.instances := by
  cases effect with
  | createMessage m => exact (createMessageFrame g.store m).2.2.1
  | stopJob id => exact congrArg Tables.instances (stopJobFrame g id).1
  | _ => rfl

theorem groupsPerform : (perform g effect).store.groups = g.store.groups := by
  cases effect with
  | createMessage m => exact (createMessageFrame g.store m).2.2.2
  | stopJob id => exact congrArg Tables.groups (stopJobFrame g id).1
  | _ => rfl

theorem groupsMoved {e t} (moved : Moved g e t) : t.store.groups = g.store.groups := by
  cases moved with
  | call | worker | request => exact groupsPerform
  | _ => rfl

theorem sendsPerform (other : area effect ≠ .sends) : (perform g effect).sends = g.sends := by
  cases effect with
  | send => exact absurd rfl other
  | stopJob id => exact (stopJobFrame g id).2.1
  | _ => rfl

theorem strategiesPerform (other : area effect ≠ .strategies) :
    (perform g effect).strategies = g.strategies := by
  cases effect with
  | cacheStrategy => exact absurd rfl other
  | stopJob id => exact (stopJobFrame g id).2.2.2.2.2
  | _ => rfl

theorem workersPerform (other : area effect ≠ .workers) : (perform g effect).workers = g.workers := by
  cases effect with
  | startJob | cancelJob | stopJob => exact absurd rfl other
  | _ => rfl

theorem jobsPerform (other : area effect ≠ .jobs) (others : area effect ≠ .workers) :
    (perform g effect).activeJobs = g.activeJobs := by
  cases effect with
  | dropJob => exact absurd rfl other
  | startJob | cancelJob | stopJob => exact absurd rfl others
  | _ => rfl

theorem callsPerform : (perform g effect).calls = g.calls := by
  cases effect with
  | stopJob id => exact (stopJobFrame g id).2.2.1
  | _ => rfl

theorem requestsPerform : (perform g effect).requests = g.requests := by
  cases effect with
  | stopJob id => exact (stopJobFrame g id).2.2.2.1
  | _ => rfl

end Frame

def applied : Effect → Broadcast → Broadcast
  | .markStarted id,b => if b.id = id then {b with status := .processing} else b
  | .updateProgress id sent failed,b =>
    if b.id = id then {b with sent := sent, delivered := 0, failed := failed} else b
  | .markCompleted id,b => if b.id = id then {b with status := .completed} else b
  | .updateStatus id status,b => if b.id = id then {b with status := status} else b
  | _,b => b

theorem broadcastsApplied (g : System) (effect : Effect) :
    (perform g effect).store.broadcasts = g.store.broadcasts.map (applied effect) := by
  by_cases area_ : area effect = .broadcasts
  · cases effect <;> first | rfl | cases area_
  · rw [broadcastsPerform area_]
    conv_lhs => rw [← List.map_id g.store.broadcasts]
    apply List.map_congr_left
    intro b _
    cases effect <;> first | rfl | exact absurd rfl area_

theorem appliedKeeps (effect : Effect) (b : Broadcast) :
    (applied effect b).id = b.id ∧ (applied effect b).total = b.total := by
  cases effect <;> dsimp only [applied] <;> (try split) <;> exact ⟨rfl,rfl⟩

theorem workerArea {g j o w next effect} (moved : WorkerStep g j o w next effect) :
    area effect ≠ .workers ∧ area effect ≠ .messages := by
  cases moved <;> exact ⟨nofun,nofun⟩

theorem callArea {g ok c next effect} (moved : callStep g ok c = some (next,effect)) :
    area effect = .nothing ∨ area effect = .broadcasts ∨ area effect = .jobs ∨ area effect = .workers := by
  cases c with
  | pauseRead id => simp only [callStep] at moved; split at moved <;> cases moved <;> exact .inl rfl
  | pauseCancel id handle => cases moved; exact .inr (.inr (.inr rfl))
  | pauseDelete id => cases moved; exact .inr (.inr (.inl rfl))
  | pauseWrite id => cases moved; cases ok <;> simp [area]
  | resumeFind id =>
    simp only [callStep] at moved
    split at moved
    · cases moved; exact .inl rfl
    · split at moved <;> cases moved <;> exact .inl rfl
  | resumeWrite b => cases ok <;> cases moved <;> simp [area]
  | resumeStart b => cases moved; exact .inr (.inr (.inr rfl))
  | cancelLock id => cases moved; exact .inr (.inr (.inr rfl))
  | cancelWrite id => cases moved; cases ok <;> simp [area]
  | returned ok => cases moved

theorem requestArea {g k o r next effect} (moved : requestStep g k o r = some (next,effect)) :
    area effect = .nothing ∨ area effect = .strategies ∨ area effect = .messages ∨ area effect = .sends := by
  cases r with
  | received r => cases moved; exact .inl rfl
  | selecting sel groupId input =>
    simp only [requestStep] at moved
    split at moved <;> cases moved <;> simp [area]
  | logging inst groupId input =>
    simp only [requestStep] at moved
    split at moved <;> cases moved <;> simp [area]
  | sending inst log input text => cases moved; exact .inr (.inr (.inr rfl))
  | updateFailed log err =>
    simp only [requestStep] at moved
    cases moved
    split <;> simp [area]
  | updateSent inst log =>
    simp only [requestStep] at moved
    cases moved
    split <;> simp [area]
  | answered response => cases moved

def started (g : System) : Event → Option Broadcast
  | .startBroadcast b => some b
  | .call k _ => match g.calls[k]? with
    | some (.resumeStart b) => some b
    | _ => none
  | _ => none

def mover (g : System) : Event → Option (Worker × Oracle)
  | .worker j o => g.workers[j]?.map (fun w => (w,o))
  | _ => none

theorem moverFound {g : System} {j : Nat} {w : Worker} (found : g.workers[j]? = some w) (o : Oracle) :
    mover g (.worker j o) = some (w,o) := by
  rw [mover,found]; rfl

theorem callStarts {g ok c next b} (moved : callStep g ok c = some (next,.startJob b)) : c = .resumeStart b := by
  cases c with
  | pauseRead id => simp only [callStep] at moved; split at moved <;> cases moved
  | pauseWrite id => cases ok <;> cases moved
  | resumeFind id =>
    simp only [callStep] at moved
    split at moved
    · cases moved
    · split at moved <;> cases moved
  | resumeWrite b => cases ok <;> cases moved
  | cancelWrite id => cases ok <;> cases moved
  | _ => cases moved <;> rfl

theorem checkSendSource (g : System) (ok : Bool) (r : SendRequest) :
    (∃ response, checkSend g ok r = .answered response) ∨
    ∃ groupId input, checkSend g ok r = .selecting .pauseCheck groupId input := by
  unfold checkSend
  split
  · exact .inl ⟨_,rfl⟩
  split
  · exact .inl ⟨_,rfl⟩
  split
  · exact .inl ⟨_,rfl⟩
  split
  · split
    · exact .inl ⟨_,rfl⟩
    dsimp only
    split
    · exact .inl ⟨_,rfl⟩
    split
    · exact .inl ⟨_,rfl⟩
    split
    · exact .inl ⟨_,rfl⟩
    · exact .inr ⟨_,_,rfl⟩
  · exact .inl ⟨_,rfl⟩

theorem checkContentSource (inst : Instance) (log : UUID) (input : SendMessageInput) :
    (∃ response, checkContent inst log input = .answered response) ∨
    ∃ text, checkContent inst log input = .sending inst log input text := by
  unfold checkContent
  split
  · split
    · split
      · exact .inr ⟨_,rfl⟩
      · exact .inl ⟨_,rfl⟩
    · exact .inl ⟨_,rfl⟩
  · exact .inl ⟨_,rfl⟩

theorem requestSends {g k o r next call} (moved : requestStep g k o r = some (next,.send call)) :
    call.origin = .request k ∧ ∃ inst log input text, r = .sending inst log input text ∧
      call = ⟨.request k,inst.id,input.toNumber,text,o.ok⟩ := by
  cases r with
  | received r => cases moved
  | selecting sel groupId input => simp only [requestStep] at moved; split at moved <;> cases moved
  | logging inst groupId input => simp only [requestStep] at moved; split at moved <;> cases moved
  | sending inst log input text => cases moved; exact ⟨rfl,inst,log,input,text,rfl,rfl⟩
  | updateFailed log err => simp only [requestStep] at moved; cases ok : o.ok <;> simp [ok] at moved
  | updateSent inst log => simp only [requestStep] at moved; cases ok : o.ok <;> simp [ok] at moved
  | answered response => cases moved

structure Outside (g : System) (e : Event) (t : System) : Prop where
  recipients : t.store.recipients = g.store.recipients
  workers : t.workers = g.workers ∨ (∃ handle, t.workers = g.workers.modify handle Worker.cancel) ∨
    ∃ b, started g e = some b ∧ t.workers = g.workers ++ [newWorker b]
  sends : t.sends = g.sends ∨ ∃ k call, call.origin = .request k ∧ t.sends = g.sends ++ [call]
  event : ∀ j o, e ≠ .worker j o

theorem stopJobWorkers (g : System) (id : UUID) : (stopJob g id).workers = g.workers ∨
    ∃ handle, (stopJob g id).workers = g.workers.modify handle Worker.cancel := by
  unfold stopJob
  split
  · exact .inr ⟨_,rfl⟩
  · exact .inl rfl

theorem callOutside {g k ok c next effect} (found : g.calls[k]? = some c)
    (moved : callStep g ok c = some (next,effect)) :
    Outside g (.call k ok) (perform (setCall g k next) effect) := by
  have areas := callArea moved
  refine ⟨recipientsPerform (by rcases areas with a | a | a | a <;> rw [a] <;> decide),?_,
    .inl (sendsPerform (by rcases areas with a | a | a | a <;> rw [a] <;> decide)),nofun⟩
  by_cases jobs : area effect = .workers
  · cases effect with
    | startJob b =>
      cases callStarts moved
      exact .inr (.inr ⟨b,by simp only [started,found],rfl⟩)
    | cancelJob handle => exact .inr (.inl ⟨handle,rfl⟩)
    | stopJob id =>
      rcases stopJobWorkers (setCall g k next) id with same | cancelled
      · exact .inl same
      · exact .inr (.inl cancelled)
    | _ => cases jobs
  · exact .inl (workersPerform jobs)

theorem requestOutside {g k o r next effect} (moved : requestStep g k o r = some (next,effect)) :
    Outside g (.request k o) (perform (setRequest g k next) effect) := by
  have areas := requestArea moved
  refine ⟨recipientsPerform (by rcases areas with a | a | a | a <;> rw [a] <;> decide),
    .inl (workersPerform (by rcases areas with a | a | a | a <;> rw [a] <;> decide)),?_,nofun⟩
  by_cases sends : area effect = .sends
  · cases effect with
    | send call => exact .inr ⟨k,call,(requestSends moved).1,rfl⟩
    | _ => cases sends
  · exact .inl (sendsPerform sends)

theorem workerOrOutside {g e t} (moved : Moved g e t) :
    Outside g e t ∨ ∃ j o w next effect, e = .worker j o ∧ g.workers[j]? = some w ∧
      WorkerStep g j o w next effect ∧ t = perform (setWorker g j next) effect := by
  cases moved with
  | starts b => exact .inl ⟨rfl,.inr (.inr ⟨b,rfl,rfl⟩),.inl rfl,nofun⟩
  | opens e c call => exact .inl ⟨rfl,.inl rfl,.inl rfl,by rintro j o rfl; cases call⟩
  | call k ok c next effect found moved => exact .inl (callOutside found moved)
  | worker j o w next effect found moved => exact .inr ⟨j,o,w,next,effect,rfl,found,moved,rfl⟩
  | send r => exact .inl ⟨rfl,.inl rfl,.inl rfl,nofun⟩
  | request k o r next effect found moved => exact .inl (requestOutside moved)
  | pauses id => exact .inl ⟨rfl,.inl rfl,.inl rfl,nofun⟩
  | resumes id => exact .inl ⟨rfl,.inl rfl,.inl rfl,nofun⟩
  | status id st => exact .inl ⟨rfl,.inl rfl,.inl rfl,nofun⟩

theorem outsideWorker {g e t} {k : Nat} {w' : Worker} (outside : Outside g e t) (found : t.workers[k]? = some w') :
    (∃ b, started g e = some b ∧ w' = newWorker b ∧ k = g.workers.length) ∨
    ∃ w, g.workers[k]? = some w ∧ (w' = w ∨ w' = w.cancel) := by
  rcases outside.workers with same | ⟨handle,modified⟩ | ⟨b,starts,added⟩
  · rw [same] at found
    exact .inr ⟨w',found,.inl rfl⟩
  · rw [modified,List.getElem?_modify] at found
    obtain ⟨w,before,rfl⟩ := Option.map_eq_some_iff.mp found
    refine .inr ⟨w,before,?_⟩
    split
    · exact .inr rfl
    · exact .inl rfl
  · rw [added] at found
    rcases Nat.lt_or_ge k g.workers.length with inside | beyond
    · rw [List.getElem?_append_left inside] at found
      exact .inr ⟨w',found,.inl rfl⟩
    · rw [List.getElem?_append_right beyond,List.getElem?_singleton] at found
      split at found <;> try contradiction
      cases Option.some.inj found
      exact .inl ⟨b,starts,rfl,by omega⟩

theorem outsideKeeps {g e t} {k : Nat} {w : Worker} (outside : Outside g e t) (found : g.workers[k]? = some w) :
    ∃ w', t.workers[k]? = some w' ∧ (w' = w ∨ w' = w.cancel) := by
  rcases outside.workers with same | ⟨handle,modified⟩ | ⟨b,starts,added⟩
  · exact ⟨w,by rw [same]; exact found,.inl rfl⟩
  · rw [modified,List.getElem?_modify,found]
    by_cases here : handle = k
    · exact ⟨w.cancel,by simp [here],.inr rfl⟩
    · exact ⟨w,by simp [here],.inl rfl⟩
  · have inside := (List.getElem?_eq_some_iff.mp found).choose
    exact ⟨w,by rw [added,List.getElem?_append_left inside]; exact found,.inl rfl⟩

theorem workerAfter {g j o w next effect} (found : g.workers[j]? = some w)
    (moved : WorkerStep g j o w next effect) (k : Nat) :
    (perform (setWorker g j next) effect).workers[k]? = if j = k then some next else g.workers[k]? := by
  have inside := (List.getElem?_eq_some_iff.mp found).choose
  rw [workersPerform (workerArea moved).1]
  simp only [setWorker]
  split
  · next here => subst here; exact List.getElem?_set_self inside
  · next other => exact List.getElem?_set_ne other

theorem workerOrigin {g e t} {k : Nat} {w : Worker} (moved : Moved g e t) (found : t.workers[k]? = some w) :
    (∃ b, started g e = some b ∧ w = newWorker b ∧ k = g.workers.length) ∨
    (∃ v, g.workers[k]? = some v ∧ (w = v ∨ w = v.cancel)) ∨
    ∃ o v effect, e = .worker k o ∧ g.workers[k]? = some v ∧ WorkerStep g k o v w effect := by
  rcases workerOrOutside moved with outside | ⟨j,o,v,next,effect,rfl,before,inner,rfl⟩
  · rcases outsideWorker outside found with new | old
    · exact .inl new
    · exact .inr (.inl old)
  · rw [workerAfter before inner] at found
    split at found
    · next same =>
      subst same
      cases Option.some.inj found
      exact .inr (.inr ⟨o,v,effect,rfl,before,inner⟩)
    · exact .inr (.inl ⟨w,found,.inl rfl⟩)

theorem workerActive {g j o w next effect} (moved : WorkerStep g j o w next effect) : w.pc ≠ .returned := by
  intro gone
  cases moved <;> simp_all

theorem workerKeeps {g j o w next effect} (moved : WorkerStep g j o w next effect) :
    next.broadcast = w.broadcast ∧ next.done = w.done := by
  cases moved <;> exact ⟨rfl,rfl⟩

end WppGateway.Transitions
