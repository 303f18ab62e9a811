import WppGateway.Provenance

/-! Broadcasts that are created with a schedule. The time is stored and no part of the service looks at it again: such a
broadcast waits until somebody resumes it. -/
namespace WppGateway.Schedules
open GoJson Domain Store Table Selection Gateway BroadcastCreate Transitions HeldRows Payload Runs
open Provenance (Creation Outcome)

def resumes : Call → Option UUID
  | .resumeFind id => some id
  | .resumeWrite b | .resumeStart b => some b.id
  | _ => none

/- As the creation has left it, but for a pause or a cancel. -/
structure Waits (id : UUID) (s : Tables) : Prop where
  rows : ∀ b ∈ s.broadcasts, b.id = id →
    (b.status = .pending ∨ b.status = .paused ∨ b.status = .cancelled) ∧ b.sent = 0 ∧ b.failed = 0
  recipients : ∀ r ∈ s.recipients, r.broadcastId = id → r.status = .pending

abbrev Home := UUID → UUID

/- Nobody resumes the broadcast, and what is created under its id has a schedule. Other requests may delete rows. -/
def Left (id : UUID) (home : Home) (g : System) : Provenance.Event → Prop
  | .create c => (∀ x ∈ c.answers.ids, home x = c.answers.id) ∧
    (c.answers.id = id → ∀ json ∈ c.body, (decodeCreateBroadcastInput json).value.options.scheduleAt ≠ none)
  | .gateway e => e ≠ .resumeBroadcast id
  | .elsewhere s => (∀ b ∈ s.broadcasts, b ∈ g.store.broadcasts) ∧ ∀ r ∈ s.recipients, r ∈ g.store.recipients

structure Idle (id : UUID) (home : Home) (g : System) : Prop where
  waits : Waits id g.store
  keys : ∀ r ∈ g.store.recipients, home r.id = r.broadcastId
  workers : ∀ w ∈ g.workers, w.broadcast.id ≠ id ∧ ∀ r ∈ held w.pc, home r.id = w.broadcast.id
  calls : ∀ c ∈ g.calls, resumes c ≠ some id
  sends : ∀ call ∈ g.sends, ∀ j row, call.origin = .worker j row → home row ≠ id

def Spares (id : UUID) (home : Home) : Effect → Prop
  | .markStarted key | .markCompleted key | .updateProgress key _ _ => key ≠ id
  | .updateStatus key status => key = id → status = .paused ∨ status = .cancelled
  | .recipientSent row _ | .recipientFailed row _ => home row ≠ id
  | .send call => ∀ j row, call.origin = .worker j row → home row ≠ id
  | .startJob b => b.id ≠ id
  | _ => True

section Steps
variable {id : UUID} {home : Home} {g t : System}

theorem workerSpares {j : Nat} {o : Oracle} {w next : Worker} {effect : Effect} (other : w.broadcast.id ≠ id)
    (own : ∀ r ∈ held w.pc, home r.id = w.broadcast.id) (moved : WorkerStep g j o w next effect) :
    Spares id home effect := by
  have first {r : BroadcastRecipient} {rest : List BroadcastRecipient} (at_ : held w.pc = r::rest) : home r.id ≠ id := by
    rw [own r (at_ ▸ List.mem_cons_self)]
    exact other
  cases moved with
  | started | reports | totals | completes => exact other
  | markUnselected e r rest at_ | markUnsent r rest at_ | markSent inst r rest at_ => exact first (by rw [at_]; rfl)
  | delivers inst words r rest at_ | refused inst words r rest at_ =>
    intro k row same
    cases same
    exact first (by rw [at_]; rfl)
  | _ => trivial

theorem callSpares {ok : Bool} {c next : Call} {effect : Effect} (other : resumes c ≠ some id)
    (moved : callStep g ok c = some (next,effect)) : Spares id home effect := by
  cases c with
  | pauseRead key => simp only [callStep] at moved; split at moved <;> cases moved <;> trivial
  | pauseCancel key handle | pauseDelete key | cancelLock key => cases moved; trivial
  | pauseWrite key => cases ok <;> cases moved <;> first | trivial | exact fun _ => .inl rfl
  | cancelWrite key => cases ok <;> cases moved <;> first | trivial | exact fun _ => .inr rfl
  | resumeFind key =>
    simp only [callStep] at moved
    split at moved
    · cases moved; trivial
    · split at moved <;> cases moved <;> trivial
  | resumeWrite b =>
    cases ok <;> cases moved
    · trivial
    · exact fun same => absurd (congrArg some same) other
  | resumeStart b => cases moved; exact fun same => other (congrArg some same)
  | returned ok => cases moved

theorem requestSpares {k : Nat} {o : Oracle} {r next : Request} {effect : Effect}
    (moved : requestStep g k o r = some (next,effect)) : Spares id home effect := by
  cases effect with
  | send call =>
    obtain ⟨origin,_⟩ := requestSends moved
    intro j row same
    rw [origin] at same
    cases same
  | none | cacheStrategy | createMessage | messageSent | messageFailed | dropJob | cancelJob | stopJob => trivial
  | _ => rcases requestArea moved with a | a | a | a <;> cases a

theorem resumesBefore {ok : Bool} {c next : Call} {effect : Effect} (other : resumes c ≠ some id)
    (moved : callStep g ok c = some (next,effect)) : resumes next ≠ some id := by
  cases c with
  | pauseRead key => simp only [callStep] at moved; split at moved <;> cases moved <;> exact fun same => (by cases same)
  | pauseCancel key handle | pauseDelete key | pauseWrite key | cancelLock key | cancelWrite key | resumeStart b =>
    cases moved
    exact fun same => (by cases same)
  | resumeFind key =>
    simp only [callStep] at moved
    split at moved
    · cases moved; exact fun same => (by cases same)
    · split at moved
      · cases moved; exact fun same => (by cases same)
      · next found =>
        cases moved
        obtain ⟨_,here⟩ := findMember found
        exact fun same => other (same ▸ congrArg some here.symm)
  | resumeWrite b =>
    cases ok <;> cases moved
    · exact fun same => (by cases same)
    · exact other
  | returned ok => cases moved

theorem openedResumes {e : Gateway.Event} {c : Call} (call : opened e = some c) (same : resumes c = some id) :
    e = .resumeBroadcast id := by
  cases e with
  | resumeBroadcast key => cases call; cases same; rfl
  | pauseBroadcast key | cancelBroadcast key => cases call; cases same
  | _ => cases call

theorem waitsPerform (h : System) {effect : Effect} (waits : Waits id h.store)
    (keys : ∀ r ∈ h.store.recipients, home r.id = r.broadcastId) (spares : Spares id home effect) :
    Waits id (perform h effect).store := by
  constructor
  · intro b member here
    rw [broadcastsApplied] at member
    obtain ⟨old,inside,rfl⟩ := List.mem_map.mp member
    rw [(appliedKeeps effect old).1] at here
    have before := waits.rows old inside here
    cases effect with
    | markStarted key | markCompleted key | updateProgress key sent failed =>
      rw [applied,if_neg (fun same => spares (same.symm.trans here))]
      exact before
    | updateStatus key status =>
      simp only [applied]
      split
      · next same => exact ⟨.inr (spares (same.symm.trans here)),before.2⟩
      · exact before
    | _ => exact before
  · intro r member ofBroadcast
    by_cases rows : area effect = .recipients
    · cases effect with
      | recipientSent key i | recipientFailed key code =>
        obtain ⟨old,inside,rfl⟩ := memUpdate.mp member
        by_cases same : old.id = key
        · rw [if_pos same] at ofBroadcast
          exact absurd ((same ▸ keys old inside).trans ofBroadcast) spares
        · rw [if_neg same] at ofBroadcast ⊢
          exact waits.recipients old inside ofBroadcast
      | _ => cases rows
    · rw [recipientsPerform rows] at member
      exact waits.recipients r member ofBroadcast

theorem keysPerform (h : System) {effect : Effect} (keys : ∀ r ∈ h.store.recipients, home r.id = r.broadcastId) :
    ∀ r ∈ (perform h effect).store.recipients, home r.id = r.broadcastId := by
  intro r member
  obtain ⟨q,inside,key,ofBroadcast,_⟩ := Provenance.recipientsFrom r member
  rw [← key,← ofBroadcast]
  exact keys q inside

theorem sendsPerformed (h : System) {effect : Effect}
    (sends : ∀ call ∈ h.sends, ∀ j row, call.origin = .worker j row → home row ≠ id)
    (spares : Spares id home effect) :
    ∀ call ∈ (perform h effect).sends, ∀ j row, call.origin = .worker j row → home row ≠ id := by
  intro call member
  rcases Provenance.sendsEffect h member with old | rfl
  · exact sends call old
  · exact spares

variable (idle : Idle id home g)
include idle

theorem workersIdle {e : Gateway.Event} (fresh : ∀ b, e ≠ .startBroadcast b) (moved : Moved g e t) :
    ∀ w ∈ t.workers, w.broadcast.id ≠ id ∧ ∀ r ∈ held w.pc, home r.id = w.broadcast.id := by
  refine Provenance.workersKeep moved idle.workers (fun b starts => ?_) (fun w kept => kept)
    (fun j o w next effect inner kept => ?_)
  · exact ⟨fun same => idle.calls _ (Provenance.startedCall fresh starts) (congrArg some same),
      fun _ inside => (by cases inside)⟩
  · obtain ⟨other,rows⟩ := kept
    rw [(workerKeeps inner).1]
    refine ⟨other,fun r inside => ?_⟩
    rcases heldStep inner with old | ⟨_,page⟩
    · exact rows r (old.subset inside)
    · obtain ⟨listed,ofBroadcast,_⟩ := getPendingMember (page.subset inside)
      exact (idle.keys r listed).trans ofBroadcast

theorem callsIdle {e : Gateway.Event} (other : e ≠ .resumeBroadcast id) (moved : Moved g e t) :
    ∀ c ∈ t.calls, resumes c ≠ some id := by
  intro c member
  cases moved with
  | opens e c' call =>
    rcases List.mem_append.mp member with old | new
    · exact idle.calls c old
    · cases List.mem_singleton.mp new
      exact fun same => other (openedResumes call same)
  | call k ok c' next effect found inner =>
    rw [callsPerform] at member
    rcases List.mem_or_eq_of_mem_set member with old | rfl
    · exact idle.calls c old
    · exact resumesBefore (idle.calls _ (List.mem_of_getElem? found)) inner
  | worker | request => rw [callsPerform] at member; exact idle.calls c member
  | _ => exact idle.calls c member

theorem idleGateway {e : Gateway.Event} (fresh : ∀ b, e ≠ .startBroadcast b) (other : e ≠ .resumeBroadcast id)
    (moved : Moved g e t) : Idle id home t := by
  have workers := workersIdle idle fresh moved
  have calls := callsIdle idle other moved
  cases moved with
  | starts b => exact absurd rfl (fresh b)
  | call k ok c next effect found inner =>
    have spares : Spares id home effect := callSpares (idle.calls c (List.mem_of_getElem? found)) inner
    exact ⟨waitsPerform (setCall g k next) idle.waits idle.keys spares,keysPerform (setCall g k next) idle.keys,workers,
      calls,sendsPerformed (setCall g k next) idle.sends spares⟩
  | worker j o w next effect found inner =>
    obtain ⟨apart,own⟩ := idle.workers w (List.mem_of_getElem? found)
    have spares := workerSpares apart own inner
    exact ⟨waitsPerform (setWorker g j next) idle.waits idle.keys spares,keysPerform (setWorker g j next) idle.keys,
      workers,calls,sendsPerformed (setWorker g j next) idle.sends spares⟩
  | request k o r next effect found inner =>
    have spares : Spares id home effect := requestSpares inner
    exact ⟨waitsPerform (setRequest g k next) idle.waits idle.keys spares,keysPerform (setRequest g k next) idle.keys,
      workers,calls,sendsPerformed (setRequest g k next) idle.sends spares⟩
  | _ => exact ⟨⟨idle.waits.rows,idle.waits.recipients⟩,idle.keys,workers,calls,idle.sends⟩

end Steps

theorem scheduledWorkers (jsonb : Json → Option Json) (g : System) (c : Creation)
    (scheduled : ∀ json ∈ c.body, (decodeCreateBroadcastInput json).value.options.scheduleAt ≠ none) :
    (broadcastCreate jsonb g c.tenant c.group c.body c.answers).1.workers = g.workers := by
  unfold broadcastCreate
  split
  · rfl
  split
  · rfl
  split
  · rfl
  split
  · split
    · rfl
    next json body =>
    dsimp only
    split
    · rfl
    split
    · rfl
    split
    · rfl
    unfold insertBroadcast
    split
    · rfl
    split
    · rfl
    · simp only [if_neg (scheduled json body)]
      rfl
  · rfl

section Runs
variable {jsonb : Json → Option Json} {id : UUID} {home : Home} {g t : System}

theorem createdWaits {s u : Tables} {key groupId : UUID} {at_ : Int} {input : CreateBroadcastInput} {b : Broadcast}
    (made : create jsonb s key at_ groupId input = some (u,b)) : b.status = .pending ∧ b.sent = 0 ∧ b.failed = 0 := by
  simp only [create,bind,Option.bind_eq_some_iff] at made
  obtain ⟨_,_,_,_,_,_,_,_,_,_,_,_,made⟩ := made
  cases made
  exact ⟨rfl,rfl,rfl⟩

theorem idleWrite (idle : Idle id home g) {s : Tables} (waits : Waits id s)
    (keys : ∀ r ∈ s.recipients, home r.id = r.broadcastId) : Idle id home (write g s) :=
  ⟨waits,keys,idle.workers,idle.calls,idle.sends⟩

theorem idleStart (idle : Idle id home g) {b : Broadcast} (other : b.id ≠ id) : Idle id home (startJob g b) := by
  refine ⟨idle.waits,idle.keys,fun w member => ?_,idle.calls,idle.sends⟩
  rcases List.mem_append.mp member with old | new
  · exact idle.workers w old
  · cases List.mem_singleton.mp new
    exact ⟨other,fun _ none_ => (by cases none_)⟩

theorem idleCreate (idle : Idle id home g) {c : Creation} (left : Left id home g (.create c)) :
    Idle id home (broadcastCreate jsonb g c.tenant c.group c.body c.answers).1 := by
  have outcome := Provenance.creationOutcome jsonb g c
  have workers : c.answers.id = id → (broadcastCreate jsonb g c.tenant c.group c.body c.answers).1.workers = g.workers :=
    fun here => scheduledWorkers jsonb g c (left.2 here)
  generalize (broadcastCreate jsonb g c.tenant c.group c.body c.answers).1 = t at outcome workers ⊢
  cases outcome with
  | refused => exact idle
  | inserted owner groupId json s a t tenant group found body row goesOn =>
    have key := (createId row).1
    have frame := Provenance.createFrame row
    have waits : Waits id s := by
      rw [frame]
      refine ⟨fun b member here => ?_,idle.waits.recipients⟩
      rcases List.mem_append.mp member with old | new
      · exact idle.waits.rows b old here
      · cases List.mem_singleton.mp new
        obtain ⟨status,counters⟩ := createdWaits row
        exact ⟨.inl status,counters⟩
    have recipients : s.recipients = g.store.recipients := by rw [frame]
    rcases goesOn with rfl | ⟨full,batch,goesOn⟩
    · exact idleWrite idle waits (recipients ▸ idle.keys)
    simp only [createRecipients,bind,Option.bind_eq_some_iff] at batch
    obtain ⟨added,made,batch⟩ := batch
    cases batch
    have rows := recipientRowsMade made
    have whole : Idle id home (write g {s with recipients := s.recipients ++ added}) := by
      refine idleWrite idle ⟨waits.rows,fun r member => ?_⟩ (fun r member => ?_)
      · rcases List.mem_append.mp member with old | new
        · exact waits.recipients r old
        · exact fun _ => (rows.pending r new).2
      · rcases List.mem_append.mp member with old | new
        · exact idle.keys r (recipients ▸ old)
        · rw [(rows.pending r new).1,key]
          exact left.1 r.id (rows.keys.subset (List.mem_map_of_mem new))
    rcases goesOn with rfl | rfl
    · exact whole
    · by_cases here : c.answers.id = id
      · have length := congrArg List.length (workers here)
        rw [startJob,List.length_append] at length
        exact absurd length (by simp [write])
      · exact idleStart whole (fun same => here (key.symm.trans same))

theorem idleStep (g : System) (e : Provenance.Event) (t : System) (idle : Idle id home g) (left : Left id home g e)
    (moved : Provenance.step jsonb g e = some t) : Idle id home t := by
  cases e with
  | create c => exact Option.some.inj moved ▸ idleCreate idle left
  | elsewhere s =>
    cases moved
    obtain ⟨rows,recipients⟩ := left
    have waits : Waits id s :=
      ⟨fun b member => idle.waits.rows b (rows b member),fun r member => idle.waits.recipients r (recipients r member)⟩
    exact ⟨waits,fun r member => idle.keys r (recipients r member),idle.workers,idle.calls,idle.sends⟩
  | gateway e =>
    have inner : Gateway.step g e = some t ∧ ∀ b, e ≠ .startBroadcast b := by
      cases e <;> first | (cases moved; done) | exact ⟨moved,nofun⟩
    exact idleGateway idle inner.2 left (movedSource inner.1)

theorem idleFresh (fresh : Fresh g) (waits : Waits id g.store)
    (keys : ∀ r ∈ g.store.recipients, home r.id = r.broadcastId) : Idle id home g := by
  refine ⟨waits,keys,?_,?_,?_⟩
  · rw [fresh.workers]; exact fun _ none_ => (by cases none_)
  · rw [fresh.calls]; exact fun _ none_ => (by cases none_)
  · rw [fresh.sends]; exact fun _ none_ => (by cases none_)

def resumed (id : UUID) (g : System) : List Provenance.Event :=
  [.gateway (.resumeBroadcast id),.gateway (.call g.calls.length true),.gateway (.call g.calls.length true),
    .gateway (.call g.calls.length true)]

theorem callMoves {h : System} {k : Nat} {c next : Call} {effect : Effect} (found : h.calls[k]? = some c)
    (inner : callStep h true c = some (next,effect)) :
    Gateway.step h (.call k true) = some (perform (setCall h k next) effect) := by
  simp only [Gateway.step,found,inner,Option.bind_eq_bind,Option.bind_some]

theorem resumedRun {b : Broadcast} (found : findBroadcast g.store id = some b) :
    ∃ u, run (Provenance.step jsonb) g (resumed id g) = some u ∧ u.workers = g.workers ++ [newWorker b] := by
  let opened_ := openCall g (.resumeFind id)
  let read := setCall opened_ g.calls.length (.resumeWrite b)
  let written := perform (setCall read g.calls.length (.resumeStart b)) (.updateStatus b.id .processing)
  let ended := perform (setCall written g.calls.length (.returned true)) (.startJob b)
  have set_ (c next : Call) : (g.calls ++ [c]).set g.calls.length next = g.calls ++ [next] := by simp
  have readCalls : read.calls = g.calls ++ [.resumeWrite b] := set_ _ _
  have writtenCalls : written.calls = g.calls ++ [.resumeStart b] := by
    change read.calls.set _ _ = _
    rw [readCalls,set_]
  have finds : Gateway.step opened_ (.call g.calls.length true) = some read := by
    have here : findBroadcast opened_.store id = some b := found
    have inner : callStep opened_ true (.resumeFind id) = some (.resumeWrite b,.none) := by
      simp only [callStep,here,Bool.true_eq_false,if_false]
    exact callMoves (by simp [opened_,openCall]) inner
  have writes : Gateway.step read (.call g.calls.length true) = some written :=
    callMoves (c := .resumeWrite b) (by rw [readCalls]; simp) rfl
  have starts : Gateway.step written (.call g.calls.length true) = some ended :=
    callMoves (c := .resumeStart b) (by rw [writtenCalls]; simp) rfl
  refine ⟨ended,?_,rfl⟩
  have first : Provenance.step jsonb g (.gateway (.resumeBroadcast id)) = some opened_ := rfl
  have called (h : System) : Provenance.step jsonb h (.gateway (.call g.calls.length true)) =
      Gateway.step h (.call g.calls.length true) := rfl
  simp only [resumed,run,first,called,finds,writes,starts,Option.bind_eq_bind,Option.bind_some]

/-- The time of a schedule starts nothing: as long as nobody resumes the broadcast, it gets no worker, nothing is sent to
its recipients, who stay pending, and its row says pending, paused or cancelled; and a resume gives it a worker at once. -/
theorem neverStarted {events : List Provenance.Event} (fresh : Fresh g) (waits : Waits id g.store)
    (keys : ∀ r ∈ g.store.recipients, home r.id = r.broadcastId)
    (left : Guarded (Provenance.step jsonb) (Left id home) g events)
    (ran : run (Provenance.step jsonb) g events = some t) :
    Waits id t.store ∧ (∀ w ∈ t.workers, w.broadcast.id ≠ id) ∧
    (∀ call ∈ t.sends, ∀ j row, call.origin = .worker j row → home row ≠ id) ∧
    ∀ b, findBroadcast t.store id = some b →
      ∃ u, run (Provenance.step jsonb) t (resumed id t) = some u ∧ u.workers = t.workers ++ [newWorker b] := by
  have idle := guardedRun idleStep (idleFresh fresh waits keys) left ran
  exact ⟨idle.waits,fun w member => (idle.workers w member).1,idle.sends,fun b found => resumedRun found⟩

end Runs

def scheduled : Creation where
  tenant := some 100
  group := sampleParam 1
  body := some (.obj [(text "recipients",.arr [.str (text "5511999999999")]),(text "type",.str (text "text")),
    (text "content",sampleContent),(text "options",.obj [(text "schedule_at",.str (text "2031-05-04T10:00:00Z"))])])
  answers := ⟨true,true,true,21,0,[31]⟩

def beforehand : List Provenance.Event :=
  .create scheduled::(.pauseBroadcast 21::calls 0 2).map Provenance.Event.gateway

def vacant : Tables := ⟨[sampleGroup],[sampleInstance],[],[],[]⟩

theorem neverStartedPaused : ∃ t, run (Provenance.step some) (boot vacant) beforehand = some t ∧
    t.store.broadcasts.map (fun b => (b.id,b.status)) = [(21,.paused)] ∧
    t.store.recipients.map (fun r => (r.id,r.status)) = [(31,.pending)] ∧ (∀ w ∈ t.workers, w.broadcast.id ≠ 21) ∧
    ∀ b, findBroadcast t.store 21 = some b →
      ∃ u, run (Provenance.step some) t (resumed 21 t) = some u ∧ u.workers = t.workers ++ [newWorker b] := by
  have ends : (run (Provenance.step some) (boot vacant) beforehand).map (fun t =>
      (t.store.broadcasts.map (fun b => (b.id,b.status)),t.store.recipients.map (fun r => (r.id,r.status)))) =
      some ([(21,.paused)],[(31,.pending)]) := by
    decide +kernel
  obtain ⟨t,ran,values⟩ := Option.map_eq_some_iff.mp ends
  have left : Guarded (Provenance.step some) (Left 21 (fun _ => 21)) (boot vacant) beforehand := by
    refine guardedEach (fun e member s => ?_) _
    rcases List.mem_cons.mp member with rfl | later
    · exact ⟨by decide,fun _ json same => (by cases same; decide +kernel)⟩
    · obtain ⟨e,inside,rfl⟩ := List.mem_map.mp later
      rcases List.mem_cons.mp inside with rfl | called
      · exact nofun
      · cases List.eq_of_mem_replicate called
        exact nofun
  have untouched : Waits 21 vacant :=
    ⟨fun _ none_ => (by cases none_),fun _ none_ => (by cases none_)⟩
  obtain ⟨_,workers,_,resumes⟩ := neverStarted (freshBoot _) untouched (fun _ none_ => (by cases none_)) left ran
  exact ⟨t,ran,congrArg Prod.fst values,congrArg Prod.snd values,workers,resumes⟩

end WppGateway.Schedules
