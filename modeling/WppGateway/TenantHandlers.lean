import WppGateway.Transitions
import Mathlib.Data.List.Dedup

/-! The handlers of broadcasts and of metrics, each run without a step of another
process between its statements. The answers of this package return a nil error, so a
caller that tests the error of a helper that has answered goes on. -/
namespace WppGateway.TenantHandlers
open Domain Store Selection Gateway Transitions Http Runs

/- The request as fiber hands it over; an empty query parameter counts as absent. -/
structure Query where
  tenant : Option UUID
  group : Param
  broadcast : Param
  limit : Option Int
  offset : Option Int
  since : Option String
  until_ : Option String

/- Which queries are answered, the defaults that the clock gives, and the days that two
texts select when they are cast to dates. A cast that fails selects none: the error of
the rows is not looked at. -/
structure Answers where
  group : Bool
  read : Bool
  count : Bool
  update : Bool
  monthAgo : String
  today : String
  days : String → String → Int → Bool

structure Replied where
  response : Response
  failed : Bool

def reply (r : Response) : Replied := ⟨r,false⟩

def verifyGroupOwnership (g : System) (q : Query) (a : Answers) : Replied :=
  match q.tenant with
  | none => reply (errUnauthorized fresh "Tenant not found")
  | some tenant => match q.group.parsed with
    | none => reply (errBadRequest fresh (invalidUUID q.group))
    | some groupId =>
      if a.group = false then reply (errInternal fresh "Failed to get group")
      else if (findGroup g.store groupId).any (fun group => group.tenantId == tenant) then ⟨fresh,false⟩
      else reply (errNotFound fresh "Group not found")

def nil : UUID := 0

def groupIdOf (q : Query) : UUID := q.group.parsed.getD nil

/- Pause and Cancel differ in the lock around the delete, which one call alone does not show. -/
def stopBroadcast (status : BroadcastStatus) (g : System) (id : UUID) (ok : Bool) : System × Bool :=
  let stopped := stopJob g id
  (if ok then perform stopped (.updateStatus id status) else stopped,ok)

def pauseBroadcast : System → UUID → Bool → System × Bool := stopBroadcast .paused

def cancelBroadcast : System → UUID → Bool → System × Bool := stopBroadcast .cancelled

def resumeBroadcast (g : System) (id : UUID) (read ok : Bool) : System × Bool :=
  if read = false then (g,false)
  else match findBroadcast g.store id with
    | none => (g,true)
    | some b =>
      if ok then (perform (perform g (.updateStatus id .processing)) (.startJob b),true) else (g,false)

/-! The same three as runs of the dispatcher in which nobody else takes a step. -/

def Alone (g : System) (c : Call) (t : System) (done : Bool) : Prop :=
  ∃ answers : List Bool, run step (openCall g c) (answers.map (.call g.calls.length)) =
    some (openCall t (.returned done))

theorem performOpen (g : System) (c : Call) (effect : Effect) :
    perform (openCall g c) effect = openCall (perform g effect) c := by
  cases effect
  case stopJob id =>
    simp only [perform,stopJob,openCall]
    split <;> rfl
  all_goals rfl

theorem callOpen (g : System) (answer : Bool) (c d : Call) : callStep (openCall g d) answer c = callStep g answer c := by
  cases c <;> rfl

theorem aloneReturned (g : System) (done : Bool) : Alone g (.returned done) g done := ⟨[],rfl⟩

theorem aloneNext {g t : System} {c next : Call} {effect : Effect} {done : Bool} (answer : Bool)
    (does : callStep g answer c = some (next,effect)) (later : Alone (perform g effect) next t done) :
    Alone g c t done := by
  -- the call is the last one opened and keeps its place, whatever its statements do
  obtain ⟨answers,ran⟩ := later
  rw [callsPerform] at ran
  have found : (openCall g c).calls[g.calls.length]? = some c := by simp [openCall]
  have replaced : setCall (openCall g c) g.calls.length next = openCall g next := by simp [setCall,openCall]
  have moved : step (openCall g c) (.call g.calls.length answer) = some (openCall (perform g effect) next) := by
    simp only [step,found,callOpen,does,replaced,performOpen,bind,Option.bind]
  refine ⟨answer::answers,?_⟩
  simp only [List.map_cons,run,moved,bind,Option.bind]
  exact ran

theorem aloneWrites {g : System} {c : Call} {id : UUID} {status : BroadcastStatus} {ok : Bool}
    (does : callStep g ok c = some (.returned ok,if ok then .updateStatus id status else .none)) :
    Alone g c (if ok then perform g (.updateStatus id status) else g) ok := by
  cases ok with
  | false => exact aloneNext false does (aloneReturned g false)
  | true => exact aloneNext true does (aloneReturned _ true)

theorem pauseAlone (g : System) (id : UUID) (ok : Bool) :
    Alone g (.pauseRead id) (pauseBroadcast g id ok).1 (pauseBroadcast g id ok).2 := by
  unfold pauseBroadcast stopBroadcast stopJob
  cases job : g.activeJobs id with
  | none =>
    have read : callStep g ok (.pauseRead id) = some (.pauseWrite id,.none) := by simp only [callStep,job]
    exact aloneNext ok read (aloneWrites rfl)
  | some handle =>
    have read : callStep g ok (.pauseRead id) = some (.pauseCancel id handle,.none) := by simp only [callStep,job]
    exact aloneNext ok read (aloneNext ok rfl (aloneNext ok rfl (aloneWrites rfl)))

theorem cancelAlone (g : System) (id : UUID) (ok : Bool) :
    Alone g (.cancelLock id) (cancelBroadcast g id ok).1 (cancelBroadcast g id ok).2 :=
  aloneNext ok rfl (aloneWrites rfl)

theorem resumeAlone (g : System) (id : UUID) (read ok : Bool) :
    Alone g (.resumeFind id) (resumeBroadcast g id read ok).1 (resumeBroadcast g id read ok).2 := by
  cases read with
  | false => exact aloneNext false rfl (aloneReturned g false)
  | true =>
    cases found : findBroadcast g.store id with
    | none =>
      have finds : callStep g true (.resumeFind id) = some (.returned true,.none) := by simp [callStep,found]
      simp only [resumeBroadcast,found]
      exact aloneNext true finds (aloneReturned g true)
    | some b =>
      have finds : callStep g true (.resumeFind id) = some (.resumeWrite b,.none) := by simp [callStep,found]
      refine aloneNext true finds ?_
      simp only [resumeBroadcast,found]
      rw [← (findBroadcastMember found).2]
      cases ok with
      | false => exact aloneNext false rfl (aloneReturned g false)
      | true => exact aloneNext true rfl (aloneNext true rfl (aloneReturned _ true))

/-! BroadcastHandler. -/

def getStatus (g : System) (q : Query) (a : Answers) : System × Response :=
  match q.tenant with
  | none => (g,errUnauthorized fresh "Tenant not found")
  | some tenant => match q.group.parsed with
    | none => (g,errBadRequest fresh (invalidUUID q.group))
    | some groupId =>
      if a.group = false then (g,errInternal fresh "Failed to get group")
      else if (findGroup g.store groupId).any (fun group => group.tenantId == tenant) then
        match q.broadcast.parsed with
        | none => (g,errBadRequest fresh (invalidUUID q.broadcast))
        | some id =>
          if a.read = false then (g,errInternal fresh "Failed to get broadcast progress")
          else match getProgress g.store id with
            | none => (g,errNotFound fresh "Broadcast not found")
            | some p =>
              if a.count = false then (g,errInternal fresh "Failed to get broadcast progress")
              else (g,ok fresh (.progress p))
      else (g,errNotFound fresh "Group not found")

def list (g : System) (q : Query) (a : Answers) : System × Response :=
  let v := verifyGroupOwnership g q a
  if v.failed then (g,v.response)
  else
    let limit := min (q.limit.getD 20) 200
    let offset := q.offset.getD 0
    match (if a.read then findBroadcastsByGroupID g.store (groupIdOf q) limit offset else none) with
    | none => (g,errInternal v.response "Failed to list broadcasts")
    | some (page,total) => (g,Http.list v.response (.broadcasts page) ⟨total,limit,offset⟩)

def controlBroadcast (call : System → UUID → System × Bool) (failure status : String) (g : System) (q : Query)
    (a : Answers) : System × Response :=
  let v := verifyGroupOwnership g q a
  if v.failed then (g,v.response)
  else match q.broadcast.parsed with
    | none => (g,errBadRequest v.response (invalidUUID q.broadcast))
    | some id =>
      let (t,done) := call g id
      (t,if done then ok v.response (.status status) else errInternal v.response failure)

theorem controlAlone {call : System → UUID → System × Bool} {opened : UUID → Call} {g : System}
    (alone : ∀ id, Alone g (opened id) (call g id).1 (call g id).2) (failure status : String) (q : Query) (a : Answers) :
    (controlBroadcast call failure status g q a).1 = g ∨
      ∃ id done, Alone g (opened id) (controlBroadcast call failure status g q a).1 done := by
  unfold controlBroadcast
  dsimp only
  split
  · exact .inl rfl
  · cases q.broadcast.parsed with
    | none => exact .inl rfl
    | some id => exact .inr ⟨id,_,alone id⟩

def pause (g : System) (q : Query) (a : Answers) : System × Response :=
  controlBroadcast (fun g id => pauseBroadcast g id a.update) "Failed to pause broadcast" "paused" g q a

def resume (g : System) (q : Query) (a : Answers) : System × Response :=
  controlBroadcast (fun g id => resumeBroadcast g id a.read a.update) "Failed to resume broadcast" "resumed" g q a

def cancel (g : System) (q : Query) (a : Answers) : System × Response :=
  controlBroadcast (fun g id => cancelBroadcast g id a.update) "Failed to cancel broadcast" "cancelled" g q a

theorem pauseHandled (g : System) (q : Query) (a : Answers) :
    (pause g q a).1 = g ∨ ∃ id done, Alone g (.pauseRead id) (pause g q a).1 done :=
  controlAlone (fun id => pauseAlone g id a.update) _ _ q a

theorem resumeHandled (g : System) (q : Query) (a : Answers) :
    (resume g q a).1 = g ∨ ∃ id done, Alone g (.resumeFind id) (resume g q a).1 done :=
  controlAlone (fun id => resumeAlone g id a.read a.update) _ _ q a

theorem cancelHandled (g : System) (q : Query) (a : Answers) :
    (cancel g q a).1 = g ∨ ∃ id done, Alone g (.cancelLock id) (cancel g q a).1 done :=
  controlAlone (fun id => cancelAlone g id a.update) _ _ q a

/-! MetricsHandler. -/

def wasSent (m : MessageLog) : Bool := m.status == .sent || m.status == .delivered || m.status == .read
def wasDelivered (m : MessageLog) : Bool := m.status == .delivered || m.status == .read

def rate (delivered sent : Nat) : Rat := if 0 < sent then (delivered : Rat) / sent else 0

def messagesOf (s : Tables) (groupId : UUID) : List MessageLog :=
  s.messages.filter (fun m => m.groupId == some groupId)

def groupCounts (s : Tables) (groupId : UUID) (counted : Bool) : GroupMetrics :=
  let rows := messagesOf s groupId
  let sent := rows.countP wasSent
  let delivered := rows.countP wasDelivered
  let instances := if counted then s.instances.filter (fun i => i.groupId == groupId) else []
  ⟨sent,delivered,rows.countP (fun m => m.status == .failed),rate delivered sent,
    instances.countP (fun i => i.status == .available),instances.countP (fun i => i.status == .banned)⟩

def metric (failure : String) (data : Tables → UUID → Data) (g : System) (q : Query) (a : Answers) :
    System × Response :=
  let v := verifyGroupOwnership g q a
  if v.failed then (g,v.response)
  else if a.read = false then (g,errInternal v.response failure)
  else (g,ok v.response (data g.store (groupIdOf q)))

def groupMetrics (g : System) (q : Query) (a : Answers) : System × Response :=
  metric "Failed to get metrics" (fun s id => .groupMetrics (groupCounts s id a.count)) g q a

def dailyRow (rows : List MessageLog) (day : Int) : DailyRow :=
  let rows := rows.filter (fun m => m.queuedOn == day)
  let sent := rows.countP wasSent
  let delivered := rows.countP wasDelivered
  ⟨day,sent,delivered,rows.countP (fun m => m.status == .read),rows.countP (fun m => m.status == .failed),
    rate delivered sent⟩

def dailyRows (s : Tables) (groupId : UUID) (selected : Int → Bool) : List DailyRow :=
  let rows := (messagesOf s groupId).filter (fun m => selected m.queuedOn)
  ((rows.map MessageLog.queuedOn).dedup.insertionSort (· ≤ ·)).map (dailyRow rows)

def dailyMetrics (g : System) (q : Query) (a : Answers) : System × Response :=
  let since := q.since.getD a.monthAgo
  let until_ := q.until_.getD a.today
  metric "Failed to get daily metrics" (fun s id => .daily since until_ (dailyRows s id (a.days since until_))) g q a

def instanceRow (s : Tables) (i : Instance) : InstanceMetric :=
  let rows := s.messages.filter (fun m => m.instanceId == some i.id)
  ⟨i.id,i.phoneNumber,i.status,i.dailyBudget,i.messagesToday,i.deliveryRate,rows.countP wasSent,
    rows.countP (fun m => m.status == .failed)⟩

/- Rows of one priority keep table order. -/
def instanceRows (s : Tables) (groupId : UUID) : List InstanceMetric :=
  ((s.instances.filter (fun i => i.groupId == groupId)).insertionSort (fun i j => i.priority ≥ j.priority)).map
    (instanceRow s)

def instanceMetrics (g : System) (q : Query) (a : Answers) : System × Response :=
  metric "Failed to get instance metrics" (fun s id => .instances (instanceRows s id)) g q a

end WppGateway.TenantHandlers
