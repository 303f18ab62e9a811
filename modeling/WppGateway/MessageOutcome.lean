import WppGateway.SingleSend

/-! The row that a single send writes to message_logs, and whether the request leaves its outcome there. Other requests,
workers and calls run in between. -/
namespace WppGateway.MessageOutcome
open Runs GoJson Domain Store Table Gateway Http Transitions SingleSend

def rows (s : System) (log : UUID) : List MessageLog := s.store.messages.filter (fun m => m.id == log)

def queuedLog (o : Oracle) (inst : Instance) (groupId : UUID) (input : SendMessageInput) : MessageLog :=
  ⟨o.freshId,some groupId,some inst.id,input.toNumber,input.type,.queued,none,o.today⟩

def creates (s : System) (o : Oracle) (m : MessageLog) : Bool := o.ok && (createMessage s.store m).isSome

def logMade (s : System) : Event → Option (Nat × UUID)
  | .request k o => match s.requests[k]? with
    | some (.logging inst groupId input) =>
      if creates s o (queuedLog o inst groupId input) then some (k,o.freshId) else none
    | _ => none
  | _ => none

def madeBy (k : Nat) (s : System) (e : Event) : List UUID :=
  ((logMade s e).filter (fun made => made.1 == k)).toList.map Prod.snd

def logsMade (k : Nat) : System → List Event → List UUID
  | _,[] => []
  | s,e::rest => madeBy k s e ++ match step s e with
    | some t => logsMade k t rest
    | none => []

def NewKeys (s : System) (e : Event) : Prop := ∀ made ∈ logMade s e, ∀ m ∈ s.store.messages, m.id ≠ made.2

def isSending : Request → Bool
  | .sending _ _ _ _ => true
  | _ => false

/- The database answers the request. What SendTextMessage returns is open. -/
def Answered (k : Nat) (s : System) : Event → Prop
  | .request j o => j = k → ∀ q ∈ s.requests[k]?, isSending q = false → o.ok = true
  | _ => True

instance (s : System) (e : Event) : Decidable (NewKeys s e) :=
  inferInstanceAs (Decidable (∀ made ∈ logMade s e, ∀ m ∈ s.store.messages, m.id ≠ made.2))

instance (k : Nat) (s : System) (e : Event) : Decidable (Answered k s e) := by
  cases e <;> unfold Answered <;> infer_instance

def heldLog : Request → Option UUID
  | .sending _ log _ _ | .updateFailed log _ | .updateSent _ log => some log
  | _ => none

def touched : Effect → Option UUID
  | .createMessage m => some m.id
  | .messageSent id | .messageFailed id _ => some id
  | _ => none

section Rows
variable {s : System} {log : UUID}

theorem filterOther {key : UUID} {f : MessageLog → MessageLog} (kept : ∀ m, (f m).id = m.id) (other : key ≠ log)
    (all : List MessageLog) :
    (update MessageLog.id key f all).filter (fun m => m.id == log) = all.filter (fun m => m.id == log) := by
  induction all with
  | nil => rfl
  | cons m rest ih =>
    simp only [update,List.map_cons] at ih ⊢
    by_cases own : m.id = key
    · have apart : (m.id == log) = false := by simpa [own] using other
      rw [if_pos own,List.filter_cons_of_neg (by simp [kept,apart]),List.filter_cons_of_neg (by simp [apart]),ih]
    · rw [if_neg own,List.filter_cons,List.filter_cons,ih]

theorem filterOwn {f : MessageLog → MessageLog} (kept : ∀ m, (f m).id = m.id) (all : List MessageLog) :
    (update MessageLog.id log f all).filter (fun m => m.id == log) = (all.filter (fun m => m.id == log)).map f := by
  induction all with
  | nil => rfl
  | cons m rest ih =>
    simp only [update,List.map_cons] at ih ⊢
    by_cases own : m.id = log
    · rw [if_pos own,List.filter_cons_of_pos (by simp [kept,own]),List.filter_cons_of_pos (by simp [own]),ih,
        List.map_cons]
    · rw [if_neg own,List.filter_cons_of_neg (by simp [own]),List.filter_cons_of_neg (by simp [own]),ih]

theorem filterPresent {f : MessageLog → MessageLog} (kept : ∀ m, (f m).id = m.id) {all : List MessageLog}
    (present : all.filter (fun m => m.id == log) ≠ []) :
    (update MessageLog.id log f all).filter (fun m => m.id == log) ≠ [] := by
  rw [filterOwn kept]
  exact fun none_ => present (List.map_eq_nil_iff.mp none_)

theorem createdMessages {t : Tables} {m : MessageLog} (made : createMessage s.store m = some t) :
    ∃ m', m'.id = m.id ∧ m'.status = m.status ∧ t.messages = s.store.messages ++ [m'] := by
  simp only [createMessage,bind,Option.bind_eq_some_iff] at made
  obtain ⟨recipient,_,type,_,made⟩ := made
  cases made
  exact ⟨{m with recipient := recipient, messageType := type},rfl,rfl,rfl⟩

theorem rowsCreated {m : MessageLog} (fresh : ∀ old ∈ s.store.messages, old.id ≠ m.id)
    (stored : (createMessage s.store m).isSome = true) :
    ∃ m', rows (perform s (.createMessage m)) m.id = [m'] ∧ m'.status = m.status := by
  obtain ⟨t,made⟩ := Option.isSome_iff_exists.mp stored
  obtain ⟨m',key,status,messages⟩ := createdMessages made
  have absent : s.store.messages.filter (fun old => old.id == m.id) = [] :=
    List.filter_eq_nil_iff.mpr (fun old member => by simpa using fresh old member)
  refine ⟨m',?_,status⟩
  simp only [rows,perform,write,made,Option.getD_some,messages,List.filter_append,absent,List.nil_append]
  rw [List.filter_cons_of_pos (by simp [key]),List.filter_nil]

theorem messagesFrame {effect : Effect} (other : touched effect = none) :
    (perform s effect).store.messages = s.store.messages := by
  cases effect with
  | createMessage | messageSent | messageFailed => cases other
  | stopJob id => exact congrArg Tables.messages (stopJobFrame s id).1
  | _ => rfl

theorem rowsPerform {effect : Effect} (apart : touched effect ≠ some log) : rows (perform s effect) log = rows s log := by
  cases effect with
  | createMessage m =>
    simp only [rows,perform,write]
    cases made : createMessage s.store m with
    | none => rfl
    | some t =>
      obtain ⟨m',key,_,messages⟩ := createdMessages made
      have other : m'.id ≠ log := fun same => apart (congrArg some (key.symm.trans same))
      rw [Option.getD_some,messages,List.filter_append,List.filter_cons_of_neg (by simpa using other),List.filter_nil,
        List.append_nil]
  | messageSent id =>
    exact filterOther (f := fun m => {m with status := .sent}) (fun _ => rfl) (fun same => apart (congrArg some same)) _
  | messageFailed id code =>
    exact filterOther (f := fun m => {m with status := .failed, errorCode := some code}) (fun _ => rfl)
      (fun same => apart (congrArg some same)) _
  | _ => rw [rows,messagesFrame rfl]; rfl

theorem presentPerform (effect : Effect) (present : rows s log ≠ []) : rows (perform s effect) log ≠ [] := by
  by_cases apart : touched effect = some log
  · cases effect with
    | createMessage m =>
      simp only [rows,perform,write]
      cases made : createMessage s.store m with
      | none => exact present
      | some t =>
        obtain ⟨m',_,_,messages⟩ := createdMessages made
        rw [Option.getD_some,messages,List.filter_append]
        exact List.append_ne_nil_of_left_ne_nil present _
    | messageSent id =>
      cases apart
      exact filterPresent (f := fun m => {m with status := .sent}) (fun _ => rfl) present
    | messageFailed id code =>
      cases apart
      exact filterPresent (f := fun m => {m with status := .failed, errorCode := some code}) (fun _ => rfl) present
    | _ => cases apart
  · rwa [rowsPerform apart]

end Rows

theorem checkContentEnds (inst : Instance) (log : UUID) (input : SendMessageInput) :
    (∃ sent, checkContent inst log input = .sending inst log input sent ∧ SingleText input sent) ∨
    (∃ response, checkContent inst log input = .answered response) ∧ ∀ sent, ¬ SingleText input sent := by
  unfold checkContent
  by_cases type : input.type = text "text"
  · rw [if_pos type]
    cases given : input.content with
    | none =>
      refine .inr ⟨⟨_,rfl⟩,fun sent single => ?_⟩
      obtain ⟨_,content,there,_⟩ := single
      cases given.symm.trans there
    | some content =>
      simp only [Option.map_some]
      by_cases decoded : (decodeContent content).ok = true
      · rw [if_pos decoded]
        exact .inl ⟨_,rfl,type,content,given,decoded,rfl⟩
      · rw [if_neg decoded]
        refine .inr ⟨⟨_,rfl⟩,fun sent single => ?_⟩
        obtain ⟨_,content',there,fine,_⟩ := single
        cases given.symm.trans there
        exact decoded fine
  · rw [if_neg type]
    exact .inr ⟨⟨_,rfl⟩,fun sent single => type single.1⟩

section Request
variable {s : System} {k : Nat} {o : Oracle} {q next : Request} {effect : Effect} {log : UUID}

theorem loggingStep (inst : Instance) (groupId : UUID) (input : SendMessageInput) :
    requestStep s k o (.logging inst groupId input) = if creates s o (queuedLog o inst groupId input) then
      some (checkContent inst o.freshId input,.createMessage (queuedLog o inst groupId input))
    else some (.answered (errInternal fresh "Failed to create message log"),.none) := rfl

theorem madeLogging {inst : Instance} {groupId : UUID} {input : SendMessageInput}
    (found : s.requests[k]? = some (.logging inst groupId input)) :
    logMade s (.request k o) = if creates s o (queuedLog o inst groupId input) then some (k,o.freshId) else none := by
  simp only [logMade,found]

theorem requestTouches (found : s.requests[k]? = some q) (inner : requestStep s k o q = some (next,effect))
    (writes : touched effect = some log) : heldLog q = some log ∨ logMade s (.request k o) = some (k,log) := by
  cases q with
  | received r => cases inner; cases writes
  | selecting sel groupId input =>
    simp only [requestStep] at inner
    split at inner <;> cases inner <;> cases writes
  | logging inst groupId input =>
    rw [loggingStep] at inner
    split at inner <;> cases inner
    · next stored =>
      cases writes
      exact .inr ((madeLogging found).trans (if_pos stored))
    · cases writes
  | sending inst log' input sent => cases inner; cases writes
  | updateFailed log' err =>
    cases inner
    cases ok : o.ok <;> simp only [ok,touched] at writes <;> cases writes
    exact .inl rfl
  | updateSent inst log' =>
    cases inner
    cases ok : o.ok <;> simp only [ok,touched] at writes <;> cases writes
    exact .inl rfl
  | answered response => cases inner

theorem requestHolds (found : s.requests[k]? = some q) (inner : requestStep s k o q = some (next,effect))
    (holds : heldLog next = some log) : heldLog q = some log ∨ logMade s (.request k o) = some (k,log) := by
  cases q with
  | received r =>
    cases inner
    rcases checkSendSource s o.ok r with ⟨response,same⟩ | ⟨groupId,input,same⟩ <;> rw [same] at holds <;> cases holds
  | selecting sel groupId input =>
    simp only [requestStep] at inner
    split at inner <;> cases inner <;> cases holds
  | logging inst groupId input =>
    rw [loggingStep] at inner
    split at inner <;> cases inner
    · next stored =>
      rcases checkContentSource inst o.freshId input with ⟨response,same⟩ | ⟨sent,same⟩ <;> rw [same] at holds <;>
        cases holds
      exact .inr ((madeLogging found).trans (if_pos stored))
    · cases holds
  | sending inst log' input sent =>
    cases inner
    split at holds <;> cases holds <;> exact .inl rfl
  | updateFailed log' err | updateSent inst log' => cases inner; cases holds
  | answered response => cases inner

theorem requestCalls (inner : requestStep s k o q = some (next,effect)) (idle : isSending q = false) :
    area effect ≠ .sends := by
  cases q with
  | received r => cases inner; exact fun h => (by cases h)
  | selecting sel groupId input =>
    simp only [requestStep] at inner
    split at inner <;> cases inner <;> exact fun h => (by cases h)
  | logging inst groupId input =>
    rw [loggingStep] at inner
    split at inner <;> cases inner <;> exact fun h => (by cases h)
  | sending => cases idle
  | updateFailed log err | updateSent inst log => cases inner; split <;> exact fun h => (by cases h)
  | answered response => cases inner

theorem madePresent (found : s.requests[k]? = some q) (inner : requestStep s k o q = some (next,effect))
    (new : NewKeys s (.request k o)) (made : logMade s (.request k o) = some (k,log)) :
    rows s log = [] ∧ ∃ m, rows (perform (setRequest s k next) effect) log = [m] ∧ m.status = .queued := by
  have absent : ∀ m ∈ s.store.messages, m.id ≠ log := new (k,log) made
  refine ⟨List.filter_eq_nil_iff.mpr (fun m member => by simpa using absent m member),?_⟩
  cases q with
  | logging inst groupId input =>
    rw [madeLogging found] at made
    split at made <;> cases made
    next stored =>
    rw [loggingStep,if_pos stored] at inner
    cases inner
    exact rowsCreated (s := setRequest s k _) absent (Bool.and_eq_true_iff.mp stored).2
  | _ => simp only [logMade,found] at made; cases made

end Request

def callsOf (k : Nat) (s : System) : List SendCall := s.sends.filter (fun c => decide (c.origin = .request k))

def Row (s : System) (log : UUID) (status : MessageStatus) : Prop := ∃ m, rows s log = [m] ∧ m.status = status

def Sendable (r : SendRequest) : Prop := ∃ input sent, Checked r input ∧ SingleText input sent

def isEarly : Request → Bool
  | .received _ | .selecting _ _ _ | .logging _ _ _ => true
  | _ => false

inductive Stage (k : Nat) (r : SendRequest) (s : System) : Request → List UUID → Prop where
  | early (q) (early : isEarly q = true) (none_ : callsOf k s = []) : Stage k r s q []
  | sending (inst log input sent) (none_ : callsOf k s = []) (row : Row s log .queued) :
      Stage k r s (.sending inst log input sent) [log]
  | updateFailed (log err call) (one : callsOf k s = [call]) (failed : call.succeeded = false) (row : Row s log .queued)
      (sendable : Sendable r) : Stage k r s (.updateFailed log err) [log]
  | updateSent (inst log call) (one : callsOf k s = [call]) (sent : call.succeeded = true) (row : Row s log .queued)
      (sendable : Sendable r) : Stage k r s (.updateSent inst log) [log]
  | refused (response) (none_ : callsOf k s = []) : Stage k r s (.answered response) []
  | unread (response log) (none_ : callsOf k s = []) (row : Row s log .queued) (never : ¬ Sendable r) :
      Stage k r s (.answered response) [log]
  | recorded (response log call) (one : callsOf k s = [call]) (sendable : Sendable r)
      (row : Row s log (if call.succeeded then .sent else .failed)) : Stage k r s (.answered response) [log]

section Own
variable {s : System} {k : Nat} {o : Oracle} {q next : Request} {effect : Effect} {r : SendRequest} {logs : List UUID}

theorem callsKept (j : Nat) (next : Request) (other : area effect ≠ .sends) :
    callsOf k (perform (setRequest s j next) effect) = callsOf k s := by
  rw [callsOf,sendsPerform other]
  rfl

theorem rowKept {log : UUID} {status : MessageStatus} (j : Nat) (next : Request) (apart : touched effect ≠ some log)
    (row : Row s log status) : Row (perform (setRequest s j next) effect) log status := by
  obtain ⟨m,only,same⟩ := row
  exact ⟨m,(rowsPerform (s := setRequest s j next) apart).trans only,same⟩

theorem madeNone (silent : logMade s (.request k o) = none) : logs ++ madeBy k s (.request k o) = logs := by
  rw [madeBy,silent]
  exact List.append_nil logs

theorem earlyStep (early : isEarly q = true) (none_ : callsOf k s = []) (passed : Passed r q)
    (found : s.requests[k]? = some q) (inner : requestStep s k o q = some (next,effect))
    (new : NewKeys s (.request k o)) :
    Stage k r (perform (setRequest s k next) effect) next (madeBy k s (.request k o)) := by
  cases q with
  | received r' =>
    cases inner
    rw [← List.nil_append (madeBy k s _),madeNone (by simp only [logMade,found])]
    rcases checkSendSource s o.ok r' with ⟨response,same⟩ | ⟨groupId,input,same⟩ <;> rw [same]
    · exact .refused response none_
    · exact .early _ rfl none_
  | selecting sel groupId input =>
    rw [← List.nil_append (madeBy k s _),madeNone (by simp only [logMade,found])]
    simp only [requestStep] at inner
    split at inner <;> cases inner
    · exact .early _ rfl none_
    · exact .early _ rfl none_
    · exact .refused _ none_
    · exact .early _ rfl none_
  | logging inst groupId input =>
    rw [loggingStep] at inner
    split at inner
    · next stored =>
      have made : logMade s (.request k o) = some (k,o.freshId) := (madeLogging found).trans (if_pos stored)
      have one : madeBy k s (.request k o) = [o.freshId] := by simp [madeBy,made]
      obtain ⟨_,row⟩ := madePresent found (by rw [loggingStep,if_pos stored]) new made
      rw [one]
      cases inner
      have none' : callsOf k (perform (setRequest s k (checkContent inst o.freshId input))
          (.createMessage (queuedLog o inst groupId input))) = [] :=
        (callsKept k _ (fun h => (by cases h))).trans none_
      rcases checkContentEnds inst o.freshId input with ⟨sent,next,_⟩ | ⟨⟨response,next⟩,never⟩
      · rw [next] at row none' ⊢
        exact .sending inst o.freshId input sent none' row
      · rw [next] at row none' ⊢
        refine .unread response o.freshId none' row (fun sendable => ?_)
        obtain ⟨input',sent,⟨_,body,given,decoded⟩,single⟩ := sendable
        obtain ⟨_,body',given',decoded'⟩ := passed
        cases given.symm.trans given'
        cases decoded.symm.trans decoded'
        exact never sent single
    · next failed =>
      cases inner
      rw [← List.nil_append (madeBy k s _),madeNone ((madeLogging found).trans (if_neg failed))]
      exact .refused _ none_
  | _ => cases early

theorem rowMarked {log : UUID} {old new : MessageStatus} {t : System} {f : MessageLog → MessageLog}
    (kept : ∀ m, (f m).id = m.id) (status : ∀ m, (f m).status = new)
    (messages : t.store.messages = update MessageLog.id log f s.store.messages) (row : Row s log old) :
    Row t log new := by
  obtain ⟨m,only,_⟩ := row
  refine ⟨f m,?_,status m⟩
  rw [rows] at only ⊢
  rw [messages,filterOwn kept,only]
  rfl

theorem sentRow {log : UUID} (row : Row s log .queued) (next : Request) :
    Row (perform (setRequest s k next) (.messageSent log)) log .sent :=
  rowMarked (f := fun m => {m with status := .sent}) (fun _ => rfl) (fun _ => rfl) rfl row

theorem failedRow {log : UUID} (code : String) (row : Row s log .queued) (next : Request) :
    Row (perform (setRequest s k next) (.messageFailed log code)) log .failed :=
  rowMarked (f := fun m => {m with status := .failed, errorCode := some code}) (fun _ => rfl) (fun _ => rfl) rfl row

theorem stageStep (stage : Stage k r s q logs) (passed : Passed r q) (found : s.requests[k]? = some q)
    (inner : requestStep s k o q = some (next,effect)) (answered : isSending q = false → o.ok = true)
    (new : NewKeys s (.request k o)) :
    Stage k r (perform (setRequest s k next) effect) next (logs ++ madeBy k s (.request k o)) := by
  cases stage with
  | early _ early none_ => exact earlyStep early none_ passed found inner new
  | sending inst log input sent none_ row =>
    rw [madeNone (by simp only [logMade,found])]
    cases inner
    have sendable : Sendable r := ⟨input,sent,passed⟩
    have one : callsOf k (perform (setRequest s k (if o.ok then .updateSent inst log else .updateFailed log o.err))
        (.send ⟨.request k,inst.id,input.toNumber,sent,o.ok⟩)) = [⟨.request k,inst.id,input.toNumber,sent,o.ok⟩] := by
      simp only [callsOf] at none_
      simp [callsOf,perform,setRequest,none_]
    have apart : touched (.send ⟨.request k,inst.id,input.toNumber,sent,o.ok⟩) ≠ some log := fun h => (by cases h)
    have kept := rowKept k (if o.ok then .updateSent inst log else .updateFailed log o.err) apart row
    cases accepted : o.ok with
    | true =>
      rw [accepted] at one kept
      exact .updateSent inst log _ one rfl kept sendable
    | false =>
      rw [accepted] at one kept
      exact .updateFailed log o.err _ one rfl kept sendable
  | updateFailed log err call one failed row sendable =>
    rw [madeNone (by simp only [logMade,found])]
    have ok := answered rfl
    cases inner
    rw [ok]
    refine .recorded _ log call ((callsKept k _ (fun h => (by cases h))).trans one) sendable ?_
    rw [failed]
    exact failedRow "send_failed" row _
  | updateSent inst log call one sent row sendable =>
    rw [madeNone (by simp only [logMade,found])]
    have ok := answered rfl
    cases inner
    rw [ok]
    refine .recorded _ log call ((callsKept k _ (fun h => (by cases h))).trans one) sendable ?_
    rw [sent]
    exact sentRow row _
  | refused | unread | recorded => cases inner

end Own

structure Quiet (s t : System) : Prop where
  messages : t.store.messages = s.store.messages
  calls : ∀ k, callsOf k t = callsOf k s
  requests : ∃ more, t.requests = s.requests ++ more ∧ ∀ q ∈ more, heldLog q = none

theorem touchedArea {effect : Effect} (other : area effect ≠ .messages) : touched effect = none := by
  cases effect <;> first | rfl | exact absurd rfl other

theorem quietPerform {s t : System} {effect : Effect} (requests : t.requests = s.requests) (sends : t.sends = s.sends)
    (store : t.store = s.store) (messages : area effect ≠ .messages)
    (calls : ∀ call, effect = .send call → ∀ k, call.origin ≠ .request k) : Quiet s (perform t effect) := by
  refine ⟨(messagesFrame (touchedArea messages)).trans (congrArg Tables.messages store),fun k => ?_,[],?_,
    fun q member => (by cases member)⟩
  · cases effect with
    | send call =>
      have other : decide (call.origin = .request k) = false := decide_eq_false (calls call rfl k)
      simp only [callsOf,perform,List.filter_append,sends]
      rw [List.filter_cons_of_neg (by simp [other]),List.filter_nil,List.append_nil]
    | _ => rw [callsOf,sendsPerform (fun h => (by cases h)),sends]; rfl
  · rw [requestsPerform,requests,List.append_nil]

theorem quietMoved {s t : System} {e : Event} (moved : Moved s e t) (other : ∀ k o, e ≠ .request k o) : Quiet s t := by
  have still : ∀ u : System, u.store.messages = s.store.messages → u.sends = s.sends → u.requests = s.requests →
      Quiet s u :=
    fun u messages sends requests => ⟨messages,fun k => by rw [callsOf,sends]; rfl,[],by rw [requests,List.append_nil],
      fun q member => (by cases member)⟩
  cases moved with
  | starts | opens | pauses | resumes | status => exact still _ rfl rfl rfl
  | call k ok c next effect found inner =>
    refine quietPerform rfl rfl rfl (fun h => ?_) (fun call made => ?_)
    · rcases callArea inner with a | a | a | a <;> rw [h] at a <;> cases a
    · subst made
      rcases callArea inner with a | a | a | a <;> cases a
  | worker j o w next effect found inner =>
    refine quietPerform rfl rfl rfl (workerArea inner).2 (fun call made k => ?_)
    subst made
    cases inner <;> exact fun h => (by cases h)
  | send r =>
    refine ⟨rfl,fun _ => rfl,[.received r],rfl,fun q member => ?_⟩
    cases List.mem_singleton.mp member
    rfl
  | request k o => exact absurd rfl (other k o)

theorem requestOr (e : Event) : (∃ j o, e = .request j o) ∨ ∀ k o, e ≠ .request k o := by
  cases e with
  | request j o => exact .inl ⟨j,o,rfl⟩
  | _ => exact .inr (fun k o same => (by cases same))

theorem requestSource {s t : System} {j : Nat} {o : Oracle} (moved : step s (.request j o) = some t) :
    ∃ q next effect, s.requests[j]? = some q ∧ requestStep s j o q = some (next,effect) ∧
      t = perform (setRequest s j next) effect := by
  simp only [step,bind,Option.bind_eq_some_iff] at moved
  obtain ⟨q,found,⟨next,effect⟩,inner,moved⟩ := moved
  exact ⟨q,next,effect,found,inner,(Option.some.inj moved).symm⟩

theorem logMadeOwn {s : System} {j k : Nat} {o : Oracle} {log : UUID} (made : logMade s (.request j o) = some (k,log)) :
    k = j := by
  simp only [logMade] at made
  split at made
  · split at made <;> cases made
    rfl
  · cases made

theorem logMadeQuiet {s : System} {e : Event} (other : ∀ k o, e ≠ .request k o) : logMade s e = none := by
  cases e with
  | request k o => exact absurd rfl (other k o)
  | _ => rfl

section Tracking
variable {k : Nat} {r : SendRequest} {s t : System} {logs : List UUID}

theorem stageKept {q : Request} (calls : callsOf k t = callsOf k s) (same : ∀ log ∈ logs, rows t log = rows s log)
    (stage : Stage k r s q logs) : Stage k r t q logs := by
  have row : ∀ {log status}, log ∈ logs → Row s log status → Row t log status := by
    rintro log status member ⟨m,only,here⟩
    exact ⟨m,(same log member).trans only,here⟩
  cases stage with
  | early _ early none_ => exact .early _ early (calls.trans none_)
  | sending inst log input sent none_ held =>
    exact .sending inst log input sent (calls.trans none_) (row List.mem_cons_self held)
  | updateFailed log err call one failed held sendable =>
    exact .updateFailed log err call (calls.trans one) failed (row List.mem_cons_self held) sendable
  | updateSent inst log call one sent held sendable =>
    exact .updateSent inst log call (calls.trans one) sent (row List.mem_cons_self held) sendable
  | refused response none_ => exact .refused response (calls.trans none_)
  | unread response log none_ held never =>
    exact .unread response log (calls.trans none_) (row List.mem_cons_self held) never
  | recorded response log call one sendable held =>
    exact .recorded response log call (calls.trans one) sendable (row List.mem_cons_self held)

def Stored (s : System) : Prop :=
  ∀ (j : Nat) (q : Request) (log : UUID), s.requests[j]? = some q → heldLog q = some log → rows s log ≠ []

structure Tracked (k : Nat) (r : SendRequest) (s : System) (logs : List UUID) : Prop where
  present : ∀ log ∈ logs, rows s log ≠ []
  mine : ∀ log ∈ logs, ∀ (j : Nat) (q : Request), s.requests[j]? = some q → heldLog q = some log → j = k
  stage : ∃ q, s.requests[k]? = some q ∧ Passed r q ∧ Stage k r s q logs

theorem Quiet.rows (quiet : Quiet s t) (log : UUID) : rows t log = rows s log := by
  rw [MessageOutcome.rows,quiet.messages]
  rfl

theorem Quiet.held {j : Nat} {q : Request} {log : UUID} (quiet : Quiet s t) (found : t.requests[j]? = some q)
    (holds : heldLog q = some log) : s.requests[j]? = some q := by
  obtain ⟨more,requests,idle⟩ := quiet.requests
  rw [requests] at found
  by_cases inside : j < s.requests.length
  · rwa [List.getElem?_append_left inside] at found
  · rw [List.getElem?_append_right (by omega)] at found
    rw [idle q (List.mem_of_getElem? found)] at holds
    cases holds

theorem Quiet.found {j : Nat} {q : Request} (quiet : Quiet s t) (found : s.requests[j]? = some q) :
    t.requests[j]? = some q := by
  obtain ⟨more,requests,_⟩ := quiet.requests
  rw [requests,List.getElem?_append_left (List.getElem?_eq_some_iff.mp found).choose]
  exact found

theorem trackedQuiet {e : Event} (inv : Tracked k r s logs) (other : ∀ k o, e ≠ .request k o) (quiet : Quiet s t) :
    Tracked k r t (logs ++ madeBy k s e) := by
  have none_ : logs ++ madeBy k s e = logs := by
    rw [madeBy,logMadeQuiet other]
    exact List.append_nil logs
  rw [none_]
  refine ⟨fun log member => ?_,fun log member j q found holds => ?_,?_⟩
  · rw [quiet.rows]
    exact inv.present log member
  · exact inv.mine log member j q (quiet.held found holds) holds
  · obtain ⟨q,found,passed,stage⟩ := inv.stage
    exact ⟨q,quiet.found found,passed,stageKept (quiet.calls k) (fun log _ => quiet.rows log) stage⟩

section Other
variable {j : Nat} {o : Oracle} {q next : Request} {effect : Effect} {log : UUID}

theorem madeByOwn (member : log ∈ madeBy k s (.request j o)) : j = k ∧ logMade s (.request j o) = some (k,log) := by
  rw [madeBy] at member
  cases made : logMade s (.request j o) with
  | none => rw [made] at member; cases member
  | some pair =>
    obtain ⟨i,id⟩ := pair
    by_cases own : i = k
    · subst own
      have only : id = log := by simpa [made] using member
      exact ⟨(logMadeOwn made).symm,by rw [only]⟩
    · simp [made,own] at member

theorem madeNew {i : Nat} (found : s.requests[j]? = some q) (inner : requestStep s j o q = some (next,effect))
    (new : NewKeys s (.request j o)) (made : logMade s (.request j o) = some (i,log)) :
    rows s log = [] ∧ rows (perform (setRequest s j next) effect) log ≠ [] := by
  cases logMadeOwn made
  obtain ⟨absent,m,only,_⟩ := madePresent found inner new made
  exact ⟨absent,by rw [only]; exact List.cons_ne_nil m []⟩

theorem holderBefore {i : Nat} {p : Request} (found : s.requests[j]? = some q)
    (inner : requestStep s j o q = some (next,effect)) (there : (s.requests.set j next)[i]? = some p)
    (holds : heldLog p = some log) :
    (∃ p', s.requests[i]? = some p' ∧ heldLog p' = some log) ∨ (i = j ∧ logMade s (.request j o) = some (j,log)) := by
  by_cases same : j = i
  · subst same
    rw [List.getElem?_set_self (List.getElem?_eq_some_iff.mp found).choose] at there
    cases Option.some.inj there
    rcases requestHolds found inner holds with before | made
    · exact .inl ⟨q,found,before⟩
    · exact .inr ⟨rfl,made⟩
  · rw [List.getElem?_set_ne same] at there
    exact .inl ⟨p,there,holds⟩

theorem callsOther (other : j ≠ k) (inner : requestStep s j o q = some (next,effect)) :
    callsOf k (perform (setRequest s j next) effect) = callsOf k s := by
  by_cases calls : area effect = .sends
  · cases q with
    | sending inst log input sent =>
      cases inner
      have apart : Origin.request j ≠ .request k := fun same => other (by cases same; rfl)
      simp only [callsOf,perform,setRequest,List.filter_append]
      rw [List.filter_cons_of_neg (by simpa using apart),List.filter_nil,List.append_nil]
    | _ => exact absurd calls (requestCalls inner rfl)
  · exact callsKept j next calls

theorem presentAfter (next : Request) (present : rows s log ≠ []) :
    rows (perform (setRequest s j next) effect) log ≠ [] := presentPerform (s := setRequest s j next) effect present

theorem storedRequest (stored : Stored s) (new : NewKeys s (.request j o)) (found : s.requests[j]? = some q)
    (inner : requestStep s j o q = some (next,effect)) : Stored (perform (setRequest s j next) effect) := by
  intro i p log there holds
  rw [requestsPerform] at there
  rcases holderBefore found inner there holds with ⟨p',before,held⟩ | ⟨_,made⟩
  · exact presentAfter next (stored i p' log before held)
  · exact (madeNew found inner new made).2

theorem trackedRequest (stored : Stored s) (inv : Tracked k r s logs) (new : NewKeys s (.request j o))
    (answered : Answered k s (.request j o)) (found : s.requests[j]? = some q)
    (inner : requestStep s j o q = some (next,effect)) :
    Tracked k r (perform (setRequest s j next) effect) (logs ++ madeBy k s (.request j o)) := by
  have inside := (List.getElem?_eq_some_iff.mp found).choose
  have requests : (perform (setRequest s j next) effect).requests = s.requests.set j next := requestsPerform
  refine ⟨fun log member => ?_,fun log member i p there holds => ?_,?_⟩
  · rcases List.mem_append.mp member with old | made
    · exact presentAfter next (inv.present log old)
    · exact (madeNew found inner new (madeByOwn made).2).2
  · rw [requests] at there
    rcases List.mem_append.mp member with old | made
    · rcases holderBefore found inner there holds with ⟨p',before,held⟩ | ⟨_,made⟩
      · exact inv.mine log old i p' before held
      · exact absurd (madeNew found inner new made).1 (inv.present log old)
    · obtain ⟨own,just⟩ := madeByOwn made
      rcases holderBefore found inner there holds with ⟨p',before,held⟩ | ⟨at_,_⟩
      · exact absurd (madeNew found inner new just).1 (stored i p' log before held)
      · exact at_.trans own
  · obtain ⟨own,here,passed,stage⟩ := inv.stage
    by_cases same : j = k
    · subst same
      cases found.symm.trans here
      refine ⟨next,by rw [requests]; exact List.getElem?_set_self inside,(requestPassed passed inner).1,?_⟩
      exact stageStep stage passed found inner (answered rfl q found) new
    · have none_ : madeBy k s (.request j o) = [] :=
        List.eq_nil_iff_forall_not_mem.mpr (fun log member => same (madeByOwn member).1)
      rw [none_,List.append_nil]
      refine ⟨own,by rw [requests,List.getElem?_set_ne same]; exact here,passed,
        stageKept (callsOther same inner) (fun log member => ?_) stage⟩
      refine rowsPerform (s := setRequest s j next) (fun writes => ?_)
      rcases requestTouches found inner writes with held | made
      · exact same (inv.mine log member j q found held)
      · exact absurd (madeNew found inner new made).1 (inv.present log member)

end Other

theorem storedStep {e : Event} (stored : Stored s) (new : NewKeys s e) (moved : step s e = some t) : Stored t := by
  rcases requestOr e with ⟨j,o,rfl⟩ | other
  · obtain ⟨q,next,effect,found,inner,rfl⟩ := requestSource moved
    exact storedRequest stored new found inner
  · have quiet := quietMoved (movedSource moved) other
    intro j q log found holds
    rw [quiet.rows]
    exact stored j q log (quiet.held found holds) holds

theorem trackedStep {e : Event} (stored : Stored s) (inv : Tracked k r s logs) (new : NewKeys s e)
    (answered : Answered k s e) (moved : step s e = some t) : Tracked k r t (logs ++ madeBy k s e) := by
  rcases requestOr e with ⟨j,o,rfl⟩ | other
  · obtain ⟨q,next,effect,found,inner,rfl⟩ := requestSource moved
    exact trackedRequest stored inv new answered found inner
  · exact trackedQuiet inv other (quietMoved (movedSource moved) other)

def Placed (s : System) : Prop := ∀ k, s.requests.length ≤ k → callsOf k s = []

theorem placedStep {e : Event} (placed : Placed s) (moved : step s e = some t) : Placed t := by
  intro k beyond
  rcases requestOr e with ⟨j,o,rfl⟩ | other
  · obtain ⟨q,next,effect,found,inner,rfl⟩ := requestSource moved
    have inside := (List.getElem?_eq_some_iff.mp found).choose
    rw [requestsPerform,setRequest,List.length_set] at beyond
    rw [callsOther (by omega) inner]
    exact placed k beyond
  · have quiet := quietMoved (movedSource moved) other
    obtain ⟨more,requests,_⟩ := quiet.requests
    rw [requests,List.length_append] at beyond
    rw [quiet.calls]
    exact placed k (by omega)

theorem trackedRun {events : List Event} (stored : Stored s) (inv : Tracked k r s logs)
    (new : Guarded step NewKeys s events) (answered : Guarded step (Answered k) s events)
    (ran : run step s events = some t) : Tracked k r t (logs ++ logsMade k s events) := by
  induction events generalizing s logs with
  | nil =>
    cases Option.some.inj ran
    rwa [logsMade,List.append_nil]
  | cons e rest ih =>
    obtain ⟨m,moved,later⟩ := runCons ran
    have next := ih (storedStep stored new.1 moved) (trackedStep stored inv new.1 answered.1 moved) (new.2 m moved)
      (answered.2 m moved) later
    rw [logsMade,moved,← List.append_assoc]
    exact next

end Tracking

def delivered (k : Nat) (s : System) : Bool := s.sends.any (fun c => decide (c.origin = .request k) && c.succeeded)

def Recorded (k : Nat) (s : System) (logs : List UUID) : Prop :=
  logs = [] ∨ ∃ log m, logs = [log] ∧ rows s log = [m] ∧ m.status = if delivered k s then .sent else .failed

theorem deliveredCalls (k : Nat) (s : System) : delivered k s = (callsOf k s).any SendCall.succeeded := by
  rw [delivered,callsOf,List.any_filter]

theorem recordedStage {k : Nat} {r : SendRequest} {s : System} {response : Response} {logs : List UUID}
    (stage : Stage k r s (.answered response) logs) : Recorded k s logs ↔ logs = [] ∨ Sendable r := by
  cases stage with
  | early _ early => cases early
  | refused response none_ => exact ⟨fun _ => .inl rfl,fun _ => .inl rfl⟩
  | unread response log none_ row never =>
    obtain ⟨m,only,queued⟩ := row
    constructor
    · rintro (empty | ⟨log',m',same,only',status⟩)
      · cases empty
      · cases same
        cases only.symm.trans only'
        rw [queued] at status
        split at status <;> cases status
    · rintro (empty | sendable)
      · cases empty
      · exact absurd sendable never
  | recorded response log call one sendable row =>
    obtain ⟨m,only,status⟩ := row
    have outcome : delivered k s = call.succeeded := by
      rw [deliveredCalls,one,List.any_cons,List.any_nil,Bool.or_false]
    exact ⟨fun _ => .inr sendable,fun _ => .inr ⟨log,m,rfl,only,by rw [outcome]; exact status⟩⟩

theorem storedRun {g s : System} {events : List Event} (fresh : Fresh g) (keys : Guarded step NewKeys g events)
    (ran : run step g events = some s) : Stored s ∧ Placed s := by
  have kept : ∀ a e b, Stored a ∧ Placed a → NewKeys a e → step a e = some b → Stored b ∧ Placed b :=
    fun a e b inv new moved => ⟨storedStep inv.1 new moved,placedStep inv.2 moved⟩
  refine guardedRun kept ⟨fun j q log found => ?_,fun k _ => ?_⟩ keys ran
  · rw [fresh.requests] at found
    cases found
  · rw [callsOf,fresh.sends]
    rfl

theorem trackedReceived {s : System} (placed : Placed s) (r : SendRequest) :
    Tracked s.requests.length r (receive s r) [] := by
  refine ⟨fun log member => (by cases member),fun log member => (by cases member),.received r,?_,rfl,?_⟩
  · exact List.getElem?_concat_length
  · exact .early _ rfl (placed _ (Nat.le_refl _))

def InsertsReadable (k : Nat) (r : SendRequest) (s : System) (e : Event) : Prop :=
  ∀ made ∈ logMade s e, made.1 = k → Sendable r

theorem insertsNone {k : Nat} {r : SendRequest} {s : System} {e : Event} (unsendable : ¬ Sendable r) :
    InsertsReadable k r s e ↔ madeBy k s e = [] := by
  rw [InsertsReadable,madeBy]
  cases logMade s e with
  | none => exact ⟨fun _ => rfl,fun _ _ made => (by cases made)⟩
  | some made =>
    by_cases own : made.1 = k
    · simp [own,unsendable]
    · simp [own]

theorem readableMade {k : Nat} {r : SendRequest} {s : System} {events : List Event} :
    Guarded step (InsertsReadable k r) s events ↔ logsMade k s events = [] ∨ Sendable r := by
  by_cases sendable : Sendable r
  · exact ⟨fun _ => .inr sendable,fun _ => guardedEach (fun _ _ _ _ _ _ => sendable) s⟩
  rw [or_iff_left sendable]
  induction events generalizing s with
  | nil => exact ⟨fun _ => rfl,fun _ => trivial⟩
  | cons e rest ih =>
    simp only [Guarded,logsMade,List.append_eq_nil_iff,insertsNone sendable]
    refine and_congr_right (fun _ => ?_)
    cases step s e with
    | none => exact ⟨fun _ => rfl,fun _ _ moved => (by cases moved)⟩
    | some t => simp [ih]

/-- A request that is answered by the database has left its outcome in message_logs just when no step of the run inserts
its row without its being a text message with a readable content. Such a row stays queued for ever. -/
theorem outcomeRecorded {g s t : System} {earlier events : List Event} {r : SendRequest} {response : Response}
    (fresh : Fresh g) (before : run step g earlier = some s) (keys : Guarded step NewKeys g earlier)
    (ran : run step s (.send r::events) = some t) (later : Guarded step NewKeys s (.send r::events))
    (answered : Guarded step (Answered s.requests.length) s (.send r::events))
    (done : t.requests[s.requests.length]? = some (.answered response)) :
    Recorded s.requests.length t (logsMade s.requests.length s (.send r::events)) ↔
      Guarded step (InsertsReadable s.requests.length r) s (.send r::events) := by
  rw [readableMade]
  obtain ⟨stored,placed⟩ := storedRun fresh keys before
  have received : Stored (receive s r) := storedStep stored later.1 rfl
  have tracked := trackedRun received (trackedReceived placed r) (later.2 _ rfl) (answered.2 _ rfl) ran
  obtain ⟨q,found,_,stage⟩ := tracked.stage
  cases done.symm.trans found
  exact recordedStage stage

def posting (r : SendRequest) (n : Nat) : List Event := .send r::List.replicate n (.request 0 accepts)

def posted (r : SendRequest) (n : Nat) : Option System := run step (boot (sampleTables [])) (posting r n)

def answeredStatus : Request → Option Nat
  | .answered response => some response.status
  | _ => none

theorem answeredFound {q : Option Request} {status : Nat} (answered : q.bind answeredStatus = some status) :
    ∃ response, q = some (.answered response) ∧ response.status = status := by
  obtain ⟨request,rfl,is⟩ := Option.bind_eq_some_iff.mp answered
  cases request with
  | answered response => exact ⟨response,rfl,Option.some.inj is⟩
  | _ => cases is

theorem textSendable : Sendable sampleSend :=
  ⟨⟨text "5511999999999",text "text",some sampleContent⟩,text "oi",⟨by decide +kernel,_,rfl,rfl⟩,rfl,_,rfl,rfl,rfl⟩

theorem textRecorded : Fresh (boot (sampleTables [])) ∧
    Guarded step NewKeys (boot (sampleTables [])) (posting sampleSend 9) ∧
    Guarded step (Answered 0) (boot (sampleTables [])) (posting sampleSend 9) ∧ ∃ t, posted sampleSend 9 = some t ∧
      Recorded 0 t [41] ∧ t.store.messages.map MessageLog.status = [.sent] := by
  have keys : Guarded step NewKeys (boot (sampleTables [])) (posting sampleSend 9) := guardedChecks (by decide +kernel)
  have answers : Guarded step (Answered 0) (boot (sampleTables [])) (posting sampleSend 9) :=
    guardedChecks (by decide +kernel)
  have ends : (posted sampleSend 9).map
      (fun t => (t.requests[0]?.bind answeredStatus,t.store.messages.map MessageLog.status)) =
      some (some 200,[.sent]) := by decide +kernel
  have made : logsMade 0 (boot (sampleTables [])) (posting sampleSend 9) = [41] := by decide +kernel
  obtain ⟨t,ran,facts⟩ := Option.map_eq_some_iff.mp ends
  obtain ⟨done,statuses⟩ := Prod.mk.inj facts
  obtain ⟨response,answered,_⟩ := answeredFound done
  have readable : Guarded step (InsertsReadable 0 sampleSend) (boot (sampleTables [])) (posting sampleSend 9) :=
    guardedEach (fun _ _ _ _ _ _ => textSendable) _
  have recorded := (outcomeRecorded (freshBoot _) (show run step (boot (sampleTables [])) [] = _ from rfl) trivial ran keys
    answers answered).mpr readable
  exact ⟨freshBoot _,keys,answers,t,ran,made ▸ recorded,statuses⟩

def pictureRequest : SendRequest := ⟨some 100,sampleParam 1,some (sampleBody "5511999999999" "image" sampleContent)⟩

theorem pictureStaysQueued : Guarded step NewKeys (boot (sampleTables [])) (posting pictureRequest 7) ∧
    Guarded step (Answered 0) (boot (sampleTables [])) (posting pictureRequest 7) ∧
    logsMade 0 (boot (sampleTables [])) (posting pictureRequest 7) = [41] ∧
    ∃ t response, posted pictureRequest 7 = some t ∧ t.requests[0]? = some (.answered response) ∧ response.status = 400 ∧
      t.store.messages.map MessageLog.status = [.queued] ∧ ¬ Recorded 0 t [41] := by
  have ends : (posted pictureRequest 7).map (fun t =>
      (t.requests[0]?.bind answeredStatus,t.store.messages.map (fun m => (m.id,m.status)))) =
        some (some 400,[(41,.queued)]) := by decide +kernel
  obtain ⟨t,ran,facts⟩ := Option.map_eq_some_iff.mp ends
  obtain ⟨done,statuses⟩ := Prod.mk.inj facts
  obtain ⟨response,answered,status⟩ := answeredFound done
  have queued : t.store.messages.map MessageLog.status = [.queued] := by
    have second := congrArg (List.map Prod.snd) statuses
    rwa [List.map_map] at second
  refine ⟨guardedChecks (by decide +kernel),guardedChecks (by decide +kernel),by decide +kernel,t,response,ran,answered,
    status,queued,?_⟩
  rintro (empty | ⟨log,m,_,only,outcome⟩)
  · cases empty
  · have inside : m ∈ t.store.messages := by
      rw [rows] at only
      exact (List.mem_filter.mp (only ▸ List.mem_cons_self)).1
    have is : m.status = .queued := by
      have listed := List.mem_map_of_mem (f := MessageLog.status) inside
      rw [queued] at listed
      exact List.mem_singleton.mp listed
    rw [is] at outcome
    split at outcome <;> cases outcome

end WppGateway.MessageOutcome
