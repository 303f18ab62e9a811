import WppGateway.Http
import WppGateway.MessageText
import WppGateway.Runs
import WppGateway.Selection
import WppGateway.Store

/-! The dispatcher, the group orchestrator and the message handler as one transition
system. A process moves between two statements of the source; what a statement does
to shared state is an effect, so every write has one place. -/
namespace WppGateway.Gateway
open GoJson Domain Store Selection MessageText Http

inductive Selecting where
  | pauseCheck
  | lookup
  | group
  | cache (s : Strategy)
  | listing (s : Strategy)
  deriving DecidableEq, Repr

inductive Pc where
  | markStarted
  | loop
  | fetch
  | chunk (rest : List BroadcastRecipient)
  | selecting (sel : Selecting) (r : BroadcastRecipient) (rest : List BroadcastRecipient)
  | noInstance (err : SelectError) (r : BroadcastRecipient) (rest : List BroadcastRecipient)
  | sending (inst : Instance) (text : GoString) (r : BroadcastRecipient) (rest : List BroadcastRecipient)
  | sendFailed (r : BroadcastRecipient) (rest : List BroadcastRecipient)
  | sendOk (inst : Instance) (r : BroadcastRecipient) (rest : List BroadcastRecipient)
  | progress (rest : List BroadcastRecipient)
  | updateProgress
  | markCompleted
  | exiting
  | returned
  deriving DecidableEq, Repr

/- Here `done` is the state of the worker's context. -/
structure Worker where
  broadcast : Broadcast
  done : Bool
  sent : Int
  failed : Int
  pc : Pc

inductive Call where
  | pauseRead (id : UUID)
  | pauseCancel (id : UUID) (handle : Nat)
  | pauseDelete (id : UUID)
  | pauseWrite (id : UUID)
  | resumeFind (id : UUID)
  | resumeWrite (b : Broadcast)
  | resumeStart (b : Broadcast)
  | cancelLock (id : UUID)
  | cancelWrite (id : UUID)
  | returned (ok : Bool)

structure SendRequest where
  tenant : Option UUID
  groupId : Param
  body : Option Json

inductive Request where
  | received (r : SendRequest)
  | selecting (sel : Selecting) (groupId : UUID) (input : SendMessageInput)
  | logging (inst : Instance) (groupId : UUID) (input : SendMessageInput)
  | sending (inst : Instance) (log : UUID) (input : SendMessageInput) (text : GoString)
  | updateFailed (log : UUID) (err : String)
  | updateSent (inst : Instance) (log : UUID)
  | answered (response : Response)

inductive Origin where
  | worker (j : Nat) (row : UUID)
  | request (k : Nat)
  deriving DecidableEq, Repr

structure SendCall where
  origin : Origin
  instanceId : UUID
  toNumber : GoString
  text : GoString
  succeeded : Bool
  deriving DecidableEq, Repr

/- Here `activeJobs` holds the position of the worker that a cancel function belongs to. -/
structure System where
  store : Tables
  strategies : UUID → Option Strategy
  paused : UUID → Bool
  activeJobs : UUID → Option Nat
  workers : List Worker
  calls : List Call
  requests : List Request
  sends : List SendCall

structure Oracle where
  ok : Bool
  err : String
  order : List BroadcastRecipient
  listing : List Instance
  connected : UUID → Bool
  vars : GoMap GoString
  choices : List Nat
  freshId : UUID
  today : Int

inductive Effect where
  | none
  | markStarted (id : UUID)
  | updateProgress (id : UUID) (sent failed : Int)
  | markCompleted (id : UUID)
  | updateStatus (id : UUID) (status : BroadcastStatus)
  | recipientSent (id instanceId : UUID)
  | recipientFailed (id : UUID) (errorCode : String)
  | createMessage (m : MessageLog)
  | messageSent (id : UUID)
  | messageFailed (id : UUID) (errorCode : String)
  | cacheStrategy (groupId : UUID) (s : Strategy)
  | send (call : SendCall)
  | startJob (b : Broadcast)
  | cancelJob (handle : Nat)
  | dropJob (id : UUID)
  | stopJob (id : UUID)

def Worker.cancel (w : Worker) : Worker := {w with done := true}

def newWorker (b : Broadcast) : Worker := ⟨b,false,0,0,.markStarted⟩

def cancelJob (g : System) (handle : Nat) : System :=
  {g with workers := g.workers.modify handle Worker.cancel}

def dropJob (g : System) (id : UUID) : System :=
  {g with activeJobs := Function.update g.activeJobs id none}

def startJob (g : System) (b : Broadcast) : System :=
  {g with activeJobs := Function.update g.activeJobs b.id (some g.workers.length),
          workers := g.workers ++ [newWorker b]}

def stopJob (g : System) (id : UUID) : System :=
  match g.activeJobs id with
  | some handle => dropJob (cancelJob g handle) id
  | none => g

def write (g : System) (s : Tables) : System := {g with store := s}

def perform (g : System) : Effect → System
  | .none => g
  | .markStarted id => write g (markStarted g.store id)
  | .updateProgress id sent failed => write g (updateProgress g.store id sent 0 failed)
  | .markCompleted id => write g (markCompleted g.store id)
  | .updateStatus id status => write g (updateStatus g.store id status)
  | .recipientSent id instanceId => write g (updateRecipientSent g.store id instanceId)
  | .recipientFailed id errorCode => write g (updateRecipientFailed g.store id errorCode)
  | .createMessage m => write g ((createMessage g.store m).getD g.store)
  | .messageSent id => write g (updateMessageSent g.store id)
  | .messageFailed id errorCode => write g (updateMessageFailed g.store id errorCode)
  | .cacheStrategy groupId s => {g with strategies := Function.update g.strategies groupId (some s)}
  | .send call => {g with sends := g.sends ++ [call]}
  | .startJob b => startJob g b
  | .cancelJob handle => cancelJob g handle
  | .dropJob id => dropJob g id
  | .stopJob id => stopJob g id

inductive Selected where
  | next (sel : Selecting)
  | cached (s : Strategy)
  | failed (err : SelectError)
  | chose (inst : Instance)

/- The argument `live` says whether a query under the caller's context is answered. -/
def selectStep (g : System) (groupId : UUID) (live : Bool) (o : Oracle) : Selecting → Option Selected
  | .pauseCheck => some (if g.paused groupId then .failed .paused else .next .lookup)
  | .lookup => match g.strategies groupId with
    | some s => some (.next (.listing s))
    | none => some (.next .group)
  | .group =>
    if live = false then some (.failed (.findGroup o.err))
    else match findGroup g.store groupId with
      | none => some (.failed .groupNotFound)
      | some group => match newStrategy group.strategy with
        | .error e => some (.failed e)
        | .ok s => some (.next (.cache s))
  | .cache s => some (.cached s)
  | .listing s =>
    if live = false then some (.failed (.findAvailable o.err))
    else if Listing g.store groupId o.listing then
      match o.listing.filter (fun i => o.connected i.id) with
      | [] => some (.failed .noConnected)
      | connected => match strategySelect s connected with
        | .error e => some (.failed e)
        | .ok inst => some (.chose inst)
    else none

def chunkSize : Nat := 20

def afterSend (sent failed : Int) (rest : List BroadcastRecipient) : Pc :=
  if (sent + failed) % 10 = 0 then .progress rest else .chunk rest

/- A repository call takes effect when it succeeds, and it fails under a done context.
An answer the database or the maps cannot give disables the step. -/
def workerStep (g : System) (j : Nat) (o : Oracle) (w : Worker) : Option (Worker × Effect) :=
  let live := o.ok && !w.done
  let id := w.broadcast.id
  match w.pc with
  | .markStarted =>
    if live then some ({w with pc := .loop},.markStarted id) else some ({w with pc := .exiting},.none)
  | .loop => some ({w with pc := if w.done then .exiting else .fetch},.none)
  | .fetch =>
    if live = false then some ({w with pc := .updateProgress},.none)
    else match getPendingRecipients g.store id chunkSize with
      | [] => some ({w with pc := .updateProgress},.none)
      | recipients =>
        if (broadcastOptions w.broadcast).shuffleRecipients then
          if o.order.Perm recipients then some ({w with pc := .chunk o.order},.none) else none
        else some ({w with pc := .chunk recipients},.none)
  | .chunk [] => some ({w with pc := .loop},.none)
  | .chunk (r::rest) =>
    some ({w with pc := if w.done then .exiting else .selecting .pauseCheck r rest},.none)
  | .selecting sel r rest => match selectStep g w.broadcast.groupId live o sel with
    | none => none
    | some (.next sel) => some ({w with pc := .selecting sel r rest},.none)
    | some (.cached s) =>
      some ({w with pc := .selecting (.listing s) r rest},.cacheStrategy w.broadcast.groupId s)
    | some (.failed e) => some ({w with pc := .noInstance e r rest},.none)
    | some (.chose inst) =>
      if o.vars.Perm (recipientVars w.broadcast r.recipient) then
        some ({w with pc := .sending inst (messageText w.broadcast o.vars o.choices) r rest},.none)
      else none
  | .noInstance _ r rest =>
    some ({w with failed := w.failed + 1, pc := .chunk rest},
      if live then .recipientFailed r.id "no_instance" else .none)
  | .sending inst text r rest =>
    some ({w with pc := if o.ok then .sendOk inst r rest else .sendFailed r rest},
      .send ⟨.worker j r.id,inst.id,r.recipient,text,o.ok⟩)
  | .sendFailed r rest =>
    some ({w with failed := w.failed + 1, pc := afterSend w.sent (w.failed + 1) rest},
      if live then .recipientFailed r.id "send_failed" else .none)
  | .sendOk inst r rest =>
    some ({w with sent := w.sent + 1, pc := afterSend (w.sent + 1) w.failed rest},
      if live then .recipientSent r.id inst.id else .none)
  | .progress rest =>
    some ({w with pc := .chunk rest},if live then .updateProgress id w.sent w.failed else .none)
  | .updateProgress =>
    some ({w with pc := .markCompleted},if live then .updateProgress id w.sent w.failed else .none)
  | .markCompleted => some ({w with pc := .exiting},if live then .markCompleted id else .none)
  | .exiting => some ({w with pc := .returned},.dropJob id)
  | .returned => none

def callStep (g : System) (ok : Bool) : Call → Option (Call × Effect)
  | .pauseRead id => match g.activeJobs id with
    | some handle => some (.pauseCancel id handle,.none)
    | none => some (.pauseWrite id,.none)
  | .pauseCancel id handle => some (.pauseDelete id,.cancelJob handle)
  | .pauseDelete id => some (.pauseWrite id,.dropJob id)
  | .pauseWrite id => some (.returned ok,if ok then .updateStatus id .paused else .none)
  | .resumeFind id =>
    if ok = false then some (.returned false,.none)
    else match findBroadcast g.store id with
      | none => some (.returned true,.none)
      | some b => some (.resumeWrite b,.none)
  | .resumeWrite b =>
    if ok then some (.resumeStart b,.updateStatus b.id .processing) else some (.returned false,.none)
  | .resumeStart b => some (.returned true,.startJob b)
  | .cancelLock id => some (.cancelWrite id,.stopJob id)
  | .cancelWrite id => some (.returned ok,if ok then .updateStatus id .cancelled else .none)
  | .returned _ => none

def checkSend (g : System) (ok : Bool) (r : SendRequest) : Request :=
  match r.tenant with
  | none => .answered (errUnauthorized fresh "Tenant not found")
  | some tenant => match r.groupId.parsed with
    | none => .answered (errBadRequest fresh (invalidUUID r.groupId))
    | some groupId =>
      if ok = false then .answered (errInternal fresh "Failed to get group")
      else if (findGroup g.store groupId).any (fun group => group.tenantId == tenant) then
        match r.body with
        | none => .answered (errBadRequest fresh "Invalid request body")
        | some body =>
          let d := decodeSendMessageInput body
          if d.ok = false then .answered (errBadRequest fresh "Invalid request body")
          else if d.value.toNumber = [] ∨ d.value.type = [] then
            .answered (errBadRequest fresh "Fields 'to' and 'type' are required")
          else if validPhone d.value.toNumber = false then .answered (errBadRequest fresh invalidPhone)
          else .selecting .pauseCheck groupId d.value
      else .answered (errNotFound fresh "Group not found")

/- What follows the creation of the log: the type and the content are looked at only now. -/
def checkContent (inst : Instance) (log : UUID) (input : SendMessageInput) : Request :=
  if input.type = text "text" then
    match input.content.map decodeContent with
    | some d =>
      if d.ok then .sending inst log input d.value.body
      else .answered (errBadRequest fresh "Invalid content for text message")
    | none => .answered (errBadRequest fresh "Invalid content for text message")
  else .answered (errBadRequest fresh "Only 'text' type is supported in Phase 1")

def requestStep (g : System) (k : Nat) (o : Oracle) : Request → Option (Request × Effect)
  | .received r => some (checkSend g o.ok r,.none)
  | .selecting sel groupId input => match selectStep g groupId o.ok o sel with
    | none => none
    | some (.next sel) => some (.selecting sel groupId input,.none)
    | some (.cached s) => some (.selecting (.listing s) groupId input,.cacheStrategy groupId s)
    | some (.failed e) => some (.answered (err fresh 503 "no_instance_available" e.message),.none)
    | some (.chose inst) => some (.logging inst groupId input,.none)
  | .logging inst groupId input =>
    let m : MessageLog := ⟨o.freshId,some groupId,some inst.id,input.toNumber,input.type,.queued,none,o.today⟩
    if o.ok && (createMessage g.store m).isSome then
      some (checkContent inst o.freshId input,.createMessage m)
    else some (.answered (errInternal fresh "Failed to create message log"),.none)
  | .sending inst log input text =>
    some (if o.ok then .updateSent inst log else .updateFailed log o.err,
      .send ⟨.request k,inst.id,input.toNumber,text,o.ok⟩)
  | .updateFailed log message =>
    some (.answered (errInternal fresh ("Failed to send message: " ++ message)),
      if o.ok then .messageFailed log "send_failed" else .none)
  | .updateSent inst log =>
    some (.answered (ok fresh (.message log inst.id)),if o.ok then .messageSent log else .none)
  | .answered _ => none

inductive Event where
  | startBroadcast (b : Broadcast)
  | pauseBroadcast (id : UUID)
  | resumeBroadcast (id : UUID)
  | cancelBroadcast (id : UUID)
  | call (k : Nat) (ok : Bool)
  | worker (j : Nat) (o : Oracle)
  | send (r : SendRequest)
  | request (k : Nat) (o : Oracle)
  | pauseGroup (id : UUID)
  | resumeGroup (id : UUID)
  | instanceStatus (id : UUID) (status : InstanceStatus)

def openCall (g : System) (c : Call) : System := {g with calls := g.calls ++ [c]}
def setCall (g : System) (k : Nat) (c : Call) : System := {g with calls := g.calls.set k c}
def setWorker (g : System) (j : Nat) (w : Worker) : System := {g with workers := g.workers.set j w}
def setRequest (g : System) (k : Nat) (r : Request) : System := {g with requests := g.requests.set k r}

def step (g : System) : Event → Option System
  | .startBroadcast b => some (perform g (.startJob b))
  | .pauseBroadcast id => some (openCall g (.pauseRead id))
  | .resumeBroadcast id => some (openCall g (.resumeFind id))
  | .cancelBroadcast id => some (openCall g (.cancelLock id))
  | .call k ok => do
    let c ← g.calls[k]?
    let (next,effect) ← callStep g ok c
    some (perform (setCall g k next) effect)
  | .worker j o => do
    let w ← g.workers[j]?
    let (next,effect) ← workerStep g j o w
    some (perform (setWorker g j next) effect)
  | .send r => some {g with requests := g.requests ++ [.received r]}
  | .request k o => do
    let r ← g.requests[k]?
    let (next,effect) ← requestStep g k o r
    some (perform (setRequest g k next) effect)
  | .pauseGroup id => some {g with paused := Function.update g.paused id true}
  | .resumeGroup id => some {g with paused := Function.update g.paused id false}
  | .instanceStatus id status => some (write g (setInstanceStatus g.store id status))

structure Fresh (g : System) : Prop where
  workers : g.workers = []
  calls : g.calls = []
  requests : g.requests = []
  sends : g.sends = []

def boot (s : Tables) : System := ⟨s,fun _ => none,fun _ => false,fun _ => none,[],[],[],[]⟩

theorem freshBoot (s : Tables) : Fresh (boot s) := ⟨rfl,rfl,rfl,rfl⟩

def sampleGroup : Group := ⟨1,100,.rotation⟩

def sampleInstance : Instance := ⟨11,1,none,.available,0,200,30,0,0,1⟩

def sampleContent : Json := .obj [(text "body",.str (text "oi"))]

def sampleBroadcast (total : Int) : Broadcast :=
  ⟨21,1,.pending,total,0,0,0,0,text "text",sampleContent,.obj [],encodeOptions noOptions,0⟩

def sampleRecipient (id : UUID) : BroadcastRecipient := ⟨id,21,text "5511999999999",none,.pending,none⟩

def sampleTables (ids : List UUID) : Tables :=
  ⟨[sampleGroup],[sampleInstance],[sampleBroadcast ids.length],ids.map sampleRecipient,[]⟩

def sampleBody (toNumber type : String) (content : Json) : Json :=
  .obj [(text "to",.str (text toNumber)),(text "type",.str (text type)),(text "content",content)]

def sampleParam (id : UUID) : Param := ⟨toString id,some id⟩

def sampleSend : SendRequest := ⟨some 100,sampleParam 1,some (sampleBody "5511999999999" "text" sampleContent)⟩

def accepts : Oracle := ⟨true,"",[],[sampleInstance],fun _ => true,[],[],41,0⟩
def refuses : Oracle := {accepts with ok := false, err := "timeout"}

def works (j n : Nat) (o : Oracle) : List Event := List.replicate n (.worker j o)
def calls (k n : Nat) : List Event := List.replicate n (.call k true)
def serves (k n : Nat) (o : Oracle) : List Event := List.replicate n (.request k o)

end WppGateway.Gateway
