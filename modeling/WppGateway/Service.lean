import WppGateway.Blacklist
import WppGateway.InstanceChoice
import WppGateway.Manager

/-! What the handlers of groups, instances, messages, the blacklist and the webhook
work on: the tables, the maps of the manager and of the orchestrator, the queue of the
emitter, the request, and the reply. -/
namespace WppGateway.Service
open GoJson Domain Store Table Selection Gateway InstanceChoice Http Resources Manager Blacklist

structure EmitRequest where
  url : GoString
  secret : GoString
  name : String
  groupId : UUID
  timestamp : String
  message : String
  deriving DecidableEq, Repr

/- Messages are in the order of their queueing; `sends` are the calls of SendMessage. -/
structure State where
  managed : Managed
  messages : List MessageLog
  blacklist : List BlacklistEntry
  strategies : UUID → Option Strategy
  paused : UUID → Bool
  webhooks : List EmitRequest
  sends : List (UUID × GoString × GoString)

/- The request as fiber hands it over; an empty query parameter counts as absent. -/
structure Req where
  tenant : Option Tenant
  group : Param
  instance_ : Param
  message : Param
  number : GoString
  body : Option Json
  limit : Option Int
  offset : Option Int
  status : Option GoString
  recipient : Option GoString
  instanceFilter : Option UUID

inductive QRItem where
  | code (code : String) (png : Option String)
  | event (name : String)
  | timeout
  deriving DecidableEq, Repr

/- Which queries are answered, and what the database, the clock, the libraries and WhatsApp make of the rest. -/
structure Answers where
  group : Bool
  instance_ : Bool
  message : Bool
  read : Bool
  write : Bool
  mark : Bool
  attempt : Attempt
  qr : QRItem
  groupError : Option String
  listingError : Option String
  sendError : Option String
  id : UUID
  ids : Nat → UUID
  inserted : Nat → Bool
  createdAt : Int
  today : Int
  timestamp : String
  secret : GoString
  jsonb : Json → Option Json
  parseRequestURI : GoString → Except String GoString

structure InstanceInfo where
  id : UUID
  phoneNumber : Option GoString
  displayName : Option GoString
  status : InstanceStatus
  wsConnected : Bool
  priority : Int
  dailyBudget : Int
  messagesToday : Int
  hourlyBudget : Int
  messagesHour : Int
  deliveryRate : Rat
  deriving DecidableEq, Repr

structure GroupStatus where
  groupId : UUID
  name : GoString
  strategy : Strategy
  isActive : Bool
  isPaused : Bool
  available : Nat
  resting : Nat
  warming : Nat
  banned : Nat
  disconnected : Nat
  totalBudget : Int
  totalSentToday : Int
  instances : List InstanceInfo
  deriving DecidableEq, Repr

inductive Content where
  | error (code message : String)
  | group (g : Option GroupRow)
  | groupStatus (s : GroupStatus)
  | status (status : String)
  | note (status message : String)
  | row (i : InstanceRow)
  | instances (rows : List InstanceRow)
  | instanceStatus (id : UUID) (status : InstanceStatus) (phone : Option GoString) (wsConnected : Bool) (rate : Rat)
  | qrCode (code base64 : String) (expiresIn : Nat)
  | pairingCode (code message : String)
  | sent (messageId : UUID) (status : String) (instanceId : UUID)
  | message (m : MessageLog)
  | messages (rows : List MessageLog) (page : Meta)
  | entries (rows : List BlacklistEntry) (page : Meta)
  | added (n : Nat)
  | webhook (url : Option GoString) (events : Option (List GoString))

def shown (g : GroupRow) : Content := .group (some {g with webhookSecret := none})

structure Reply where
  status : Nat
  content : Option Content

def ok (c : Content) : Reply := ⟨200,some c⟩
def created (c : Content) : Reply := ⟨201,some c⟩
def noContent : Reply := ⟨204,none⟩
def err (status : Nat) (code message : String) : Reply := ⟨status,some (.error code message)⟩
def errBadRequest (message : String) : Reply := err 400 "bad_request" message
def errUnauthorized (message : String) : Reply := err 401 "unauthorized" message
def errNotFound (message : String) : Reply := err 404 "not_found" message
def errInternal (message : String) : Reply := err 500 "internal_error" message

def manage (s : State) (m : Managed) : State := {s with managed := m}

def writeRows (s : State) (r : Rows) : State := {s with managed := {s.managed with rows := r}}

def tables (s : State) : Tables :=
  ⟨s.managed.rows.groups.map GroupRow.toGroup,s.managed.rows.instances.map InstanceRow.toInstance,[],[],s.messages⟩

/- The instances and the blacklist go with the group; its messages stay without it. -/
def dropGroup (s : State) (id : UUID) : State :=
  let gone (i : UUID) : Bool := s.managed.rows.instances.any (fun row => row.id == i && row.groupId == id)
  {writeRows s (deleteGroup s.managed.rows id) with
    messages := s.messages.map (fun m =>
      {m with groupId := m.groupId.filter (· != id), instanceId := m.instanceId.filter (fun i => !gone i)})
    blacklist := s.blacklist.filter (fun e => e.groupId != id)}

def dropInstance (s : State) (id : UUID) : State :=
  {writeRows s (deleteInstance s.managed.rows id) with
    messages := s.messages.map (fun m => {m with instanceId := m.instanceId.filter (· != id)})}

def queueCapacity : Nat := 1000

/- A full queue drops the event. -/
def emit (s : State) (e : EmitRequest) : State :=
  if e.url = [] then s
  else if s.webhooks.length < queueCapacity then {s with webhooks := s.webhooks ++ [e]}
  else s

def wsConnected (s : State) (id : UUID) : Bool := (connectionOf s.managed id).any (isConnected s.managed)

def instanceInfo (s : State) (i : InstanceRow) : InstanceInfo :=
  ⟨i.id,i.phoneNumber,i.displayName,i.status,wsConnected s i.id,i.priority,i.dailyBudget,i.messagesToday,
    i.hourlyBudget,i.messagesHour,i.deliveryRate⟩

def getGroupStatus (s : State) (id : UUID) (a : Answers) : Option GroupStatus := do
  let group ← if a.groupError.isNone then groupById s.managed.rows id else none
  let rows ← if a.read then some (instancesOf s.managed.rows id) else none
  let counted (status : InstanceStatus) : Nat := rows.countP (fun i => i.status == status)
  some ⟨id,group.name,group.strategy,group.isActive,s.paused id,counted .available,counted .resting,counted .warming,
    counted .banned,counted .disconnected + counted .connecting,(rows.map (fun i => i.dailyBudget)).sum,
    (rows.map (fun i => i.messagesToday)).sum,rows.map (instanceInfo s)⟩

/- The part of the state that the orchestrator sees. Rows of one priority keep table order. -/
def orchestrator (s : State) : System := {boot (tables s) with strategies := s.strategies, paused := s.paused}

def lookups (s : State) (groupId : UUID) (a : Answers) : Lookups where
  groupError := a.groupError
  listing := match a.listingError with
    | some error => .error error
    | none => .ok ((availableOf (tables s) groupId).insertionSort (fun i j => i.priority ≥ j.priority))
  connected := wsConnected s

/- A strategy that was found is kept, whatever comes after. -/
def select (s : State) (groupId : UUID) (a : Answers) : State × Except SelectError Instance :=
  let g := orchestrator s
  let kept := match getStrategy g g groupId a.groupError with
    | .ok strategy => {s with strategies := Function.update s.strategies groupId (some strategy)}
    | .error _ => s
  (if s.paused groupId then s else kept,selectInstance g g g groupId (lookups s groupId a))

def serving (rows : Rows) : State := ⟨idle rows,[],[],fun _ => none,fun _ => false,[],[]⟩

def answering : Answers :=
  ⟨true,true,true,true,true,true,succeeds,.timeout,none,none,none,12,id,fun _ => true,0,0,"",[],some,fun _ => .ok []⟩

def asking (tenant : Tenant) (group instance_ : UUID) : Req :=
  ⟨some tenant,⟨toString group,some group⟩,⟨toString instance_,some instance_⟩,⟨"",none⟩,[],some (.obj []),none,none,none,
    none,none⟩

end WppGateway.Service
