import WppGateway.Resources

/-! The instance manager: its map of connections beside the rows, and every client that it
has made. Each function here runs under the lock of the map from its first statement on. -/
namespace WppGateway.Manager
open Domain Table Resources

structure Connection where
  id : UUID
  groupId : UUID
  client : Nat
  deriving DecidableEq, Repr

structure Client where
  instanceId : UUID
  live : Bool
  online : Bool
  deriving DecidableEq, Repr

structure Managed where
  rows : Rows
  connections : List Connection
  clients : List Client

def connectionOf (s : Managed) (id : UUID) : Option Connection := s.connections.find? (fun c => c.id == id)

def isConnected (s : Managed) (c : Connection) : Bool := (s.clients[c.client]?).any (fun k => k.live && k.online)

/- What the rest of the world answers to one call: the errors of the two queries, whether the device has
been paired, the errors of the client, and whether the updates of the status succeed. -/
structure Attempt where
  find : Option String
  mapping : Option String
  paired : Bool
  connecting : Bool
  channel : Option String
  connect : Option String
  pairing : Except String String
  disconnected : Bool

def register (s : Managed) (id groupId : UUID) : Managed :=
  {s with
    connections := s.connections.filter (fun c => c.id != id) ++ [⟨id,groupId,s.clients.length⟩]
    clients := s.clients ++ [⟨id,false,false⟩]}

def unregister (s : Managed) (id : UUID) : Managed := {s with connections := s.connections.filter (fun c => c.id != id)}

def goLive (s : Managed) (client : Nat) : Managed :=
  {s with clients := s.clients.modify client (fun k => {k with live := true, online := true})}

def disconnect (clients : List Client) (client : Nat) : List Client :=
  clients.modify client (fun k => {k with live := false, online := false})

def updateStatus (s : Managed) (id : UUID) (status : InstanceStatus) (ok : Bool) : Managed :=
  if ok then {s with rows := setStatus s.rows id status} else s

def device (s : Managed) (id : UUID) (a : Attempt) : Except String InstanceRow :=
  match a.find with
  | some error => .error ("failed to find instance: " ++ error)
  | none => match instanceById s.rows id with
    | none => .error "instance not found"
    | some inst => match a.mapping with
      | some error => .error ("failed to get device: failed to get device mapping: " ++ error)
      | none => .ok inst

theorem deviceRow {s : Managed} {id : UUID} {a : Attempt} {inst : InstanceRow} (found : device s id a = .ok inst) :
    instanceById s.rows id = some inst := by
  unfold device at found
  split at found
  · cases found
  split at found
  · cases found
  next row here =>
    split at found <;> cases found
    exact here

def connect (a : Attempt) : Except String Bool :=
  match (if a.paired then none else a.channel) with
  | some error => .error ("failed to get QR channel: " ++ error)
  | none => match a.connect with
    | some error => .error ("failed to connect: " ++ error)
    | none => .ok (!a.paired)

def startInstance (s : Managed) (id : UUID) (a : Attempt) : Managed × Except String Bool :=
  if (connectionOf s id).any (isConnected s) then (s,.error "instance already connected")
  else match device s id a with
    | .error error => (s,.error error)
    | .ok inst =>
      let t := updateStatus (register s id inst.groupId) id .connecting a.connecting
      match connect a with
      | .error error => (updateStatus (unregister t id) id .disconnected a.disconnected,.error error)
      | .ok needsQR => (goLive t s.clients.length,.ok needsQR)

def pairPhone (s : Managed) (id : UUID) (a : Attempt) : Managed × Except String String :=
  match device s id a with
  | .error error => (s,.error error)
  | .ok inst =>
    let t := register s id inst.groupId
    match a.connect with
    | some error => (unregister t id,.error ("failed to connect: " ++ error))
    | none => match a.pairing with
      | .error error => (unregister (goLive t s.clients.length) id,.error ("failed to pair phone: " ++ error))
      | .ok code => (goLive t s.clients.length,.ok code)

def stopInstance (s : Managed) (id : UUID) : Managed :=
  match connectionOf s id with
  | none => s
  | some c => {unregister s id with clients := disconnect s.clients c.client}

/- The lock is free between the two. -/
def restartInstance (s : Managed) (id : UUID) (a : Attempt) : Managed × Except String Bool :=
  startInstance (stopInstance s id) id a

def disconnectAll (s : Managed) : Managed :=
  {s with connections := [], clients := s.connections.foldl (fun clients c => disconnect clients c.client) s.clients}

section Operations
variable {s : Managed} {id : UUID}

@[simp] theorem connectionUnregister (s : Managed) (id other : UUID) :
    connectionOf (unregister s id) other = if other = id then none else connectionOf s other :=
  findWithout Connection.id s.connections id other

@[simp] theorem connectionRegister (s : Managed) (id groupId other : UUID) :
    connectionOf (register s id groupId) other =
      if other = id then some ⟨id,groupId,s.clients.length⟩ else connectionOf s other := by
  have others := connectionUnregister s id other
  simp only [connectionOf,unregister] at others
  simp only [connectionOf,register,List.find?_append,others]
  split
  · next same => simp [same]
  · next different => simp [Ne.symm different]

@[simp] theorem connectionGoLive (s : Managed) (client : Nat) (other : UUID) :
    connectionOf (goLive s client) other = connectionOf s other := rfl

@[simp] theorem connectionUpdateStatus (s : Managed) (id : UUID) (status : InstanceStatus) (ok : Bool) (other : UUID) :
    connectionOf (updateStatus s id status ok) other = connectionOf s other := by
  unfold updateStatus; split <;> rfl

@[simp] theorem clientsUpdateStatus (s : Managed) (id : UUID) (status : InstanceStatus) (ok : Bool) :
    (updateStatus s id status ok).clients = s.clients := by
  unfold updateStatus; split <;> rfl

@[simp] theorem clientsUnregister (s : Managed) (id : UUID) : (unregister s id).clients = s.clients := rfl

@[simp] theorem clientsRegister (s : Managed) (id groupId : UUID) :
    (register s id groupId).clients = s.clients ++ [⟨id,false,false⟩] := rfl

@[simp] theorem stopRows (m : Managed) (id : UUID) : (stopInstance m id).rows = m.rows := by
  unfold stopInstance
  split <;> rfl

theorem clientsGoLive {s t : Managed} (made : t.clients = s.clients ++ [⟨id,false,false⟩]) :
    (goLive t s.clients.length).clients = s.clients ++ [⟨id,true,true⟩] := by
  simp only [goLive,made,modifyLast]

end Operations
def idle (rows : Rows) : Managed := ⟨rows,[],[]⟩

def succeeds : Attempt := ⟨none,none,true,true,none,none,.ok "ABCD-1234",true⟩

end WppGateway.Manager
