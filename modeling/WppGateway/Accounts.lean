import WppGateway.ResourceHandlers
import WppGateway.Sha256
import WppGateway.Webhooks

/-! Tenants: their repository, the middleware that makes a tenant of an API key, the handlers of the account, and the
routes behind the middleware. The limiter in front of them is left out: a call that it turns away changes nothing. -/
namespace WppGateway.Accounts
open GoJson Domain Store Resources Manager Service ResourceHandlers

structure TenantRow where
  id : UUID
  name : GoString
  apiKeyHash : GoString
  plan : GoString
  maxGroups : Int
  maxInstances : Int
  isActive : Bool
  createdAt : Int
  deriving DecidableEq, Repr

def hashAPIKey (apiKey : GoString) : GoString := Webhooks.hexEncode (Sha256.sum256 apiKey)

/-! TenantRepo. -/

def findByAPIKey (rows : List TenantRow) (apiKey : GoString) : Option TenantRow :=
  rows.find? (fun t => t.apiKeyHash == hashAPIKey apiKey)

/- The other columns have their defaults. The id and the hash are unique. -/
def create (rows : List TenantRow) (id : UUID) (createdAt : Int) (name apiKey : GoString) :
    Option (List TenantRow × TenantRow) := do
  let name ← varchar 255 name
  let hash ← varchar 64 (hashAPIKey apiKey)
  if rows.any (fun t => t.id == id || t.apiKeyHash == hash) then none
  else
    let t : TenantRow := ⟨id,name,hash,text "basic",5,20,true,createdAt⟩
    some (rows ++ [t],t)

def rename (name : Option GoString) (t : TenantRow) : TenantRow := {t with name := name.getD t.name}

/- COALESCE keeps the name where the parameter is null. -/
def update (rows : List TenantRow) (id : UUID) (name : Option GoString) :
    Option (List TenantRow × Option TenantRow) := do
  let name ← nullable (varchar 255) name
  some (Table.update TenantRow.id id (rename name) rows,(rows.find? (fun t => t.id == id)).map (rename name))

def delete (rows : List TenantRow) (id : UUID) : List TenantRow := rows.filter (fun t => t.id != id)

structure Server where
  tenants : List TenantRow
  state : State

inductive Shown where
  | content (c : Content)
  | tenant (t : Option TenantRow)
  | registered (t : TenantRow) (apiKey : GoString)
  | usage (groups : Nat) (maxGroups : Int) (instances : Nat) (maxInstances : Int)
  | groups (rows : List GroupRow)

structure Answer where
  status : Nat
  shown : Option Shown

def answer (r : Reply) : Answer := ⟨r.status,r.content.map .content⟩

def hidden (t : TenantRow) : TenantRow := {t with apiKeyHash := []}

def errForbidden (message : String) : Reply := err 403 "forbidden" message

/-! The middleware. A header that is missing is empty; `found` says that the query is answered. -/

def auth (rows : List TenantRow) (apiKey : GoString) (found : Bool) : Except Reply TenantRow :=
  if apiKey = [] then .error (errUnauthorized "Missing X-API-Key header")
  else if found = false then .error (errInternal "Failed to validate API key")
  else match findByAPIKey rows apiKey with
    | none => .error (errUnauthorized "Invalid API key")
    | some t => if t.isActive = false then .error (errForbidden "Account is deactivated") else .ok t

/-! TenantHandler. -/

abbrev RandomBytes := {bytes : GoString // bytes.length = 32}

def generateAPIKey (random : RandomBytes) : GoString := text "wpp_" ++ Webhooks.hexEncode random.val

structure Registering where
  random : Option RandomBytes
  write : Bool
  id : UUID
  createdAt : Int

def decodeCreateTenantInput : Json → Decoded GoString :=
  decodeStruct (fun name key value => if named key "name" then decodeString name value else ⟨name,.ok⟩) []

def decodeUpdateTenantInput : Json → Decoded (Option GoString) :=
  decodeStruct (fun name key value =>
    if named key "name" then decodePointer [] decodeString name value else ⟨name,.ok⟩) none

def parsed {α : Type} (decode : Json → Decoded α) (body : Option Json) : Option α := do
  let d := decode (← body)
  if d.ok then some d.value else none

def createTenant (rows : List TenantRow) (body : Option Json) (a : Registering) : List TenantRow × Answer :=
  match parsed decodeCreateTenantInput body with
  | none => (rows,answer (errBadRequest "Invalid request body"))
  | some name =>
    if name = [] then (rows,answer (errBadRequest "Name is required"))
    else match a.random with
      | none => (rows,answer (errInternal "Failed to generate API key"))
      | some random => match (if a.write then create rows a.id a.createdAt name (generateAPIKey random) else none) with
        | none => (rows,answer (errInternal "Failed to create tenant"))
        | some (later,t) => (later,⟨201,some (.registered (hidden t) (generateAPIKey random))⟩)

def updateAccount (rows : List TenantRow) (t : TenantRow) (q : Req) (a : Answers) : List TenantRow × Answer :=
  match parseBody decodeUpdateTenantInput q with
  | none => (rows,answer (errBadRequest "Invalid request body"))
  | some name => match (if a.write then update rows t.id name else none) with
    | none => (rows,answer (errInternal "Failed to update account"))
    | some (later,updated) => (later,⟨200,some (.tenant (updated.map hidden))⟩)

def getUsage (s : State) (t : TenantRow) (a : Answers) : Answer :=
  if a.group = false then answer (errInternal "Failed to count groups")
  else if a.instance_ = false then answer (errInternal "Failed to count instances")
  else ⟨200,some (.usage (countGroups s.managed.rows t.id) t.maxGroups (countInstances s.managed.rows t.id) t.maxInstances)⟩

def groupsOf (r : Rows) (tenantId : UUID) : List GroupRow := (r.groups.filter (fun g => g.tenantId == tenantId)).reverse

def groupList (s : State) (t : TenantRow) (a : Answers) : Answer :=
  if a.read = false then answer (errInternal "Failed to list groups")
  else ⟨200,some (.groups ((groupsOf s.managed.rows t.id).map (fun g => {g with webhookSecret := none})))⟩

inductive Route where
  | resource (e : Endpoint)
  | groupList
  | getAccount
  | updateAccount
  | getUsage
  deriving DecidableEq, Repr

def tenantOf (t : TenantRow) : Tenant := ⟨t.id,t.maxGroups,t.maxInstances⟩

def serveRoute (s : Server) (t : TenantRow) (q : Req) (a : Answers) : Route → Server × Answer
  | .resource e =>
    let (state,reply) := handle e s.state {q with tenant := some (tenantOf t)} a
    ({s with state := state},answer reply)
  | .groupList => (s,groupList s.state t a)
  | .getAccount => (s,⟨200,some (.tenant (some (hidden t)))⟩)
  | .updateAccount =>
    let (tenants,reply) := updateAccount s.tenants t q a
    ({s with tenants := tenants},reply)
  | .getUsage => (s,getUsage s.state t a)

inductive Call where
  | register (body : Option Json) (a : Registering)
  | v1 (apiKey : GoString) (found : Bool) (route : Route) (q : Req) (a : Answers)

def serve (s : Server) : Call → Server × Answer
  | .register body a =>
    let (tenants,reply) := createTenant s.tenants body a
    ({s with tenants := tenants},reply)
  | .v1 apiKey found route q a => match auth s.tenants apiKey found with
    | .error reply => (s,answer reply)
    | .ok t => serveRoute s t q a route

end WppGateway.Accounts
