import WppGateway.Domain

/-! Responses as the handlers build them up. `Status(s)` stays with the request until
another status is set: OK and List write a body only. -/
namespace WppGateway.Http
open GoJson Domain

structure GroupMetrics where
  sent : Nat
  delivered : Nat
  failed : Nat
  deliveryRate : Rat
  activeInstances : Nat
  bannedInstances : Nat
  deriving DecidableEq, Repr

structure DailyRow where
  date : Int
  sent : Nat
  delivered : Nat
  read : Nat
  failed : Nat
  deliveryRate : Rat
  deriving DecidableEq, Repr

structure InstanceMetric where
  id : UUID
  phone : Option GoString
  status : InstanceStatus
  dailyBudget : Int
  messagesToday : Int
  deliveryRate : Rat
  totalSent : Nat
  totalFailed : Nat
  deriving DecidableEq, Repr

inductive Data where
  | status (status : String)
  | message (messageId instanceId : UUID)
  | progress (p : BroadcastProgress)
  | created (id : UUID) (status : BroadcastStatus) (total minutes createdAt : Int)
  | broadcasts (page : List Broadcast)
  | groupMetrics (m : GroupMetrics)
  | daily (from_ to_ : String) (rows : List DailyRow)
  | instances (rows : List InstanceMetric)

structure Meta where
  total : Int
  limit : Int
  offset : Int
  deriving DecidableEq, Repr

inductive Body where
  | error (code message : String)
  | data (d : Data)
  | list (d : Data) (m : Meta)

structure Response where
  status : Nat
  body : Option Body

def fresh : Response := ⟨200,none⟩

def ok (c : Response) (d : Data) : Response := {c with body := some (.data d)}
def created (_ : Response) (d : Data) : Response := ⟨201,some (.data d)⟩
def list (c : Response) (d : Data) (m : Meta) : Response := {c with body := some (.list d m)}
def err (_ : Response) (status : Nat) (code message : String) : Response := ⟨status,some (.error code message)⟩

def errBadRequest (c : Response) (message : String) : Response := err c 400 "bad_request" message
def errUnauthorized (c : Response) (message : String) : Response := err c 401 "unauthorized" message
def errNotFound (c : Response) (message : String) : Response := err c 404 "not_found" message
def errInternal (c : Response) (message : String) : Response := err c 500 "internal_error" message

structure Param where
  raw : String
  parsed : Option UUID
  deriving DecidableEq, Repr

def invalidUUID (p : Param) : String := "invalid UUID: " ++ p.raw

/- ValidatePhone: `^\d{10,15}$`. -/
def validPhone (phone : GoString) : Bool :=
  phone.all decimal && 10 ≤ phone.length && phone.length ≤ 15

def invalidPhone : String := "invalid phone number: must be 10-15 digits"

end WppGateway.Http
