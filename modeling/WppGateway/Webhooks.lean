import WppGateway.GoJson
import WppGateway.RetryQueue
import WppGateway.Sha256

/-! The webhook emitter: its channel, the goroutine that delivers, and the signature. -/
namespace WppGateway.Webhooks
open GoJson Runs RetryQueue

structure Payload (δ : Type) where
  name : GoString
  groupId : GoString
  instanceId : GoString
  phone : GoString
  timestamp : GoString
  data : δ

structure EmitRequest (δ : Type) where
  url : GoString
  secret : GoString
  event : Payload δ

/- The emitter's own number of retries, and what it uses of the standard library: json.Marshal of an event, the
HMAC of a key and a message with SHA-256, and the error of http.NewRequest for a URL. -/
structure Emitter (δ : Type) where
  maxRetries : Int
  marshal : Payload δ → Option GoString
  hmac : GoString → GoString → GoString
  newRequest : GoString → Option String

def hexDigit (n : UInt8) : UInt8 := if n < 10 then 48 + n else 87 + n

def hexEncode (bytes : GoString) : GoString := bytes.flatMap (fun (b : UInt8) => [hexDigit (b >>> 4),hexDigit (b &&& 15)])

variable {δ : Type}

def sign (e : Emitter δ) (payload secret : GoString) : GoString := text "sha256=" ++ hexEncode (e.hmac secret payload)

structure Post where
  url : GoString
  body : GoString
  signature : GoString
  eventType : GoString
  deriving DecidableEq, Repr

inductive Response where
  | failed (err : String)
  | status (code : Nat)
  deriving DecidableEq, Repr

def Response.fails : Response → Bool
  | .failed _ => true
  | .status code => decide (500 ≤ code)

/- The attempts that send makes and its error. A URL that http.NewRequest refuses does not get to the client. -/
def send (e : Emitter δ) (p : Post) (r : Response) : List (Post × Response) × Option String :=
  match e.newRequest p.url with
  | some err => ([],some ("failed to create request: " ++ err))
  | none => ([(p,r)],match r with
    | .failed err => some ("request failed: " ++ err)
    | .status code => if 500 ≤ code then some ("server error: status " ++ toString code) else none)

inductive Stage (δ : Type) where
  | select
  | deliver (req : EmitRequest δ) (body signature : GoString) (attempt : Nat)

/- The log has every attempt with the answer it got; `accepted` has what went into the channel. -/
structure State (δ : Type) where
  events : List (EmitRequest δ)
  stage : Stage δ
  log : List (Post × Response)
  accepted : List (EmitRequest δ)

def start : State δ := ⟨[],.select,[],[]⟩

def channelCapacity : Nat := 1000

def emit (s : State δ) (req : EmitRequest δ) : State δ :=
  if req.url = [] then s
  else if s.events.length < channelCapacity then
    {s with events := s.events ++ [req], accepted := s.accepted ++ [req]}
  else s

def turn (e : Emitter δ) (s : State δ) (r : Response) : Option (State δ) :=
  match s.stage with
  | .select => match s.events with
    | [] => none
    | req::rest => match e.marshal req.event with
      | none => some {s with events := rest}
      | some body => some {s with events := rest, stage := .deliver req body (sign e body req.secret) 0}
  | .deliver req body signature attempt =>
    if attempt < e.maxRetries then
      match send e ⟨req.url,body,signature,req.event.name⟩ r with
      | (made,some _) => some {s with log := s.log ++ made, stage := .deliver req body signature (attempt+1)}
      | (made,none) => some {s with log := s.log ++ made, stage := .select}
    else some {s with stage := .select}

inductive Event (δ : Type) where
  | emit (req : EmitRequest δ)
  | turn (r : Response)

def step (e : Emitter δ) (s : State δ) : Event δ → Option (State δ)
  | .emit req => some (emit s req)
  | .turn r => turn e s r

def post (e : Emitter δ) (req : EmitRequest δ) : Option Post :=
  (e.marshal req.event).map (fun body => ⟨req.url,body,sign e body req.secret,req.event.name⟩)

def policy (e : Emitter δ) : Policy (EmitRequest δ) Post Response where
  slots := channelCapacity
  tries := e.maxRetries.toNat
  wanted req := req.url != []
  prepare := post e
  reaches p := (e.newRequest p.url).isNone
  fails := Response.fails

theorem sendRefused {e : Emitter δ} {p : Post} (refused : (policy e).reaches p = false) (r : Response) :
    ∃ err, send e p r = ([],some err) := by
  cases answer : e.newRequest p.url with
  | none => simp [policy,answer] at refused
  | some err => exact ⟨_,by simp only [send,answer]; rfl⟩

theorem sendReaches {e : Emitter δ} {p : Post} (reached : (policy e).reaches p = true) (r : Response) :
    ∃ err, send e p r = ([(p,r)],err) ∧ err.isSome = r.fails := by
  have answer : e.newRequest p.url = none := Option.isNone_iff_eq_none.mp reached
  cases r with
  | failed err => exact ⟨_,by simp only [send,answer]; rfl,rfl⟩
  | status code =>
    refine ⟨_,by simp only [send,answer]; rfl,?_⟩
    by_cases server : 500 ≤ code <;> simp [server,Response.fails]

def line (s : State δ) : Line (EmitRequest δ) Post Response where
  queue := s.events
  hand := match s.stage with
    | .select => none
    | .deliver req body signature attempt => some (req,⟨req.url,body,signature,req.event.name⟩,attempt)
  log := s.log
  accepted := s.accepted

def signal : Event δ → RetryQueue.Event (EmitRequest δ) Response
  | .emit req => .offer req
  | .turn r => .turn r

theorem lineEmit (e : Emitter δ) (s : State δ) (req : EmitRequest δ) :
    line (emit s req) = offer (policy e) (line s) req := by
  by_cases empty : req.url = []
  · simp [emit,offer,accepts,policy,empty]
  · by_cases room : s.events.length < channelCapacity
    · have accepted : accepts (policy e) (line s) req = true := by simp [accepts,policy,line,empty,room]
      simp only [emit,offer,if_neg empty,if_pos room,accepted]
      rfl
    · have refused : accepts (policy e) (line s) req = false := by simp [accepts,policy,line,room]
      simp only [emit,offer,if_neg empty,if_neg room,refused]
      rfl

theorem lineTurn (e : Emitter δ) (s : State δ) (r : Response) :
    (turn e s r).map line = RetryQueue.turn (policy e) (line s) r := by
  obtain ⟨events,stage,log,accepted⟩ := s
  cases stage with
  | select =>
    cases events with
    | nil => rfl
    | cons req rest => cases marshalled : e.marshal req.event <;> simp [turn,RetryQueue.turn,line,policy,post,marshalled]
  | deliver req body signature attempt =>
    have bound : (attempt : Int) < e.maxRetries ↔ attempt < (policy e).tries := by
      simp only [policy]
      omega
    by_cases more : attempt < (policy e).tries
    · cases reached : (policy e).reaches ⟨req.url,body,signature,req.event.name⟩ with
      | false =>
        obtain ⟨err,refused⟩ := sendRefused reached r
        simp [turn,RetryQueue.turn,line,bound,more,refused,reached]
      | true =>
        obtain ⟨err,sent,same⟩ := sendReaches reached r
        have failed : (policy e).fails r = err.isSome := same.symm
        cases err <;> simp [turn,RetryQueue.turn,line,bound,more,sent,reached,failed]
    · simp [turn,RetryQueue.turn,line,bound,more]

theorem lineStep (e : Emitter δ) (s : State δ) (event : Event δ) :
    (step e s event).map line = RetryQueue.step (policy e) (line s) (signal event) := by
  cases event with
  | emit req => exact congrArg some (lineEmit e s req)
  | turn r => exact lineTurn e s r

def Admits (s : State δ) (event : Event δ) (t : State δ) : Prop := t.accepted = match event with
  | .emit req => if req.url = [] ∨ channelCapacity ≤ s.events.length then s.accepted else s.accepted ++ [req]
  | .turn _ => s.accepted

theorem admits (e : Emitter δ) (s : State δ) (event : Event δ) (t : State δ) (moved : step e s event = some t) :
    Admits s event t := by
  cases event with
  | emit req =>
    cases moved
    simp only [Admits,emit]
    by_cases empty : req.url = []
    · simp [empty]
    · by_cases room : s.events.length < channelCapacity
      · simp [empty,room,Nat.not_le.mpr room]
      · simp [room,Nat.not_lt.mp room]
  | turn r =>
    have mirrored : RetryQueue.turn (policy e) (line s) r = some (line t) := by
      have moved : turn e s r = some t := moved
      rw [← lineTurn,moved]
      rfl
    exact turnAccepted mirrored

def Settled (e : Emitter δ) (s : State δ) : Prop :=
  s.stage = .select ∧ s.events = [] ∧
    ∃ blocks, List.Forall₂ (Finished (policy e)) s.accepted blocks ∧ s.log = blocks.flatten

theorem idleSettled {e : Emitter δ} {s : State δ} (idle : Idle (line s)) (orderly : Orderly (policy e) (line s)) :
    Settled e s := by
  obtain ⟨noHand,drained⟩ := idle
  obtain ⟨done,blocks,current,order,finished,log,hand⟩ := orderly
  have atSelect : s.stage = .select := by
    cases stage : s.stage with
    | select => rfl
    | deliver => simp [line,stage] at noHand
  rw [noHand] at hand
  cases hand
  have all : (line s).accepted = done := by simpa [inHand,noHand,drained] using order
  have whole : (line s).log = blocks.flatten := by simpa using log
  subst all
  exact ⟨atSelect,drained,blocks,finished,whole⟩

theorem settles (e : Emitter δ) {s : State δ} (orderly : Orderly (policy e) (line s)) (answers : Nat → Response) :
    ∃ n t, run (step e) s ((List.range n).map (fun j => .turn (answers j))) = some t ∧ t.accepted = s.accepted ∧
      Settled e t := by
  obtain ⟨n,end_,ran,idle,same⟩ := drains (P := policy e) (line s) answers
  have mirrored := runMirrored (lineStep e) s ((List.range n).map (fun j => .turn (answers j)))
  rw [List.map_map,show signal ∘ (fun j => Event.turn (δ := δ) (answers j)) = fun j => .turn (answers j) from rfl,ran]
    at mirrored
  obtain ⟨t,reached,rfl⟩ := Option.map_eq_some_iff.mp mirrored
  exact ⟨n,t,reached,same,idleSettled idle (throughoutEnd (orderlyRun orderly _) ran)⟩

/-- Whatever producers, goroutine and servers do, the log of the attempts has one block for each accepted event, in the
order of acceptance and up to the one that is being delivered: failures and then one success, or as many failures as
there are retries, or nothing where http.NewRequest refuses the URL. Events are turned away only without a URL or with a
full channel, and the goroutine comes to the end of every event that was accepted. -/
theorem deliveryProtocol (e : Emitter δ) (events : List (Event δ)) :
    Throughout (step e) (fun s => Orderly (policy e) (line s)) start events ∧
    EveryStep (step e) Admits start events ∧
    ∀ s, run (step e) start events = some s → ∀ answers : Nat → Response,
      ∃ n t, run (step e) s ((List.range n).map (fun j => .turn (answers j))) = some t ∧ t.accepted = s.accepted ∧
        Settled e t := by
  have orderly : Throughout (step e) (fun s => Orderly (policy e) (line s)) start events :=
    throughoutMirrored (lineStep e) (orderlyRun orderlyEmpty _)
  refine ⟨orderly,everyStep (admits e) start events,?_⟩
  intro s ran answers
  have reached := throughoutEnd orderly ran
  exact settles e reached answers

def hmacSha256 (key message : GoString) : GoString :=
  let key := if 64 < key.length then Sha256.sum256 key else key
  let pad (b : UInt8) := (key ++ List.replicate (64 - key.length) 0).map (· ^^^ b)
  Sha256.sum256 (pad 0x5c ++ Sha256.sum256 (pad 0x36 ++ message))

/- url.Parse looks for control bytes first. The data of the event is null. -/
def sampleEmitter : Emitter Unit where
  maxRetries := 3
  marshal event := some (text "\x7b\"event\":\"" ++ event.name ++ text "\",\"group_id\":\"\",\"timestamp\":\"\",\"data\":null\x7d")
  hmac := hmacSha256
  newRequest url := if url.any (fun b => b < 32 || b == 127) then some "net/url: invalid control character in URL" else none

def controlled : EmitRequest Unit := ⟨text "http://a\x7f",text "s",⟨text "webhook.test",[],[],[],[],()⟩⟩

def Attempted (e : Emitter δ) (req : EmitRequest δ) (block : List (Post × Response)) : Prop :=
  match post e req with
  | none => block = []
  | some p => Block (policy e) p block

theorem refusedUnattempted :
    ∃ s, run (step sampleEmitter) start (.emit controlled::List.replicate 5 (.turn (.status 200))) = some s ∧
      s.stage = .select ∧ s.events = [] ∧
      ¬ ∃ blocks, List.Forall₂ (Attempted sampleEmitter) s.accepted blocks ∧ s.log = blocks.flatten := by
  refine ⟨⟨[],.select,[],[controlled]⟩,rfl,rfl,rfl,?_⟩
  intro claimed
  obtain ⟨blocks,each,log⟩ := claimed
  cases each with
  | cons first rest =>
    cases rest
    have log : [] = _ ++ [] := log
    obtain ⟨rfl,_⟩ := List.append_eq_nil_iff.mp log.symm
    generalize blank : ([] : List (Post × Response)) = block at first
    cases first with
    | delivered failures r few all success => simp at blank
    | exhausted failures most all =>
      have none_ : failures = [] := List.map_eq_nil_iff.mp blank.symm
      subst none_
      exact absurd most (by decide)

end WppGateway.Webhooks
