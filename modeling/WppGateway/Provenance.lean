import WppGateway.Payload

/-! Where messages come from. Tenants create broadcasts and send single messages, anybody pauses, resumes and cancels, and
other requests write to the tables: whatever is handed to WhatsApp has been asked for by the tenant that the instance
belongs to, with this number and this text. -/
namespace WppGateway.Provenance
open GoJson Domain Store Table Selection Gateway Http BroadcastCreate Transitions HeldRows Payload Runs

structure Creation where
  tenant : Option UUID
  group : Param
  body : Option Json
  answers : Answers

inductive Event where
  | create (c : Creation)
  | gateway (e : Gateway.Event)
  | elsewhere (s : Tables)

/- A broadcast is started by its creation or by a resume. -/
def step (jsonb : Json → Option Json) (g : System) : Event → Option System
  | .create c => some (broadcastCreate jsonb g c.tenant c.group c.body c.answers).1
  | .gateway e => match e with
    | .startBroadcast _ => none
    | e => Gateway.step g e
  | .elsewhere s => some (write g s)

/- The group of each instance and the tenant of each group, those that are to come included. -/
structure Owners where
  groupOf : UUID → UUID
  tenantOf : UUID → UUID

structure Owned (own : Owners) (s : Tables) : Prop where
  instances : ∀ i ∈ s.instances, own.groupOf i.id = i.groupId
  groups : ∀ row ∈ s.groups, own.tenantOf row.id = row.tenantId

/- Other requests keep to the owners and create no broadcast; they may delete some. -/
def Keeps (own : Owners) (g : System) : Event → Prop
  | .elsewhere s => Owned own s ∧ (∀ b ∈ s.broadcasts, b ∈ g.store.broadcasts) ∧ ∀ r ∈ s.recipients, r ∈ g.store.recipients
  | _ => True

/- A row of a broadcast, and the row that it was made with. -/
structure Later (b a : Broadcast) : Prop where
  id : b.id = a.id
  message : SameMessage b a

def createdIds (events : List Event) : List UUID := events.filterMap (fun e => match e with
  | .create c => some c.answers.id
  | _ => none)

section Origins
variable (jsonb : Json → Option Json) (own : Owners) (start : Tables) (events : List Event)

inductive Ordered (b : Broadcast) : Prop where
  | before (a) (member : a ∈ start.broadcasts) (later : Later b a)
  | created (c json s t a) (asked : .create c ∈ events) (tenant : c.tenant = some (own.tenantOf b.groupId))
      (group : c.group.parsed = some b.groupId) (body : c.body = some json)
      (row : create jsonb s c.answers.id c.answers.createdAt b.groupId (decodeCreateBroadcastInput json).value = some (t,a))
      (later : Later b a)

inductive Addressed (broadcastId row : UUID) (number : GoString) : Prop where
  | before (r) (member : r ∈ start.recipients) (here : r.id = row) (ofBroadcast : r.broadcastId = broadcastId)
      (same : r.recipient = number)
  | created (c json given) (asked : .create c ∈ events) (body : c.body = some json) (key : c.answers.id = broadcastId)
      (member : given ∈ (decodeCreateBroadcastInput json).value.recipients) (stored : varchar 20 given = some number)

structure Requested (groupId : UUID) (input : SendMessageInput) (r : SendRequest) (json : Json) : Prop where
  asked : .gateway (.send r) ∈ events
  tenant : r.tenant = some (own.tenantOf groupId)
  group : r.groupId.parsed = some groupId
  body : r.body = some json
  value : (decodeSendMessageInput json).value = input

structure Worded (input : SendMessageInput) (words : GoString) (content : Json) : Prop where
  type : input.type = text "text"
  given : input.content = some content
  body : (decodeContent content).value.body = words

def Loaded (w : Worker) : Prop := match w.pc with
  | .sending inst words r _ => own.groupOf inst.id = w.broadcast.groupId ∧ Written w.broadcast r.recipient words
  | _ => True

def Asked : Request → Prop
  | .received r => .gateway (.send r) ∈ events
  | .selecting _ groupId input => ∃ r json, Requested own events groupId input r json
  | .logging inst groupId input => own.groupOf inst.id = groupId ∧ ∃ r json, Requested own events groupId input r json
  | .sending inst _ input words =>
    (∃ r json, Requested own events (own.groupOf inst.id) input r json) ∧ ∃ content, Worded input words content
  | _ => True

inductive Backed (call : SendCall) : Prop where
  | request (k input r json content) (origin : call.origin = .request k)
      (requested : Requested own events (own.groupOf call.instanceId) input r json) (number : input.toNumber = call.toNumber)
      (worded : Worded input call.text content)
  | worker (j row b) (origin : call.origin = .worker j row) (ordered : Ordered jsonb own start events b)
      (group : own.groupOf call.instanceId = b.groupId) (addressed : Addressed start events b.id row call.toNumber)
      (written : Written b call.toNumber call.text)

structure Traced (g : System) : Prop where
  owned : Owned own g.store
  rows : ∀ b ∈ g.store.broadcasts, Ordered jsonb own start events b
  recipients : ∀ r ∈ g.store.recipients, Addressed start events r.broadcastId r.id r.recipient
  workers : ∀ w ∈ g.workers, Ordered jsonb own start events w.broadcast ∧
    (∀ r ∈ held w.pc, Addressed start events w.broadcast.id r.id r.recipient) ∧ Loaded own w
  calls : ∀ c ∈ g.calls, ∀ b ∈ callRow c, Ordered jsonb own start events b
  requests : ∀ r ∈ g.requests, Asked own events r
  sends : ∀ call ∈ g.sends, Backed jsonb own start events call

end Origins

theorem laterSelf (b : Broadcast) : Later b b := ⟨rfl,rfl,rfl,rfl,rfl⟩

theorem laterThan {a b c : Broadcast} (last : Later c b) (first : Later b a) : Later c a :=
  ⟨last.id.trans first.id,last.message.group.trans first.message.group,last.message.content.trans first.message.content,
    last.message.vars.trans first.message.vars,last.message.options.trans first.message.options⟩

section Steps
variable {jsonb : Json → Option Json} {own : Owners} {start : Tables} {events : List Event} {g t : System}

theorem orderedLater {a b : Broadcast} (ordered : Ordered jsonb own start events a) (later : Later b a) :
    Ordered jsonb own start events b := by
  cases ordered with
  | before old member first => exact .before old member (laterThan later first)
  | created c json s t old asked tenant group body row first =>
    rw [← later.message.group] at tenant group row
    exact .created c json s t old asked tenant group body row (laterThan later first)

theorem chosenOwned {groupId : UUID} {alive : Bool} {o : Oracle} {sel : Selecting} {inst : Instance} (owned : Owned own g.store)
    (selected : selectStep g groupId alive o sel = some (.chose inst)) : own.groupOf inst.id = groupId := by
  obtain ⟨_,_,_,listing,chosen⟩ := selectChose selected
  have listed := (List.mem_filter.mp (selectMember chosen)).1
  obtain ⟨inside,passes⟩ := List.mem_filter.mp (listing.1.mem_iff.mp listed)
  simp only [Bool.and_eq_true,beq_iff_eq] at passes
  exact (owned.instances inst inside).trans passes.1

theorem foundOwned {groupId tenant : UUID} (owned : Owned own g.store)
    (found : (findGroup g.store groupId).any (fun row => row.tenantId == tenant) = true) : own.tenantOf groupId = tenant := by
  obtain ⟨row,found,same⟩ := (Option.any_eq_true _ _).mp found
  obtain ⟨member,here⟩ := findMember found
  exact (here ▸ owned.groups row member).trans (beq_iff_eq.mp same)

theorem loadedAfter {w : Worker} {sent failed : Int} {rest : List BroadcastRecipient} (at_ : w.pc = afterSend sent failed rest) :
    Loaded own w := by
  have either : w.pc = .progress rest ∨ w.pc = .chunk rest := by
    rw [at_]
    unfold afterSend
    split
    · exact .inl rfl
    · exact .inr rfl
  rcases either with here | here <;> rw [Loaded,here] <;> trivial

theorem loadedStep {j : Nat} {o : Oracle} {w next : Worker} {effect : Effect} (owned : Owned own g.store)
    (moved : WorkerStep g j o w next effect) : Loaded own next := by
  cases moved with
  | selectChose sel inst r rest at_ selected order => exact ⟨chosenOwned owned selected,o.vars,o.choices,order,rfl⟩
  | markUnsent | loseUnsent | markSent | loseSent => exact loadedAfter rfl
  | _ => trivial

theorem recipientsFrom {effect : Effect} : ∀ r ∈ (perform g effect).store.recipients,
    ∃ q ∈ g.store.recipients, q.id = r.id ∧ q.broadcastId = r.broadcastId ∧ q.recipient = r.recipient := by
  intro r member
  by_cases rows : area effect = .recipients
  · cases effect with
    | recipientSent id i | recipientFailed id code =>
      obtain ⟨q,inside,rfl⟩ := memUpdate.mp member
      refine ⟨q,inside,?_⟩
      split <;> exact ⟨rfl,rfl,rfl⟩
    | _ => cases rows
  · rw [recipientsPerform rows] at member
    exact ⟨r,member,rfl,rfl,rfl⟩

theorem sendsEffect (h : System) {effect : Effect} {call : SendCall} (member : call ∈ (perform h effect).sends) :
    call ∈ h.sends ∨ effect = .send call := by
  by_cases sends : area effect = .sends
  · cases effect with
    | send made =>
      rcases List.mem_append.mp member with old | new
      · exact .inl old
      · exact .inr (by rw [List.mem_singleton.mp new])
    | _ => cases sends
  · rw [sendsPerform sends] at member
    exact .inl member

theorem workersKeep {P : Worker → Prop} {e : Gateway.Event} (moved : Moved g e t) (before : ∀ w ∈ g.workers, P w)
    (starts : ∀ b, started g e = some b → P (newWorker b)) (cancels : ∀ w, P w → P w.cancel)
    (steps : ∀ j o w next effect, WorkerStep g j o w next effect → P w → P next) : ∀ w ∈ t.workers, P w := by
  intro w member
  obtain ⟨k,found⟩ := List.getElem?_of_mem member
  rcases workerOrigin moved found with ⟨b,new,rfl,_⟩ | ⟨v,here,rfl | rfl⟩ | ⟨o,v,effect,_,here,inner⟩
  · exact starts b new
  · exact before _ (List.mem_of_getElem? here)
  · exact cancels v (before v (List.mem_of_getElem? here))
  · exact steps k o v w effect inner (before v (List.mem_of_getElem? here))

theorem startedCall {e : Gateway.Event} (fresh : ∀ b, e ≠ .startBroadcast b) {b : Broadcast} (starts : started g e = some b) :
    .resumeStart b ∈ g.calls := by
  cases e with
  | startBroadcast b => exact absurd rfl (fresh b)
  | call k ok =>
    simp only [started] at starts
    split at starts <;> cases starts
    next here => exact List.mem_of_getElem? here
  | _ => cases starts

variable (traced : Traced jsonb own start events g)
include traced

theorem workersTraced {e : Gateway.Event} (resumed : ∀ b, e ≠ .startBroadcast b) (moved : Moved g e t) :
    ∀ w ∈ t.workers, Ordered jsonb own start events w.broadcast ∧
      (∀ r ∈ held w.pc, Addressed start events w.broadcast.id r.id r.recipient) ∧ Loaded own w := by
  refine workersKeep moved traced.workers (fun b starts => ?_) (fun w kept => kept) (fun j o w next effect inner kept => ?_)
  · exact ⟨traced.calls _ (startedCall resumed starts) b rfl,fun _ inside => (by cases inside),trivial⟩
  · obtain ⟨ordered,rows,_⟩ := kept
    rw [(workerKeeps inner).1]
    refine ⟨ordered,fun r inside => ?_,loadedStep traced.owned inner⟩
    rcases heldStep inner with old | ⟨_,page⟩
    · exact rows r (old.subset inside)
    · obtain ⟨listed,ofBroadcast,_⟩ := getPendingMember (page.subset inside)
      exact ofBroadcast ▸ traced.recipients r listed

theorem callsTraced {e : Gateway.Event} (moved : Moved g e t) : ∀ c ∈ t.calls, ∀ b ∈ callRow c,
    Ordered jsonb own start events b := by
  intro c member b inside
  cases moved with
  | opens e c' call =>
    rcases List.mem_append.mp member with old | new
    · exact traced.calls c old b inside
    · cases List.mem_singleton.mp new
      cases e <;> cases call <;> cases inside
  | call k ok c' next effect found inner =>
    rw [callsPerform] at member
    rcases List.mem_or_eq_of_mem_set member with old | rfl
    · exact traced.calls c old b inside
    · rcases callBefore inner inside with before | row
      · exact traced.calls _ (List.mem_of_getElem? found) b before
      · exact traced.rows b row
  | worker | request => rw [callsPerform] at member; exact traced.calls c member b inside
  | _ => exact traced.calls c member b inside

theorem checkAsked {ok : Bool} {r : SendRequest} (asked : Event.gateway (.send r) ∈ events) :
    Asked own events (checkSend g ok r) := by
  unfold checkSend
  split
  · trivial
  next tenant known =>
  split
  · trivial
  next groupId parsed =>
  split
  · trivial
  split
  · next found =>
    split
    · trivial
    next json body =>
    dsimp only
    split
    · trivial
    split
    · trivial
    split
    · trivial
    · exact ⟨r,json,asked,by rw [foundOwned traced.owned found]; exact known,parsed,body,rfl⟩
  · trivial

theorem askedStep {k : Nat} {o : Oracle} {r next : Request} {effect : Effect} (asked : Asked own events r)
    (moved : requestStep g k o r = some (next,effect)) : Asked own events next := by
  cases r with
  | received r => cases moved; exact checkAsked traced asked
  | selecting sel groupId input =>
    simp only [requestStep] at moved
    split at moved <;> cases moved
    · exact asked
    · exact asked
    · trivial
    · next inst selected => exact ⟨chosenOwned traced.owned selected,asked⟩
  | logging inst groupId input =>
    obtain ⟨here,requested⟩ := asked
    simp only [requestStep] at moved
    split at moved <;> cases moved
    · unfold checkContent
      split
      · next type =>
        split
        · next d decoded =>
          split
          · obtain ⟨content,present,rfl⟩ := Option.map_eq_some_iff.mp decoded
            exact ⟨here ▸ requested,content,type,present,rfl⟩
          · trivial
        · trivial
      · trivial
    · trivial
  | sending inst log input words => cases moved; cases o.ok <;> trivial
  | updateFailed log message => cases moved; trivial
  | updateSent inst log => cases moved; trivial
  | answered response => cases moved

theorem requestsTraced {e : Gateway.Event} (moved : Moved g e t) (known : Event.gateway e ∈ events) :
    ∀ r ∈ t.requests, Asked own events r := by
  intro r member
  cases moved with
  | send r' =>
    rcases List.mem_append.mp member with old | new
    · exact traced.requests r old
    · cases List.mem_singleton.mp new
      exact known
  | request k o r' next effect found inner =>
    rw [requestsPerform] at member
    rcases List.mem_or_eq_of_mem_set member with old | rfl
    · exact traced.requests r old
    · exact askedStep traced (traced.requests _ (List.mem_of_getElem? found)) inner
  | call | worker => rw [requestsPerform] at member; exact traced.requests r member
  | _ => exact traced.requests r member

theorem workerBacked {j : Nat} {o : Oracle} {w next : Worker} {call : SendCall} (here : w ∈ g.workers)
    (moved : WorkerStep g j o w next (.send call)) : Backed jsonb own start events call := by
  obtain ⟨ordered,rows,loaded⟩ := traced.workers w here
  cases moved with
  | delivers inst words r rest at_ | refused inst words r rest at_ =>
    rw [Loaded,at_] at loaded
    rw [at_] at rows
    exact .worker j r.id w.broadcast rfl ordered loaded.1 (rows r List.mem_cons_self) loaded.2

theorem sendsTraced {e : Gateway.Event} (moved : Moved g e t) : ∀ call ∈ t.sends, Backed jsonb own start events call := by
  intro call member
  cases moved with
  | call k ok c next effect found inner =>
    have other : area effect ≠ .sends := by rcases callArea inner with a | a | a | a <;> rw [a] <;> decide
    rw [sendsPerform other] at member
    exact traced.sends call member
  | worker j o w next effect found inner =>
    rcases sendsEffect (setWorker g j next) member with old | rfl
    · exact traced.sends call old
    · exact workerBacked traced (List.mem_of_getElem? found) inner
  | request k o r next effect found inner =>
    rcases sendsEffect (setRequest g k next) member with old | rfl
    · exact traced.sends call old
    · obtain ⟨origin,inst,log,input,words,rfl,rfl⟩ := requestSends inner
      obtain ⟨⟨r,json,requested⟩,content,worded⟩ := traced.requests _ (List.mem_of_getElem? found)
      exact .request k input r json content origin requested rfl worded
  | _ => exact traced.sends call member

theorem tracedStore {s : Tables} (owned : Owned own s) (rows : ∀ b ∈ s.broadcasts, Ordered jsonb own start events b)
    (recipients : ∀ r ∈ s.recipients, Addressed start events r.broadcastId r.id r.recipient) :
    Traced jsonb own start events (write g s) :=
  ⟨owned,rows,recipients,traced.workers,traced.calls,traced.requests,traced.sends⟩

theorem tracedStart {b : Broadcast} (ordered : Ordered jsonb own start events b) :
    Traced jsonb own start events (startJob g b) := by
  refine ⟨traced.owned,traced.rows,traced.recipients,fun w member => ?_,traced.calls,traced.requests,traced.sends⟩
  rcases List.mem_append.mp member with old | new
  · exact traced.workers w old
  · cases List.mem_singleton.mp new
    exact ⟨ordered,nofun,trivial⟩

theorem tracedGateway {e : Gateway.Event} (resumed : ∀ b, e ≠ .startBroadcast b) (known : Event.gateway e ∈ events)
    (moved : Moved g e t) : Traced jsonb own start events t := by
  refine ⟨⟨?_,?_⟩,?_,?_,workersTraced traced resumed moved,callsTraced traced moved,requestsTraced traced moved known,
    sendsTraced traced moved⟩
  · intro i member
    cases moved with
    | call | worker | request => rw [instancesPerform] at member; exact traced.owned.instances i member
    | status id st =>
      obtain ⟨old,inside,rfl⟩ := memUpdate.mp member
      have same := traced.owned.instances old inside
      split <;> exact same
    | _ => exact traced.owned.instances i member
  · rw [groupsMoved moved]
    exact traced.owned.groups
  · intro b member
    obtain ⟨old,inside,id,message⟩ := rowBefore moved member
    exact orderedLater (traced.rows old inside) ⟨id,message⟩
  · intro r member
    cases moved with
    | call | worker | request =>
      obtain ⟨q,inside,id,ofBroadcast,number⟩ := recipientsFrom r member
      rw [← id,← ofBroadcast,← number]
      exact traced.recipients q inside
    | _ => exact traced.recipients r member

end Steps

inductive Outcome (jsonb : Json → Option Json) (g : System) (c : Creation) : System → Prop where
  | refused : Outcome jsonb g c g
  | inserted (owner groupId json s a t) (tenant : c.tenant = some owner) (group : c.group.parsed = some groupId)
      (found : (findGroup g.store groupId).any (fun row => row.tenantId == owner) = true) (body : c.body = some json)
      (row : create jsonb g.store c.answers.id c.answers.createdAt groupId (decodeCreateBroadcastInput json).value = some (s,a))
      (goesOn : t = write g s ∨ ∃ full, createRecipients s c.answers.ids a.id (decodeCreateBroadcastInput json).value.recipients
        = some full ∧ (t = write g full ∨ t = startJob (write g full) a)) : Outcome jsonb g c t

theorem creationOutcome (jsonb : Json → Option Json) (g : System) (c : Creation) :
    Outcome jsonb g c (broadcastCreate jsonb g c.tenant c.group c.body c.answers).1 := by
  unfold broadcastCreate
  split
  · exact .refused
  next owner tenant =>
  split
  · exact .refused
  next groupId group =>
  split
  · exact .refused
  split
  · next found =>
    split
    · exact .refused
    next json body =>
    dsimp only
    split
    · exact .refused
    split
    · exact .refused
    split
    · exact .refused
    unfold insertBroadcast
    split
    · exact .refused
    next s a row =>
    split at row <;> try contradiction
    refine .inserted owner groupId json s a _ tenant group found body row ?_
    split
    · exact .inl rfl
    next full batch =>
    split at batch <;> try contradiction
    refine .inr ⟨full,batch,?_⟩
    dsimp only
    split
    · exact .inr rfl
    · exact .inl rfl
  · exact .refused

theorem createFrame {jsonb : Json → Option Json} {s t : Tables} {id groupId : UUID} {at_ : Int} {input : CreateBroadcastInput}
    {b : Broadcast} (made : create jsonb s id at_ groupId input = some (t,b)) :
    t = {s with broadcasts := s.broadcasts ++ [b]} := by
  simp only [create,bind,Option.bind_eq_some_iff] at made
  obtain ⟨_,_,_,_,_,_,_,_,_,_,_,_,made⟩ := made
  cases made
  rfl

section Runs
variable {jsonb : Json → Option Json} {own : Owners} {start : Tables} {events : List Event} {g t : System}

theorem tracedCreate (traced : Traced jsonb own start events g) {c : Creation} (known : Event.create c ∈ events)
    (outcome : Outcome jsonb g c t) : Traced jsonb own start events t := by
  cases outcome with
  | refused => exact traced
  | inserted owner groupId json s a t tenant group found body row goesOn =>
    obtain ⟨key,home⟩ := createId row
    have ordered : Ordered jsonb own start events a := by
      refine .created c json g.store s a known ?_ (home ▸ group) body (home ▸ row) (laterSelf a)
      rw [tenant,home,foundOwned traced.owned found]
    have rows : ∀ b ∈ s.broadcasts, Ordered jsonb own start events b := by
      intro b member
      rw [createFrame row] at member
      rcases List.mem_append.mp member with old | new
      · exact traced.rows b old
      · cases List.mem_singleton.mp new
        exact ordered
    have kept : s.instances = g.store.instances ∧ s.groups = g.store.groups ∧ s.recipients = g.store.recipients := by
      rw [createFrame row]
      exact ⟨rfl,rfl,rfl⟩
    have owned : Owned own s := ⟨kept.1 ▸ traced.owned.instances,kept.2.1 ▸ traced.owned.groups⟩
    rcases goesOn with rfl | ⟨full,batch,goesOn⟩
    · exact tracedStore traced owned rows (kept.2.2 ▸ traced.recipients)
    simp only [createRecipients,bind,Option.bind_eq_some_iff] at batch
    obtain ⟨added,made,batch⟩ := batch
    cases batch
    have whole : Traced jsonb own start events (write g {s with recipients := s.recipients ++ added}) := by
      refine tracedStore traced ⟨owned.instances,owned.groups⟩ rows (fun r member => ?_)
      rcases List.mem_append.mp member with old | new
      · exact traced.recipients r (kept.2.2 ▸ old)
      · obtain ⟨given,inside,stored⟩ := (recipientRowsMade made).texts r new
        exact .created c json given known body (((recipientRowsMade made).pending r new).1 ▸ key.symm) inside stored
    rcases goesOn with rfl | rfl
    · exact whole
    · exact tracedStart whole ordered

theorem tracedStep (g : System) (e : Event) (t : System) (traced : Traced jsonb own start events g)
    (ok : e ∈ events ∧ Keeps own g e) (moved : step jsonb g e = some t) : Traced jsonb own start events t := by
  cases e with
  | create c => exact tracedCreate traced ok.1 (Option.some.inj moved ▸ creationOutcome jsonb g c)
  | elsewhere s =>
    cases moved
    obtain ⟨owned,rows,recipients⟩ := ok.2
    exact tracedStore traced owned (fun b member => traced.rows b (rows b member))
      (fun r member => traced.recipients r (recipients r member))
  | gateway e =>
    have inner : Gateway.step g e = some t ∧ ∀ b, e ≠ .startBroadcast b := by
      cases e <;> first | (cases moved; done) | exact ⟨moved,nofun⟩
    exact tracedGateway traced inner.2 ok.1 (movedSource inner.1)

theorem tracedFresh (fresh : Fresh g) (owned : Owned own g.store) : Traced jsonb own g.store events g := by
  refine ⟨owned,fun b member => .before b member (laterSelf b),fun r member => .before r member rfl rfl rfl,?_,?_,?_,?_⟩
  · rw [fresh.workers]; exact fun _ none_ => (by cases none_)
  · rw [fresh.calls]; exact fun _ none_ => (by cases none_)
  · rw [fresh.requests]; exact fun _ none_ => (by cases none_)
  · rw [fresh.sends]; exact fun _ none_ => (by cases none_)

end Runs

inductive Due (jsonb : Json → Option Json) (own : Owners) (start : Tables) (events : List Event) (call : SendCall) : Prop where
  | single (r json input content) (requested : Requested own events (own.groupOf call.instanceId) input r json)
      (number : input.toNumber = call.toNumber) (worded : Worded input call.text content)
  | created (c json given s t b) (asked : .create c ∈ events)
      (tenant : c.tenant = some (own.tenantOf (own.groupOf call.instanceId)))
      (group : c.group.parsed = some (own.groupOf call.instanceId)) (body : c.body = some json)
      (row : create jsonb s c.answers.id c.answers.createdAt (own.groupOf call.instanceId)
        (decodeCreateBroadcastInput json).value = some (t,b))
      (member : given ∈ (decodeCreateBroadcastInput json).value.recipients) (stored : varchar 20 given = some call.toNumber)
      (written : Written b call.toNumber call.text)
  | earlier (b r) (member : b ∈ start.broadcasts) (group : b.groupId = own.groupOf call.instanceId)
      (inside : r ∈ start.recipients) (ofBroadcast : r.broadcastId = b.id) (number : r.recipient = call.toNumber)
      (written : Written b call.toNumber call.text)

theorem createdSame {events : List Event} (fresh : (createdIds events).Nodup) {c d : Creation} (left : .create c ∈ events)
    (right : .create d ∈ events) (same : c.answers.id = d.answers.id) : c = d := by
  induction events with
  | nil => cases left
  | cons e rest ih =>
    have listed {c : Creation} (member : .create c ∈ rest) : c.answers.id ∈ createdIds rest :=
      List.mem_filterMap.mpr ⟨_,member,rfl⟩
    rcases List.mem_cons.mp left with rfl | inside
    · obtain ⟨apart,_⟩ := List.nodup_cons.mp fresh
      rcases List.mem_cons.mp right with here | other
      · cases here
        rfl
      · exact absurd (same ▸ listed other) apart
    have later : (createdIds rest).Nodup := fresh.sublist ((List.sublist_cons_self e rest).filterMap _)
    rcases List.mem_cons.mp right with rfl | other
    · obtain ⟨apart,_⟩ := List.nodup_cons.mp fresh
      exact absurd (same ▸ listed inside) apart
    · exact ih later inside other

section Due
variable {jsonb : Json → Option Json} {own : Owners} {start : Tables} {events : List Event} {call : SendCall}

theorem backedDue (references : ∀ r ∈ start.recipients, ∃ b ∈ start.broadcasts, b.id = r.broadcastId)
    (keys : (createdIds events ++ start.broadcasts.map Broadcast.id).Nodup) (backed : Backed jsonb own start events call) :
    Due jsonb own start events call := by
  obtain ⟨fresh,_,apart⟩ := List.nodup_append.mp keys
  cases backed with
  | request k input r json content origin requested number worded => exact .single r json input content requested number worded
  | worker j row b origin ordered group addressed written =>
    cases ordered with
    | before a member later =>
      cases addressed with
      | before r inside here ofBroadcast number =>
        exact .earlier a r member (later.message.group.symm.trans group.symm) inside (ofBroadcast.trans later.id) number
          (later.message.written written)
      | created c json given asked body key inside stored =>
        exact absurd (key.trans later.id)
          (apart _ (List.mem_filterMap.mpr ⟨_,asked,rfl⟩) _ (List.mem_map_of_mem member))
    | created c json s t a asked tenant group_ body row later =>
      have key := (createId row).1.symm.trans later.id.symm
      cases addressed with
      | before r inside here ofBroadcast number =>
        obtain ⟨old,member,same⟩ := references r inside
        exact absurd (key.trans (same.trans ofBroadcast).symm)
          (apart _ (List.mem_filterMap.mpr ⟨_,asked,rfl⟩) _ (List.mem_map_of_mem member))
      | created d json' given asked' body' same inside stored =>
        cases createdSame fresh asked asked' (key.trans same.symm)
        cases body.symm.trans body'
        rw [← group] at tenant group_ row
        exact .created c json given s t a asked tenant group_ body row inside stored (later.message.written written)

end Due

/-- Whoever pauses, resumes or cancels it, and whatever else goes on: a message goes out through an instance only if the
tenant of the instance has asked for it in the group of the instance, to a number that the request names and with the text
that it asks for. -/
theorem sendsOwned {jsonb : Json → Option Json} {own : Owners} {g t : System} {events : List Event} (fresh : Fresh g)
    (owned : Owned own g.store) (references : ∀ r ∈ g.store.recipients, ∃ b ∈ g.store.broadcasts, b.id = r.broadcastId)
    (keys : (createdIds events ++ g.store.broadcasts.map Broadcast.id).Nodup)
    (keeps : Guarded (step jsonb) (Keeps own) g events) (ran : run (step jsonb) g events = some t) :
    ∀ call ∈ t.sends, Due jsonb own g.store events call := by
  have known : Guarded (step jsonb) (fun _ e => e ∈ events) g events := guardedEach (fun _ member _ => member) g
  have traced := guardedRun tracedStep (tracedFresh fresh owned) (guardedAnd known keeps) ran
  exact fun call member => backedDue references keys (traced.sends call member)

def creation : Creation where
  tenant := some 100
  group := sampleParam 1
  body := some (.obj [(text "recipients",.arr [.str (text "5511999999999")]),(text "type",.str (text "text")),
    (text "content",sampleContent)])
  answers := ⟨true,true,true,21,0,[31]⟩

def asked : List Gateway.Event :=
  works 0 10 accepts ++ [.send sampleSend] ++ serves 0 7 accepts ++ [.resumeBroadcast 21] ++ calls 0 3

theorem sendsOwnedBoth : ∃ t, run (step some) (boot ⟨[sampleGroup],[sampleInstance],[],[],[]⟩)
      (.create creation::asked.map Event.gateway) = some t ∧
    t.sends.map (fun call => (call.origin,call.text)) = [(.worker 0 31,text "oi"),(.request 0,text "oi")] ∧
    ∀ call ∈ t.sends, Due some ⟨fun _ => 1,fun _ => 100⟩ ⟨[sampleGroup],[sampleInstance],[],[],[]⟩
      (.create creation::asked.map Event.gateway) call := by
  have ends : (run (step some) (boot ⟨[sampleGroup],[sampleInstance],[],[],[]⟩) (.create creation::asked.map Event.gateway)).map
      (fun t => t.sends.map (fun call => (call.origin,call.text))) = some [(.worker 0 31,text "oi"),(.request 0,text "oi")] := by
    decide +kernel
  obtain ⟨t,ran,sent⟩ := Option.map_eq_some_iff.mp ends
  refine ⟨t,ran,sent,sendsOwned (freshBoot _) ⟨by decide,by decide⟩ nofun (by decide) (guardedEach ?_ _) ran⟩
  intro e member s
  rcases List.mem_cons.mp member with rfl | later
  · trivial
  · obtain ⟨e,_,rfl⟩ := List.mem_map.mp later
    trivial

end WppGateway.Provenance
