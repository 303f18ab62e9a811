import WppGateway.Resources
import WppGateway.Runs

/-! A limit that is checked against a count and kept by no lock: who finds the count
below the limit is admitted, and enters later, whatever the count is then. -/
namespace WppGateway.Admission

structure Desk where
  held : Nat
  admitted : Nat
  deriving DecidableEq, Repr

inductive Act where
  | pass
  | enter
  | leave
  deriving DecidableEq, Repr

def step (limit : Int) (d : Desk) : Act → Option Desk
  | .pass => if d.held < limit then some {d with admitted := d.admitted + 1} else none
  | .enter => if 0 < d.admitted then some ⟨d.held + 1,d.admitted - 1⟩ else none
  | .leave => if 0 < d.admitted then some ⟨d.held,d.admitted - 1⟩ else none

/- Those who have been admitted are counted as well. -/
def Free (limit : Int) (d : Desk) : Act → Prop
  | .pass => d.held + d.admitted < limit
  | _ => True

def Reserved (limit : Int) (d : Desk) : Prop := d.held + d.admitted ≤ limit

theorem reservedStep {limit : Int} {d e : Desk} {a : Act} (inv : Reserved limit d) (free : Free limit d a)
    (moved : step limit d a = some e) : Reserved limit e := by
  unfold Reserved at *
  cases a with
  | pass =>
    simp only [step] at moved
    split at moved <;> cases moved
    simp only [Free] at free
    push_cast
    omega
  | enter =>
    simp only [step] at moved
    split at moved <;> cases moved
    push_cast
    omega
  | leave =>
    simp only [step] at moved
    split at moved <;> cases moved
    push_cast
    omega

end WppGateway.Admission

/-! GroupHandler.Create and InstanceHandler.Create of one tenant, a database statement
at a time. Each counts in one statement and inserts in another. -/
namespace WppGateway.Quotas
open Runs GoJson Domain Http Table Resources Admission

inductive Kind where
  | groups
  | instances
  deriving DecidableEq, Repr

inductive Creating where
  | group (body : Option Json)
  | insertGroup (input : CreateGroupInput)
  | instance_ (group : Param) (body : Option Json)
  | count (groupId : UUID) (body : Option Json)
  | insertInstance (groupId : UUID) (input : CreateInstanceInput)
  | answered (failure : Option Response)

structure Creation where
  rows : Rows
  requests : List Creating

structure Answer where
  ok : Bool
  id : UUID
  createdAt : Int
  secret : GoString

inductive Asked where
  | createGroup (body : Option Json)
  | createInstance (group : Param) (body : Option Json)
  | serve (k : Nat) (a : Answer)

def limitExceeded (message : String) : Creating := .answered (some (err fresh 403 "limit_exceeded" message))

def groupBody : Option Json → Creating
  | none => .answered (some (errBadRequest fresh "Invalid request body"))
  | some body =>
    let d := decodeCreateGroupInput body
    if d.ok = false then .answered (some (errBadRequest fresh "Invalid request body"))
    else if d.value.name = [] then .answered (some (errBadRequest fresh "Name is required"))
    else .insertGroup (if d.value.strategy = [] then {d.value with strategy := text "failover"} else d.value)

def instanceBody (groupId : UUID) : Option Json → Creating
  | none => .answered (some (errBadRequest fresh "Invalid request body"))
  | some body =>
    let d := decodeCreateInstanceInput body
    if d.ok = false then .answered (some (errBadRequest fresh "Invalid request body"))
    else .insertInstance groupId
      {d.value with
        dailyBudget := if d.value.dailyBudget ≤ 0 then 200 else d.value.dailyBudget
        hourlyBudget := if d.value.hourlyBudget ≤ 0 then 30 else d.value.hourlyBudget}

/- What follows a statement touches nothing that is shared and belongs to its step. -/
def serveOne (jsonb : Json → Option Json) (tenant : Tenant) (r : Rows) (a : Answer) : Creating → Option (Creating × Rows)
  | .group body =>
    if a.ok = false then some (.answered (some (errInternal fresh "Failed to check group limit")),r)
    else if tenant.maxGroups ≤ countGroups r tenant.id then some (limitExceeded "Maximum number of groups reached",r)
    else some (groupBody body,r)
  | .insertGroup input => match (if a.ok then createGroup jsonb r a.id a.secret tenant.id input else none) with
    | none => some (.answered (some (errInternal fresh "Failed to create group")),r)
    | some (t,_) => some (.answered none,t)
  | .instance_ group body => match group.parsed with
    | none => some (.answered (some (errBadRequest fresh (invalidUUID group))),r)
    | some groupId =>
      if a.ok = false then some (.answered (some (errInternal fresh "Failed to get group")),r)
      else if (groupById r groupId).any (fun g => g.tenantId == tenant.id) then some (.count groupId body,r)
      else some (.answered (some (errNotFound fresh "Group not found")),r)
  | .count groupId body =>
    if a.ok = false then some (.answered (some (errInternal fresh "Failed to check instance limit")),r)
    else if tenant.maxInstances ≤ countInstances r tenant.id then
      some (limitExceeded "Maximum number of instances reached",r)
    else some (instanceBody groupId body,r)
  | .insertInstance groupId input =>
    match (if a.ok then createInstance r a.id a.createdAt groupId input else none) with
    | none => some (.answered (some (errInternal fresh "Failed to create instance")),r)
    | some (t,_) => some (.answered none,t)
  | .answered _ => none

def create (jsonb : Json → Option Json) (tenant : Tenant) (s : Creation) : Asked → Option Creation
  | .createGroup body => some {s with requests := s.requests ++ [.group body]}
  | .createInstance group body => some {s with requests := s.requests ++ [.instance_ group body]}
  | .serve k a => do
    let c ← s.requests[k]?
    let (next,rows) ← serveOne jsonb tenant s.rows a c
    some ⟨rows,s.requests.set k next⟩

def limit (tenant : Tenant) : Kind → Int
  | .groups => tenant.maxGroups
  | .instances => tenant.maxInstances

def count (tenant : Tenant) (r : Rows) : Kind → Nat
  | .groups => countGroups r tenant.id
  | .instances => countInstances r tenant.id

def inserts : Kind → Creating → Bool
  | .groups,.insertGroup _ | .instances,.insertInstance _ _ => true
  | _,_ => false

def desk (tenant : Tenant) (kind : Kind) (s : Creation) : Desk :=
  ⟨count tenant s.rows kind,s.requests.countP (inserts kind)⟩

def WithinQuota (tenant : Tenant) (s : Creation) : Prop := ∀ kind, count tenant s.rows kind ≤ limit tenant kind

def admits (jsonb : Json → Option Json) (tenant : Tenant) (kind : Kind) (s : Creation) : Asked → Bool
  | .serve k a => match s.requests[k]? with
    | some c => !inserts kind c && (serveOne jsonb tenant s.rows a c).any (fun p => inserts kind p.1)
    | none => false
  | _ => false

/- A request passes its check only while the rows and the requests that are still to insert leave room. -/
def CountsAll (jsonb : Json → Option Json) (tenant : Tenant) (s : Creation) (e : Asked) : Prop :=
  ∀ kind, admits jsonb tenant kind s e = true →
    count tenant s.rows kind + s.requests.countP (inserts kind) < limit tenant kind

instance (jsonb : Json → Option Json) (tenant : Tenant) (s : Creation) (e : Asked) :
    Decidable (CountsAll jsonb tenant s e) :=
  decidable_of_iff
    ((admits jsonb tenant .groups s e = true →
      count tenant s.rows .groups + s.requests.countP (inserts .groups) < limit tenant .groups) ∧
    (admits jsonb tenant .instances s e = true →
      count tenant s.rows .instances + s.requests.countP (inserts .instances) < limit tenant .instances))
    ⟨fun both kind => (by cases kind; exact both.1; exact both.2),fun all => ⟨all .groups,all .instances⟩⟩

section Serve
variable {jsonb : Json → Option Json} {tenant : Tenant} {r t : Rows} {a : Answer} {c next : Creating}

inductive Passes (tenant : Tenant) (kind : Kind) (r t : Rows) (c next : Creating) : Prop where
  | apart (before : inserts kind c = false) (after : inserts kind next = false)
      (same : count tenant t kind = count tenant r kind)
  | admits (before : inserts kind c = false) (after : inserts kind next = true)
      (same : count tenant t kind = count tenant r kind) (below : count tenant r kind < limit tenant kind)
  | leaves (before : inserts kind c = true) (after : inserts kind next = false)
      (bound : count tenant t kind = count tenant r kind ∨ count tenant t kind = count tenant r kind + 1)

theorem groupBodySource (body : Option Json) :
    (∃ failure, groupBody body = .answered failure) ∨ ∃ input, groupBody body = .insertGroup input := by
  unfold groupBody
  split
  · exact .inl ⟨_,rfl⟩
  dsimp only
  split
  · exact .inl ⟨_,rfl⟩
  split
  · exact .inl ⟨_,rfl⟩
  · exact .inr ⟨_,rfl⟩

theorem instanceBodySource (groupId : UUID) (body : Option Json) :
    (∃ failure, instanceBody groupId body = .answered failure) ∨
      ∃ input, instanceBody groupId body = .insertInstance groupId input := by
  unfold instanceBody
  split
  · exact .inl ⟨_,rfl⟩
  dsimp only
  split
  · exact .inl ⟨_,rfl⟩
  · exact .inr ⟨_,rfl⟩

@[simp] theorem answeredInserts (kind : Kind) (failure : Option Response) : inserts kind (.answered failure) = false := by
  cases kind <;> rfl

inductive Serves (jsonb : Json → Option Json) (tenant : Tenant) (r : Rows) (a : Answer) : Creating → Creating → Rows → Prop where
  | fails (c failure) : Serves jsonb tenant r a c (.answered failure) r
  | countsGroups (body) (below : countGroups r tenant.id < tenant.maxGroups) :
      Serves jsonb tenant r a (.group body) (groupBody body) r
  | insertsGroup (input t g) (made : createGroup jsonb r a.id a.secret tenant.id input = some (t,g)) :
      Serves jsonb tenant r a (.insertGroup input) (.answered none) t
  | findsGroup (group body groupId) : Serves jsonb tenant r a (.instance_ group body) (.count groupId body) r
  | countsInstances (groupId body) (below : countInstances r tenant.id < tenant.maxInstances) :
      Serves jsonb tenant r a (.count groupId body) (instanceBody groupId body) r
  | insertsInstance (groupId input t i) (made : createInstance r a.id a.createdAt groupId input = some (t,i)) :
      Serves jsonb tenant r a (.insertInstance groupId input) (.answered none) t

theorem servesSource (served : serveOne jsonb tenant r a c = some (next,t)) : Serves jsonb tenant r a c next t := by
  cases c with
  | group body =>
    simp only [serveOne] at served
    split at served
    · cases served; exact .fails _ _
    split at served <;> cases served
    · exact .fails _ _
    · next below => exact .countsGroups body (not_le.mp below)
  | insertGroup input =>
    simp only [serveOne] at served
    split at served <;> cases served
    · exact .fails _ _
    · next g made =>
      split at made <;> try contradiction
      exact .insertsGroup input t g made
  | instance_ group body =>
    simp only [serveOne] at served
    split at served
    · cases served; exact .fails _ _
    split at served
    · cases served; exact .fails _ _
    split at served <;> cases served
    · exact .findsGroup group body _
    · exact .fails _ _
  | count groupId body =>
    simp only [serveOne] at served
    split at served
    · cases served; exact .fails _ _
    split at served <;> cases served
    · exact .fails _ _
    · next below => exact .countsInstances groupId body (not_le.mp below)
  | insertInstance groupId input =>
    simp only [serveOne] at served
    split at served <;> cases served
    · exact .fails _ _
    · next i made =>
      split at made <;> try contradiction
      exact .insertsInstance groupId input t i made
  | answered failure => cases served

theorem passesServed (references : References r) (served : serveOne jsonb tenant r a c = some (next,t)) (kind : Kind) :
    Passes tenant kind r t c next := by
  cases servesSource served with
  | fails c failure =>
    cases before : inserts kind c with
    | false => exact .apart before (answeredInserts _ _) rfl
    | true => exact .leaves before (answeredInserts _ _) (.inl rfl)
  | countsGroups body below =>
    have before : inserts kind (.group body) = false := by cases kind <;> rfl
    rcases groupBodySource body with ⟨failure,same⟩ | ⟨input,same⟩ <;> rw [same]
    · exact .apart before (answeredInserts _ _) rfl
    · cases kind with
      | groups => exact .admits before rfl rfl below
      | instances => exact .apart before rfl rfl
  | insertsGroup input t g made =>
    obtain ⟨rfl,own,owner,new⟩ := createGroupAdds made
    cases kind with
    | groups => exact .leaves rfl rfl (.inr (by simp [count,countGroups,owner]))
    | instances => exact .apart rfl rfl (countNewGroup references (own ▸ new) tenant.id)
  | findsGroup group body groupId => exact .apart (by cases kind <;> rfl) (by cases kind <;> rfl) rfl
  | countsInstances groupId body below =>
    have before : inserts kind (.count groupId body) = false := by cases kind <;> rfl
    rcases instanceBodySource groupId body with ⟨failure,same⟩ | ⟨input,same⟩ <;> rw [same]
    · exact .apart before (answeredInserts _ _) rfl
    · cases kind with
      | groups => exact .apart before rfl rfl
      | instances => exact .admits before rfl rfl below
  | insertsInstance groupId input t i made =>
    obtain ⟨rfl,_⟩ := createInstanceAdds made
    cases kind with
    | groups => exact .apart rfl rfl rfl
    | instances =>
      refine .leaves rfl rfl ?_
      simp only [count,countInstances,List.countP_append,List.countP_singleton]
      split <;> simp

theorem referencesServed (references : References r) (served : serveOne jsonb tenant r a c = some (next,t)) :
    References t := by
  cases servesSource served with
  | insertsGroup input t g made =>
    obtain ⟨rfl,_⟩ := createGroupAdds made
    exact referencesGroup g references
  | insertsInstance groupId input t i made =>
    obtain ⟨rfl,_,rfl,known,_⟩ := createInstanceAdds made
    exact referencesInstance references known
  | _ => exact references

end Serve

theorem deskServed {jsonb : Json → Option Json} {tenant : Tenant} {s : Creation} {k : Nat} {a : Answer}
    {c next : Creating} {t : Rows} {kind : Kind} (found : s.requests[k]? = some c)
    (passes : Passes tenant kind s.rows t c next) (served : serveOne jsonb tenant s.rows a c = some (next,t)) :
    desk tenant kind ⟨t,s.requests.set k next⟩ = desk tenant kind s ∨
      ∃ act, Admission.step (limit tenant kind) (desk tenant kind s) act =
          some (desk tenant kind ⟨t,s.requests.set k next⟩) ∧
        (act = .pass → admits jsonb tenant kind s (.serve k a) = true) := by
  have counted := countSet (b := next) found (inserts kind)
  cases passes with
  | apart before after same =>
    left
    simp only [before,after] at counted
    simp only [desk,same,Desk.mk.injEq,true_and]
    omega
  | admits before after same below =>
    right
    refine ⟨.pass,(if_pos below).trans (congrArg some ?_),fun _ => by simp [admits,found,before,after,served]⟩
    simp only [before,after,Bool.false_eq_true,if_false,if_true] at counted
    simp only [desk,same,Desk.mk.injEq,true_and]
    omega
  | leaves before after bound =>
    right
    simp only [before,after,Bool.false_eq_true,if_false,if_true] at counted
    have waiting : 0 < s.requests.countP (inserts kind) :=
      List.countP_pos_iff.mpr ⟨c,List.mem_of_getElem? found,before⟩
    rcases bound with same | grown
    · refine ⟨.leave,(if_pos waiting).trans (congrArg some ?_),fun other => (by cases other)⟩
      simp only [desk,same,Desk.mk.injEq,true_and]
      omega
    · refine ⟨.enter,(if_pos waiting).trans (congrArg some ?_),fun other => (by cases other)⟩
      simp only [desk,grown,Desk.mk.injEq,true_and]
      omega

structure Orderly (tenant : Tenant) (s : Creation) : Prop where
  references : References s.rows
  reserved : ∀ kind, Reserved (limit tenant kind) (desk tenant kind s)

theorem orderlyStep (jsonb : Json → Option Json) (tenant : Tenant) (s : Creation) (e : Asked) (t : Creation)
    (inv : Orderly tenant s) (counts : CountsAll jsonb tenant s e) (moved : create jsonb tenant s e = some t) :
    Orderly tenant t := by
  have opened : ∀ c : Creating, (∀ kind, inserts kind c = false) →
      Orderly tenant {s with requests := s.requests ++ [c]} := by
    intro c idle
    refine ⟨inv.references,fun kind => ?_⟩
    have same : desk tenant kind {s with requests := s.requests ++ [c]} = desk tenant kind s := by simp [desk,idle]
    rw [same]
    exact inv.reserved kind
  cases e with
  | createGroup body => cases moved; exact opened _ (fun kind => (by cases kind <;> rfl))
  | createInstance group body => cases moved; exact opened _ (fun kind => (by cases kind <;> rfl))
  | serve k a =>
    simp only [create,bind,Option.bind_eq_some_iff] at moved
    obtain ⟨c,found,⟨next,rows⟩,served,same⟩ := moved
    cases same
    refine ⟨referencesServed inv.references served,fun kind => ?_⟩
    rcases deskServed found (passesServed inv.references served kind) served with same | ⟨act,moved,admitted⟩
    · rw [same]
      exact inv.reserved kind
    · refine reservedStep (inv.reserved kind) ?_ moved
      cases act with
      | pass => exact counts kind (admitted rfl)
      | _ => trivial

/-- Where every check also counts the requests that are still to insert, the tenant stays within both limits. -/
theorem quotaRun (jsonb : Json → Option Json) (tenant : Tenant) (r : Rows) (events : List Asked)
    (references : References r) (within : WithinQuota tenant ⟨r,[]⟩)
    (counts : Guarded (create jsonb tenant) (CountsAll jsonb tenant) ⟨r,[]⟩ events) :
    Throughout (create jsonb tenant) (WithinQuota tenant) ⟨r,[]⟩ events := by
  have start : Orderly tenant ⟨r,[]⟩ := ⟨references,fun kind => by simpa [Reserved,desk] using within kind⟩
  refine throughoutMono (fun s inv kind => ?_) (guardedThroughout (orderlyStep jsonb tenant) start counts)
  have reserved := inv.reserved kind
  simp only [Reserved,desk] at reserved
  omega

def smallTenant : Tenant := ⟨100,1,1⟩

def answersWith (id : UUID) : Answer := ⟨true,id,0,[]⟩

def groupRequest : Asked := .createGroup (some (.obj [(text "name",.str (text "vendas"))]))

def instanceRequest : Asked := .createInstance ⟨"1",some 1⟩ (some (.obj []))

def inTurn : List Asked :=
  [groupRequest,.serve 0 (answersWith 1),.serve 0 (answersWith 1),instanceRequest,.serve 1 (answersWith 11),
    .serve 1 (answersWith 11),.serve 1 (answersWith 11)]

theorem inTurnWithinQuota : Throughout (create some smallTenant) (WithinQuota smallTenant) ⟨⟨[],[]⟩,[]⟩ inTurn :=
  quotaRun some smallTenant ⟨[],[]⟩ inTurn (by decide) (fun kind => (by cases kind <;> decide))
    (guardedChecks (by decide +kernel))

def together : List Asked :=
  inTurn.take 3 ++ [instanceRequest,instanceRequest,.serve 1 (answersWith 11),.serve 2 (answersWith 12),
    .serve 1 (answersWith 11),.serve 2 (answersWith 12),.serve 1 (answersWith 11),.serve 2 (answersWith 12)]

theorem togetherOverQuota :
    (run (create some smallTenant) ⟨⟨[],[]⟩,[]⟩ together).map (fun s => count smallTenant s.rows .instances) = some 2 ∧
    ¬ Throughout (create some smallTenant) (WithinQuota smallTenant) ⟨⟨[],[]⟩,[]⟩ together := by
  have two : (run (create some smallTenant) ⟨⟨[],[]⟩,[]⟩ together).map (fun s => count smallTenant s.rows .instances) =
      some 2 := by decide +kernel
  refine ⟨two,fun always => ?_⟩
  obtain ⟨s,ran,counted⟩ := Option.map_eq_some_iff.mp two
  have within := throughoutEnd always ran .instances
  rw [counted] at within
  exact absurd within (by decide)

end WppGateway.Quotas
