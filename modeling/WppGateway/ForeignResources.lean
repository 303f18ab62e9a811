import WppGateway.ResourceHandlers

/-! A request that names a group, an instance or a message of somebody else is answered
as if the id did not exist, and leaves everything as it was. The instance by which a list of messages is filtered is
checked by nobody: there it takes a database in which a message and its instance are of one group. -/
namespace WppGateway.ForeignResources
open GoJson Domain Resources Manager Service ResourceHandlers
open Http (Param)

inductive Kind where
  | group
  | instance_
  | message
  | sender
  deriving DecidableEq, Repr

/- What the path names, and the query: instance_id of ListByGroup. -/
def names : Endpoint → List Kind
  | .groupCreate => []
  | .instanceGet | .instanceUpdate | .instanceDelete | .instanceGetQRCode | .instancePairPhone | .instanceConnect
  | .instanceDisconnect | .instanceRestart | .instanceGetStatus => [.instance_]
  | .messageGetStatus => [.group,.message]
  | .messageListByGroup => [.group,.sender]
  | _ => [.group]

def OwnsGroup (s : State) (tenant : Tenant) (id : UUID) : Prop :=
  ∃ group, groupById s.managed.rows id = some group ∧ group.tenantId = tenant.id

def OwnsInstance (s : State) (tenant : Tenant) (id : UUID) : Prop :=
  ∃ inst, instanceById s.managed.rows id = some inst ∧ OwnsGroup s tenant inst.groupId

def findMessage (s : State) (id : UUID) : Option MessageLog := s.messages.find? (fun m => m.id == id)

def OfGroup (s : State) (groupId id : UUID) : Prop := ∃ m, findMessage s id = some m ∧ m.groupId = some groupId

/- The request names something that is not the tenant's. A message is foreign to the tenant's own group. -/
def Foreign (s : State) (tenant : Tenant) (q : Req) : Kind → Prop
  | .group => ∃ id, q.group.parsed = some id ∧ ¬ OwnsGroup s tenant id
  | .instance_ => ∃ id, q.instance_.parsed = some id ∧ ¬ OwnsInstance s tenant id
  | .message => ∃ groupId id, q.group.parsed = some groupId ∧ OwnsGroup s tenant groupId ∧ q.message.parsed = some id ∧
      ¬ OfGroup s groupId id
  | .sender => ∃ id inst, q.instanceFilter = some id ∧ instanceById s.managed.rows id = some inst ∧
      ¬ OwnsGroup s tenant inst.groupId

def Absent (s : State) (p : Param) : Kind → Prop
  | .group => ∃ id, p.parsed = some id ∧ groupById s.managed.rows id = none
  | .instance_ => ∃ id, p.parsed = some id ∧ instanceById s.managed.rows id = none
  | .message => ∃ id, p.parsed = some id ∧ findMessage s id = none
  | .sender => ∃ id, p.parsed = some id ∧ instanceById s.managed.rows id = none ∧
      ∀ m ∈ s.messages, m.instanceId ≠ some id

def naming (q : Req) (p : Param) : Kind → Req
  | .group => {q with group := p}
  | .instance_ => {q with instance_ := p}
  | .message => {q with message := p}
  | .sender => {q with instanceFilter := p.parsed}

/- The lookups succeed. A list is itself the lookup of what its query names. -/
structure LookedUp (a : Answers) (kind : Kind) : Prop where
  group : a.group = true
  instance_ : a.instance_ = true
  message : a.message = true
  listed : kind = .sender → a.read = true

/- A message and the instance it was sent through are of one group, as every call of the API keeps it. -/
def Homed (s : State) : Prop :=
  ∀ m ∈ s.messages, ∀ i ∈ s.managed.rows.instances, m.instanceId = some i.id → m.groupId = some i.groupId

def Unsent (s : State) (tenant : Tenant) (id : UUID) : Prop :=
  ∀ m ∈ s.messages, m.instanceId = some id → ∀ group, m.groupId = some group → ¬ OwnsGroup s tenant group

def emptyPage (s : State) (q : Req) (a : Answers) : State × Reply :=
  withGroup s q a (fun _ _ => (s,if q.offset.getD 0 < 0 then errInternal "Failed to list messages"
    else ok (.messages [] ⟨0,min (q.limit.getD 50) 200,q.offset.getD 0⟩)))

def refusal (s : State) (q : Req) (a : Answers) : Kind → State × Reply
  | .group => (s,errNotFound "Group not found")
  | .instance_ => (s,errNotFound "Instance not found")
  | .message => (s,errNotFound "Message not found")
  | .sender => emptyPage s q a

section Refused
variable {s : State} {q : Req} {a b : Answers} {tenant : Tenant} {kind : Kind}

theorem groupRefused (auth : q.tenant = some tenant) (foreign : Foreign s tenant q .group) (looked : LookedUp a kind)
    (go : Tenant → GroupRow → State × Reply) : withGroup s q a go = refusal s q a .group := by
  obtain ⟨id,parsed,none_⟩ := foreign
  unfold withGroup
  simp only [auth,parsed,looked.group]
  cases found : groupById s.managed.rows id with
  | none => rfl
  | some group =>
    have other : group.tenantId ≠ tenant.id := fun own => none_ ⟨group,found,own⟩
    simp only [if_pos other]
    rfl

theorem instanceRefused (auth : q.tenant = some tenant) (foreign : Foreign s tenant q .instance_)
    (looked : LookedUp a kind) (go : InstanceRow → State × Reply) :
    withInstance s q a go = refusal s q a .instance_ := by
  obtain ⟨id,parsed,none_⟩ := foreign
  have hidden : verifyOwnership s tenant id a = .ok none := by
    unfold verifyOwnership
    simp only [looked.group,looked.instance_]
    cases found : instanceById s.managed.rows id with
    | none => rfl
    | some inst =>
      dsimp only
      cases owner : groupById s.managed.rows inst.groupId with
      | none => rfl
      | some group =>
        have other : group.tenantId ≠ tenant.id := fun own => none_ ⟨inst,found,group,owner,own⟩
        simp only [if_pos other]
        rfl
  unfold withInstance
  simp only [auth,parsed,hidden]
  rfl

theorem groupPassed {id : UUID} (auth : q.tenant = some tenant) (parsed : q.group.parsed = some id)
    (owns : OwnsGroup s tenant id) (looked : LookedUp a kind) (go : Tenant → GroupRow → State × Reply) :
    ∃ group, group.id = id ∧ withGroup s q a go = go tenant group := by
  obtain ⟨group,found,own⟩ := owns
  refine ⟨group,(Table.findMember found).2,?_⟩
  unfold withGroup
  simp [auth,parsed,looked.group,found,own]

theorem messageRefused (auth : q.tenant = some tenant) (foreign : Foreign s tenant q .message)
    (looked : LookedUp a kind) : messageGetStatus s q a = refusal s q a .message := by
  obtain ⟨groupId,id,parsed,owns,message,none_⟩ := foreign
  unfold messageGetStatus
  obtain ⟨group,rfl,passed⟩ := groupPassed auth parsed owns looked _
  rw [passed]
  simp only [message,looked.message]
  cases found : s.messages.find? (fun m => m.id == id) with
  | none => rfl
  | some m =>
    have other : m.groupId ≠ some group.id := fun own => none_ ⟨m,found,own⟩
    simp only [if_neg other]
    rfl

theorem withGroupOwn {go next : Tenant → GroupRow → State × Reply} (auth : q.tenant = some tenant)
    (same : ∀ group, OwnsGroup s tenant group.id → go tenant group = next tenant group) :
    withGroup s q a go = withGroup s q a next := by
  unfold withGroup
  simp only [auth]
  cases q.group.parsed with
  | none => rfl
  | some id =>
    dsimp only
    split
    · rfl
    · cases found : groupById s.managed.rows id with
      | none => rfl
      | some group =>
        dsimp only
        split
        · rfl
        · next own =>
          have here : group.id = id := (Table.findMember found).2
          exact same group ⟨group,here.symm ▸ found,not_ne_iff.mp own⟩

theorem unsentListed {id : UUID} (auth : q.tenant = some tenant) (named : q.instanceFilter = some id)
    (unsent : Unsent s tenant id) (looked : LookedUp a .sender) : messageListByGroup s q a = emptyPage s q a := by
  unfold messageListByGroup emptyPage
  apply withGroupOwn auth
  intro group owns
  have nothing : s.messages.filter (fun m => m.groupId == some group.id && q.status.all (· == messageStatusText m.status) &&
      q.recipient.all (· == m.recipient) && q.instanceFilter.all (fun i => m.instanceId == some i)) = [] := by
    rw [List.filter_eq_nil_iff]
    intro m member passes
    simp only [named,Option.all_some,Bool.and_eq_true,beq_iff_eq] at passes
    exact unsent m member passes.2 group.id passes.1.1.1 owns
  simp only [looked.listed rfl,findMessages,nothing,if_true]
  by_cases negative : q.offset.getD 0 < 0
  · simp only [if_pos negative]
  · simp only [if_neg negative,List.reverse_nil,List.drop_nil,List.take_nil,List.length_nil,Nat.cast_zero]

theorem foreignUnsent {id : UUID} {inst : InstanceRow} (homed : Homed s)
    (found : instanceById s.managed.rows id = some inst) (none_ : ¬ OwnsGroup s tenant inst.groupId) :
    Unsent s tenant id := by
  intro m member by_ group inside owns
  obtain ⟨listed,here⟩ := Table.findMember found
  have home := homed m member inst listed (here.symm ▸ by_)
  have same : inst.groupId = group := Option.some.inj (home.symm.trans inside)
  exact none_ (same.symm ▸ owns)

theorem foreignRefused {e : Endpoint} (named : kind ∈ names e) (auth : q.tenant = some tenant)
    (foreign : Foreign s tenant q kind) (homed : kind = .sender → Homed s) (looked : LookedUp a kind) :
    handle e s q a = refusal s q a kind := by
  cases e
  case groupCreate => cases named
  case messageGetStatus =>
    rcases List.mem_pair.mp named with rfl | rfl
    · exact groupRefused auth foreign looked _
    · exact messageRefused auth foreign looked
  case messageListByGroup =>
    rcases List.mem_pair.mp named with rfl | rfl
    · exact groupRefused auth foreign looked _
    · obtain ⟨id,inst,filter,found,none_⟩ := foreign
      exact unsentListed auth filter (foreignUnsent (homed rfl) found none_) looked
  case instanceGet | instanceUpdate | instanceDelete | instanceGetQRCode | instancePairPhone | instanceConnect |
      instanceDisconnect | instanceRestart | instanceGetStatus =>
    cases List.mem_singleton.mp named
    exact instanceRefused auth foreign looked _
  all_goals
    cases List.mem_singleton.mp named
    exact groupRefused auth foreign looked _

theorem absentRefused {e : Endpoint} {p : Param} (named : kind ∈ names e) (auth : q.tenant = some tenant)
    (foreign : Foreign s tenant q kind) (absent : Absent s p kind) (looked : LookedUp b kind) :
    handle e s (naming q p kind) b = refusal s (naming q p kind) b kind := by
  cases kind with
  | group =>
    obtain ⟨id,parsed,none_⟩ := absent
    have unknown : ¬ OwnsGroup s tenant id := fun ⟨group,found,_⟩ => by rw [none_] at found; cases found
    exact foreignRefused (q := naming q p .group) named auth ⟨id,parsed,unknown⟩ (fun h => by cases h) looked
  | instance_ =>
    obtain ⟨id,parsed,none_⟩ := absent
    have unknown : ¬ OwnsInstance s tenant id := fun ⟨inst,found,_⟩ => by rw [none_] at found; cases found
    exact foreignRefused (q := naming q p .instance_) named auth ⟨id,parsed,unknown⟩ (fun h => by cases h) looked
  | message =>
    obtain ⟨id,parsed,none_⟩ := absent
    obtain ⟨groupId,_,group,owns,_,_⟩ := foreign
    have unknown : ¬ OfGroup s groupId id := fun ⟨m,found,_⟩ => by rw [none_] at found; cases found
    exact foreignRefused (q := naming q p .message) named auth ⟨groupId,id,group,owns,parsed,unknown⟩
      (fun h => by cases h) looked
  | sender =>
    obtain ⟨id,parsed,_,unnamed⟩ := absent
    have list : e = .messageListByGroup := by cases e <;> simp [names] at named ⊢
    subst list
    exact unsentListed (q := naming q p .sender) auth parsed
      (fun m member by_ => (unnamed m member by_).elim) looked

theorem refusalSame {p : Param} (lookedUp : LookedUp a kind) (lookedAbsent : LookedUp b kind) :
    refusal s (naming q p kind) b kind = refusal s q a kind := by
  cases kind with
  | sender =>
    simp only [refusal,emptyPage,withGroup,naming,lookedUp.group,lookedAbsent.group]
    rfl
  | group | instance_ | message => rfl

theorem refusalReads : (refusal s q a kind).1 = s := by
  cases kind with
  | sender =>
    simp only [refusal,emptyPage,withGroup]
    repeat' split
    all_goals rfl
  | group | instance_ | message => rfl

end Refused

/-- Whatever the request names that is not the tenant's, it leaves the state as it was and is answered like the same
request for an id that does not exist. -/
theorem foreignLooksAbsent {e : Endpoint} {kind : Kind} (named : kind ∈ names e) {s : State} {q : Req} {tenant : Tenant}
    {p : Param} {a b : Answers} (auth : q.tenant = some tenant) (foreign : Foreign s tenant q kind)
    (absent : Absent s p kind) (homed : kind = .sender → Homed s) (looked : LookedUp a kind)
    (lookedAbsent : LookedUp b kind) :
    (handle e s q a).1 = s ∧ (handle e s q a).2 = (handle e s (naming q p kind) b).2 := by
  rw [foreignRefused named auth foreign homed looked,absentRefused named auth foreign absent lookedAbsent,
    refusalSame looked lookedAbsent]
  exact ⟨refusalReads,rfl⟩

def stranger : Tenant := ⟨200,5,20⟩

theorem strangerDeletes :
    (handle .instanceDelete (serving sampleRows) (asking stranger 1 11) answering).1 = serving sampleRows ∧
    (handle .instanceDelete (serving sampleRows) (asking stranger 1 11) answering).2 =
      (handle .instanceDelete (serving sampleRows)
        (naming (asking stranger 1 11) ⟨"99",some 99⟩ .instance_) answering).2 :=
  foreignLooksAbsent (List.mem_singleton_self Kind.instance_) rfl
    ⟨11,rfl,fun owns => (by obtain ⟨inst,found,group,owner,own⟩ := owns; cases found; cases owner; cases own)⟩
    ⟨99,rfl,rfl⟩ (fun h => by cases h) ⟨rfl,rfl,rfl,fun h => by cases h⟩ ⟨rfl,rfl,rfl,fun h => by cases h⟩

def straying : State :=
  {serving {sampleRows with groups := [groupRow 1 100,groupRow 2 200]} with
    messages := [⟨21,some 2,some 11,text "5511999999999",text "text",.sent,none,0⟩]}

def filtered : Req := {asking stranger 2 11 with instanceFilter := some 11}

theorem foreignSenderListed :
    Foreign straying stranger filtered .sender ∧ Absent straying ⟨"99",some 99⟩ .sender ∧
    LookedUp answering .sender ∧
    (handle .messageListByGroup straying filtered answering).2 ≠
      (handle .messageListByGroup straying (naming filtered ⟨"99",some 99⟩ .sender) answering).2 := by
  refine ⟨⟨11,_,rfl,rfl,fun owns => ?_⟩,⟨99,rfl,rfl,by decide⟩,⟨rfl,rfl,rfl,fun _ => rfl⟩,fun same => ?_⟩
  · obtain ⟨group,found,own⟩ := owns
    cases found
    cases own
  · cases same

end WppGateway.ForeignResources
