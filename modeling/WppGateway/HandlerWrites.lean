import WppGateway.TenantWrites

/-! Every handler of a resource as the writes it makes. In two states in which its tenant has the same it makes the
same writes, all of them to what is the tenant's, and answers the same. -/
namespace WppGateway.HandlerWrites
open GoJson Domain Store Table Selection InstanceChoice Resources Manager Links Service ResourceHandlers
open TenantView TenantWrites
open Gateway (System)
open Http (invalidUUID validPhone)

def writes (s : State) (ws : List Write) : State := ws.foldl write s

def unspent (new : Option UUID) (w : Write) : Option UUID := if (added w).isSome then none else new

/- Each write is allowed where it is made. One of them may add something, under the new id. -/
def Does (tenant : UUID) : Option UUID → State → List Write → Prop
  | _,_,[] => True
  | new,s,w::rest => Allowed tenant s w ∧ (∀ key ∈ added w, key ∈ new) ∧ Does tenant (unspent new w) (write s w) rest

section Writes
variable {tenant other : UUID} {new : Option UUID} {s t : State} {used : List UUID} {ws : List Write}

theorem leftOf {p : UUID → Prop} (w : Write) (known : ∀ key ∈ new, p key) : ∀ key ∈ unspent new w, p key := by
  intro key left
  unfold unspent at left
  split at left
  · cases left
  · exact known key left

theorem newKnown (id : UUID) (used : List UUID) : ∀ key ∈ some id, key ∈ id::used :=
  fun _ is => Option.some.inj is ▸ List.mem_cons_self

theorem soundWrites (sound : Sound used s) (known : ∀ key ∈ new, key ∈ used) (does : Does tenant new s ws) :
    Sound used (writes s ws) := by
  induction ws generalizing s new with
  | nil => exact sound
  | cons w rest ih =>
    exact ih (soundWrite sound does.1 (fun key is => known key (does.2.1 key is))) (leftOf w known) does.2.2

theorem frameWrites (sound : Sound used s) (known : ∀ key ∈ new, key ∈ used) (does : Does tenant new s ws)
    (apart : other ≠ tenant) : SameFor other s (writes s ws) := by
  induction ws generalizing s new with
  | nil => exact sameRefl other s
  | cons w rest ih =>
    have next := soundWrite sound does.1 (fun key is => known key (does.2.1 key is))
    exact sameTrans (frameWrite sound does.1 apart) (ih next (leftOf w known) does.2.2)

theorem bothWrites (same : SameFor tenant s t) (left : Sound used s) (right : Sound used t)
    (known : ∀ key ∈ new, key ∈ used) (does : Does tenant new s ws) (also : Does tenant new t ws) :
    SameFor tenant (writes s ws) (writes t ws) := by
  induction ws generalizing s t new with
  | nil => exact same
  | cons w rest ih =>
    exact ih (bothWrite same left right does.1 also.1) (soundWrite left does.1 (fun key is => known key (does.2.1 key is)))
      (soundWrite right also.1 (fun key is => known key (also.2.1 key is))) (leftOf w known) does.2.2 also.2.2

def sent : Write → List (UUID × GoString × GoString)
  | .send call => [call]
  | _ => []

theorem writeSends (s : State) (w : Write) : (write s w).sends = s.sends ++ sent w := by
  cases w with
  | send call => rfl
  | emit e =>
    simp only [write,emit,sent,List.append_nil]
    split
    · rfl
    · split <;> rfl
  | _ => exact (List.append_nil _).symm

theorem writesSends (s : State) (ws : List Write) : (writes s ws).sends = s.sends ++ ws.flatMap sent := by
  induction ws generalizing s with
  | nil => exact (List.append_nil _).symm
  | cons w rest ih => exact (ih (write s w)).trans (by rw [writeSends,List.append_assoc,List.flatMap_cons])

end Writes

def Agree {ρ : Type} (tenant : UUID) (new : Option UUID) (s t : State) (x y : State × ρ) : Prop :=
  y.2 = x.2 ∧ ∃ ws, x.1 = writes s ws ∧ y.1 = writes t ws ∧ Does tenant new s ws ∧ Does tenant new t ws

structure Pair (tenant key : UUID) (used : List UUID) (s t : State) : Prop where
  same : SameFor tenant s t
  left : Sound used s
  right : Sound used t
  new : key ∉ used

section Handlers
variable {tenant key id : UUID} {new : Option UUID} {used : List UUID} {s t : State} {q : Req} {a : Answers}

theorem Pair.unknownLeft (p : Pair tenant key used s t) : Unknown s key := p.left.known key p.new
theorem Pair.unknownRight (p : Pair tenant key used s t) : Unknown t key := p.right.known key p.new

theorem agreeSame {ρ : Type} (answer : ρ) : Agree tenant new s t (s,answer) (t,answer) := ⟨rfl,[],rfl,rfl,trivial,trivial⟩

theorem agreeWrite {ρ : Type} {w : Write} {answer : ρ} (allowed : Allowed tenant s w) (also : Allowed tenant t w)
    (adds : ∀ key ∈ added w, key ∈ new) : Agree tenant new s t (write s w,answer) (write t w,answer) :=
  ⟨rfl,[w],rfl,rfl,⟨allowed,adds,trivial⟩,⟨also,adds,trivial⟩⟩

theorem ownsAlso (p : Pair tenant key used s t) (own : owns s.managed.rows tenant id = true) :
    owns t.managed.rows tenant id = true := p.same.owns ▸ own

theorem ownsInstanceAlso (p : Pair tenant key used s t) (own : ownsInstance s.managed.rows tenant id = true) :
    ownsInstance t.managed.rows tenant id = true := p.same.ownsInstance ▸ own

theorem groupRefused {k : State} {row : Tenant} {go : Tenant → GroupRow → State × Reply} (auth : q.tenant = some row)
    (parsed : q.group.parsed = some id) (looked : a.group = true) (foreign : owns k.managed.rows row.id id = false) :
    withGroup k q a go = (k,errNotFound "Group not found") := by
  unfold withGroup
  simp only [auth,parsed,looked,Bool.true_eq_false,if_false]
  cases found : groupById k.managed.rows id with
  | none => rfl
  | some g =>
    have other : g.tenantId ≠ row.id := by
      intro same
      obtain ⟨member,here⟩ := findMember found
      rw [ownsIff.mpr ⟨g,member,same,here⟩] at foreign
      cases foreign
    simp only [if_pos other]

theorem agreeGroup (p : Pair tenant key used s t) (auth : ∀ row, q.tenant = some row → row.id = tenant)
    {go go' : Tenant → GroupRow → State × Reply}
    (each : ∀ row group, row.id = tenant → groupById s.managed.rows group.id = some group →
      owns s.managed.rows tenant group.id = true → Agree tenant new s t (go row group) (go' row group)) :
    Agree tenant new s t (withGroup s q a go) (withGroup t q a go') := by
  cases authenticated : q.tenant with
  | none => simp only [withGroup,authenticated]; exact agreeSame _
  | some row =>
    cases parsed : q.group.parsed with
    | none => simp only [withGroup,authenticated,parsed]; exact agreeSame _
    | some id =>
      cases looked : a.group with
      | false => simp only [withGroup,authenticated,parsed,looked]; exact agreeSame _
      | true =>
        have owner := auth row authenticated
        cases own : owns s.managed.rows tenant id with
        | false =>
          rw [groupRefused authenticated parsed looked (by rw [owner]; exact own),
            groupRefused authenticated parsed looked (by rw [owner,p.same.owns]; exact own)]
          exact agreeSame _
        | true =>
          obtain ⟨g,member,of,here⟩ := ownsIff.mp own
          have found : groupById s.managed.rows id = some g := here ▸ findKey p.left.groups member
          have also : groupById t.managed.rows id = some g := (groupSame p.same p.left p.right own).trans found
          have passes : ¬ g.tenantId ≠ row.id := by rw [of,owner]; exact not_not.mpr rfl
          simp only [withGroup,authenticated,parsed,looked,found,also,if_neg passes]
          exact each row g owner (here ▸ found) (here ▸ own)

theorem instanceRefused {k : State} {row : Tenant} {go : InstanceRow → State × Reply} (auth : q.tenant = some row)
    (parsed : q.instance_.parsed = some id) (looked : a.group = true) (read : a.instance_ = true)
    (foreign : ownsInstance k.managed.rows row.id id = false) :
    withInstance k q a go = (k,errNotFound "Instance not found") := by
  have hidden : verifyOwnership k row id a = .ok none := by
    unfold verifyOwnership
    simp only [looked,read,Bool.true_eq_false,if_false]
    cases found : instanceById k.managed.rows id with
    | none => rfl
    | some inst =>
      dsimp only
      cases owner : groupById k.managed.rows inst.groupId with
      | none => rfl
      | some g =>
        have other : g.tenantId ≠ row.id := by
          intro same
          obtain ⟨member,here⟩ := findMember found
          obtain ⟨inside,there⟩ := findMember owner
          rw [ownsInstanceIff.mpr ⟨inst,member,ownsIff.mpr ⟨g,inside,same,there⟩,here⟩] at foreign
          cases foreign
        simp only [if_pos other]
  unfold withInstance
  simp only [auth,parsed,hidden]

theorem instancePassed {k : State} {row : Tenant} {inst : InstanceRow} {go : InstanceRow → State × Reply}
    (sound : Sound used k) (auth : q.tenant = some row) (parsed : q.instance_.parsed = some id) (looked : a.group = true)
    (read : a.instance_ = true) (found : instanceById k.managed.rows id = some inst)
    (own : owns k.managed.rows row.id inst.groupId = true) : withInstance k q a go = go inst := by
  obtain ⟨g,member,of,here⟩ := ownsIff.mp own
  have group : groupById k.managed.rows inst.groupId = some g := here ▸ findKey sound.groups member
  have shown : verifyOwnership k row id a = .ok (some inst) := by
    simp only [verifyOwnership,looked,read,Bool.true_eq_false,if_false,found,group,of]
    simp
  unfold withInstance
  simp only [auth,parsed,shown]

theorem instanceFails {k : State} {row : Tenant} {inst : InstanceRow} {go : InstanceRow → State × Reply}
    (auth : q.tenant = some row) (parsed : q.instance_.parsed = some id) (unlooked : a.group = false)
    (read : a.instance_ = true) (found : instanceById k.managed.rows id = some inst) :
    withInstance k q a go = (k,errInternal "Failed to get instance") := by
  simp only [withInstance,auth,parsed,verifyOwnership,read,Bool.true_eq_false,if_false,found,unlooked,if_true]

theorem instanceMissing {k : State} {row : Tenant} {go : InstanceRow → State × Reply}
    (auth : q.tenant = some row) (parsed : q.instance_.parsed = some id) (read : a.instance_ = true)
    (absent : instanceById k.managed.rows id = none) : withInstance k q a go = (k,errNotFound "Instance not found") := by
  simp only [withInstance,auth,parsed,verifyOwnership,read,Bool.true_eq_false,if_false,absent]

/- Where the group cannot be looked up, an instance of somebody else does not look like one that is not there: two
states are compared only where it can. -/
theorem agreeInstance (p : Pair tenant key used s t) (auth : ∀ row, q.tenant = some row → row.id = tenant)
    (looked : a.group = true ∨ t = s) {go go' : InstanceRow → State × Reply}
    (each : ∀ inst, instanceById s.managed.rows inst.id = some inst → ownsInstance s.managed.rows tenant inst.id = true →
      Agree tenant new s t (go inst) (go' inst)) :
    Agree tenant new s t (withInstance s q a go) (withInstance t q a go') := by
  cases authenticated : q.tenant with
  | none => simp only [withInstance,authenticated]; exact agreeSame _
  | some row =>
    cases parsed : q.instance_.parsed with
    | none => simp only [withInstance,authenticated,parsed]; exact agreeSame _
    | some id =>
      cases read : a.instance_ with
      | false => simp only [withInstance,authenticated,parsed,verifyOwnership,read,if_true]; exact agreeSame _
      | true =>
        have owner := auth row authenticated
        cases group : a.group with
        | false =>
          cases looked.resolve_left (by simp [group])
          cases found : instanceById s.managed.rows id with
          | none =>
            rw [instanceMissing authenticated parsed read found,instanceMissing authenticated parsed read found]
            exact agreeSame _
          | some inst =>
            rw [instanceFails authenticated parsed group read found,instanceFails authenticated parsed group read found]
            exact agreeSame _
        | true =>
          cases own : ownsInstance s.managed.rows tenant id with
          | false =>
            rw [instanceRefused authenticated parsed group read (by rw [owner]; exact own),
              instanceRefused authenticated parsed group read (by rw [owner,p.same.ownsInstance]; exact own)]
            exact agreeSame _
          | true =>
            obtain ⟨inst,member,inGroup,here⟩ := ownsInstanceIff.mp own
            have found : instanceById s.managed.rows id = some inst := here ▸ findKey p.left.instances member
            have also : instanceById t.managed.rows id = some inst := (rowSame p.same p.left p.right own).trans found
            rw [instancePassed p.left authenticated parsed group read found (owner.symm ▸ inGroup),
              instancePassed p.right authenticated parsed group read also (owner.symm ▸ ownsAlso p inGroup)]
            exact each inst (here ▸ found) (here ▸ own)

theorem createGroupMade (jsonb : Json → Option Json) (secret : GoString) (owner : UUID) (input : CreateGroupInput)
    {r : Rows} (absent : groupById r key = none) :
    createGroup jsonb r key secret owner input =
      ((createGroup jsonb ⟨[],[]⟩ key secret owner input).map Prod.snd).map
        (fun g => ({r with groups := r.groups ++ [g]},g)) := by
  simp only [createGroup,absent,bind]
  cases varchar 255 input.name <;> try rfl
  cases strategyColumn input.strategy <;> try rfl
  cases jsonb (input.config.getD (.obj [])) <;> try rfl
  cases nullable textColumn input.webhookUrl <;> try rfl
  cases nullable (List.mapM textColumn) input.webhookEvents <;> rfl

theorem createInstanceMade (createdAt : Int) (groupId : UUID) (input : CreateInstanceInput) {r : Rows} {g : GroupRow}
    (absent : instanceById r key = none) (known : groupById r groupId = some g) :
    createInstance r key createdAt groupId input =
      ((createInstance ⟨[g],[]⟩ key createdAt groupId input).map Prod.snd).map
        (fun i => ({r with instances := r.instances ++ [i]},i)) := by
  have here : groupById ⟨[g],[]⟩ groupId = some g := by
    simp [groupById,(findMember known).2]
  simp only [createInstance,absent,known,here,bind]
  cases nullable (varchar 255) input.displayName <;> try rfl
  cases int4 input.priority <;> try rfl
  cases int4 input.dailyBudget <;> try rfl
  cases int4 input.hourlyBudget <;> rfl

theorem updateGroupMade (jsonb : Json → Option Json) (input : UpdateGroupInput) :
    (∀ (r : Rows) (id : UUID), updateGroup jsonb r id input = none) ∨
      ∃ f : GroupRow → GroupRow, (∀ g : GroupRow, (f g).id = g.id ∧ (f g).tenantId = g.tenantId) ∧
        ∀ (r : Rows) (id : UUID), updateGroup jsonb r id input =
          some ({r with groups := update (fun g : GroupRow => g.id) id f r.groups},(groupById r id).map f) := by
  simp only [updateGroup,bind]
  cases nullable (varchar 255) input.name
  · exact .inl (fun _ _ => rfl)
  cases nullable strategyColumn input.strategy
  · exact .inl (fun _ _ => rfl)
  cases nullable jsonb input.config
  · exact .inl (fun _ _ => rfl)
  cases nullable textColumn input.webhookUrl
  · exact .inl (fun _ _ => rfl)
  cases nullable (List.mapM textColumn) input.webhookEvents
  · exact .inl (fun _ _ => rfl)
  · refine .inr ⟨_,?_,fun _ _ => rfl⟩
    exact fun _ => ⟨rfl,rfl⟩

theorem updateInstanceMade (input : UpdateInstanceInput) :
    (∀ (r : Rows) (id : UUID), Resources.updateInstance r id input = none) ∨
      ∃ f : InstanceRow → InstanceRow, (∀ i : InstanceRow, (f i).id = i.id ∧ (f i).groupId = i.groupId) ∧
        ∀ (r : Rows) (id : UUID), Resources.updateInstance r id input =
          some ({r with instances := update (fun i : InstanceRow => i.id) id f r.instances},(instanceById r id).map f) := by
  simp only [Resources.updateInstance,bind]
  cases nullable (varchar 255) input.displayName
  · exact .inl (fun _ _ => rfl)
  cases nullable int4 input.priority
  · exact .inl (fun _ _ => rfl)
  cases nullable int4 input.dailyBudget
  · exact .inl (fun _ _ => rfl)
  cases nullable int4 input.hourlyBudget
  · exact .inl (fun _ _ => rfl)
  · refine .inr ⟨_,?_,fun _ _ => rfl⟩
    exact fun _ => ⟨rfl,rfl⟩

theorem countGroupsOwn (r : Rows) (tenant : UUID) : countGroups r tenant = (ownGroups r tenant).length :=
  List.countP_eq_length_filter

theorem countInstancesOwn (r : Rows) (tenant : UUID) : countInstances r tenant = (ownInstances r tenant).length := by
  rw [countInstances,List.countP_eq_length_filter]
  congr 2
  funext i
  rw [Bool.eq_iff_iff,ownsIff]
  simp [and_comm]

/-! The handlers of groups. -/

theorem groupCreateAgrees (p : Pair tenant a.id used s t) (auth : ∀ row, q.tenant = some row → row.id = tenant) :
    Agree tenant (some a.id) s t (groupCreate s q a) (groupCreate t q a) := by
  unfold groupCreate
  split
  · exact agreeSame _
  next row authenticated =>
  have owner := auth row authenticated
  rw [countGroupsOwn,countGroupsOwn,owner,p.same.groups]
  split
  · exact agreeSame _
  split
  · exact agreeSame _
  split
  · exact agreeSame _
  split
  · exact agreeSame _
  next input _ _ =>
  generalize (if input.strategy = [] then {input with strategy := text "failover"} else input) = filled
  have absent {k : State} (unknown : Unknown k a.id) : groupById k.managed.rows a.id = none :=
    List.find?_eq_none.mpr (fun g member => by simpa using unknown.groups g member)
  dsimp only
  rw [createGroupMade a.jsonb a.secret tenant filled (absent p.unknownLeft),
    createGroupMade a.jsonb a.secret tenant filled (absent p.unknownRight)]
  cases a.write with
  | false => exact agreeSame _
  | true =>
    cases made : createGroup a.jsonb ⟨[],[]⟩ a.id a.secret tenant filled with
    | none => exact agreeSame _
    | some result =>
      obtain ⟨_,here,of,_⟩ := createGroupAdds (show createGroup _ _ _ _ _ _ = some (result.1,result.2) from made)
      exact agreeWrite (w := .addGroup result.2) ⟨of,here ▸ p.unknownLeft⟩ ⟨of,here ▸ p.unknownRight⟩
        (fun key is => congrArg some (here.symm.trans (Option.some.inj is)))

theorem groupGetAgrees (p : Pair tenant a.id used s t) (auth : ∀ row, q.tenant = some row → row.id = tenant) :
    Agree tenant (some a.id) s t (groupGet s q a) (groupGet t q a) :=
  agreeGroup p auth (fun _ _ _ _ _ => agreeSame _)

theorem groupUpdated (p : Pair tenant key used s t) {group : GroupRow} (own : owns s.managed.rows tenant group.id = true)
    (jsonb : Json → Option Json) (input : UpdateGroupInput) (answer : Option GroupRow → Reply) (failed : Reply) (ok : Bool) :
    Agree tenant new s t
      (match (if ok then updateGroup jsonb s.managed.rows group.id input else none) with
        | none => (s,failed)
        | some (rows,updated) => (writeRows s rows,answer updated))
      (match (if ok then updateGroup jsonb t.managed.rows group.id input else none) with
        | none => (t,failed)
        | some (rows,updated) => (writeRows t rows,answer updated)) := by
  cases ok with
  | false => exact agreeSame _
  | true =>
    rcases updateGroupMade jsonb input with none_ | ⟨f,keeps,made⟩
    · simp only [none_]
      exact agreeSame _
    · simp only [made,if_true]
      rw [groupSame p.same p.left p.right own]
      exact agreeWrite (w := .editGroup group.id f) ⟨own,keeps⟩ ⟨ownsAlso p own,keeps⟩ (fun _ is => (by cases is))

theorem groupUpdateAgrees (p : Pair tenant a.id used s t) (auth : ∀ row, q.tenant = some row → row.id = tenant) :
    Agree tenant (some a.id) s t (groupUpdate s q a) (groupUpdate t q a) := by
  refine agreeGroup p auth (fun _ group _ _ own => ?_)
  split
  · exact agreeSame _
  · exact groupUpdated p own a.jsonb _ (fun updated => ok ((updated.map shown).getD (.group none))) _ a.write

theorem groupDeleteAgrees (p : Pair tenant a.id used s t) (auth : ∀ row, q.tenant = some row → row.id = tenant) :
    Agree tenant (some a.id) s t (groupDelete s q a) (groupDelete t q a) := by
  refine agreeGroup p auth (fun _ group _ _ own => ?_)
  split
  · exact agreeWrite (w := .dropGroup group.id) own (ownsAlso p own) (fun _ is => (by cases is))
  · exact agreeSame _

theorem groupPauseAgrees (p : Pair tenant a.id used s t) (auth : ∀ row, q.tenant = some row → row.id = tenant) :
    Agree tenant (some a.id) s t (groupPause s q a) (groupPause t q a) :=
  agreeGroup p auth (fun _ group _ _ own =>
    agreeWrite (w := .setPaused group.id true) own (ownsAlso p own) (fun _ is => (by cases is)))

theorem groupResumeAgrees (p : Pair tenant a.id used s t) (auth : ∀ row, q.tenant = some row → row.id = tenant) :
    Agree tenant (some a.id) s t (groupResume s q a) (groupResume t q a) :=
  agreeGroup p auth (fun _ group _ _ own =>
    agreeWrite (w := .setPaused group.id false) own (ownsAlso p own) (fun _ is => (by cases is)))

/-! The handlers of instances, and what is shown of them. -/

theorem ownRows (r : Rows) (own : owns r tenant id = true) :
    r.instances.filter (fun i => i.groupId == id) = (ownInstances r tenant).filter (fun i => i.groupId == id) := by
  rw [ownInstances,List.filter_filter]
  refine List.filter_congr (fun i _ => ?_)
  cases here : i.groupId == id with
  | false => rfl
  | true => rw [eq_of_beq here,own]; rfl

theorem instancesOfSame (p : Pair tenant key used s t) (own : owns s.managed.rows tenant id = true) :
    instancesOf t.managed.rows id = instancesOf s.managed.rows id := by
  rw [instancesOf,instancesOf,ownRows _ own,ownRows _ (ownsAlso p own),p.same.instances]

theorem connectedSame (p : Pair tenant key used s t) (own : ownsInstance s.managed.rows tenant id = true) :
    wsConnected t id = wsConnected s id := by
  rw [wsConnected,wsConnected,connectedLink,connectedLink,p.same.links id own]

theorem memberOwned {i : InstanceRow} (own : owns s.managed.rows tenant id = true) (member : i ∈ s.managed.rows.instances)
    (here : i.groupId = id) : ownsInstance s.managed.rows tenant i.id = true :=
  ownsInstanceIff.mpr ⟨i,member,here ▸ own,rfl⟩

theorem instancesMember {i : InstanceRow} {r : Rows} (member : i ∈ instancesOf r id) : i ∈ r.instances ∧ i.groupId = id := by
  obtain ⟨inside,here⟩ := List.mem_filter.mp ((List.mem_insertionSort _).mp member)
  exact ⟨inside,by simpa using here⟩

theorem groupStatusSame (p : Pair tenant key used s t) (own : owns s.managed.rows tenant id = true) :
    getGroupStatus t id a = getGroupStatus s id a := by
  have infos : (instancesOf s.managed.rows id).map (instanceInfo t) = (instancesOf s.managed.rows id).map (instanceInfo s) := by
    refine List.map_congr_left (fun i member => ?_)
    obtain ⟨inside,here⟩ := instancesMember member
    rw [instanceInfo,instanceInfo,connectedSame p (memberOwned own inside here)]
  rw [getGroupStatus,getGroupStatus,groupSame p.same p.left p.right own,instancesOfSame p own,p.same.paused id own]
  cases a.groupError.isNone with
  | false => rfl
  | true =>
    cases groupById s.managed.rows id with
    | none => rfl
    | some group =>
      cases a.read with
      | false => rfl
      | true => simp only [bind,Option.bind,if_true,infos]

theorem groupGetStatusAgrees (p : Pair tenant a.id used s t) (auth : ∀ row, q.tenant = some row → row.id = tenant) :
    Agree tenant (some a.id) s t (groupGetStatus s q a) (groupGetStatus t q a) := by
  refine agreeGroup p auth (fun _ group _ _ own => ?_)
  rw [groupStatusSame p own]
  split <;> exact agreeSame _

theorem instanceCreateAgrees (p : Pair tenant a.id used s t) (auth : ∀ row, q.tenant = some row → row.id = tenant) :
    Agree tenant (some a.id) s t (instanceCreate s q a) (instanceCreate t q a) := by
  refine agreeGroup p auth (fun row group owner found own => ?_)
  rw [countInstancesOwn,countInstancesOwn,owner,p.same.instances]
  split
  · exact agreeSame _
  split
  · exact agreeSame _
  split
  · exact agreeSame _
  next input _ =>
  generalize CreateInstanceInput.mk input.displayName input.priority _ _ = filled
  have absent {k : State} (unknown : Unknown k a.id) : instanceById k.managed.rows a.id = none :=
    List.find?_eq_none.mpr (fun i member => by simpa using unknown.instances i member)
  have also := (groupSame p.same p.left p.right own).trans found
  dsimp only
  rw [createInstanceMade a.createdAt group.id filled (absent p.unknownLeft) found,
    createInstanceMade a.createdAt group.id filled (absent p.unknownRight) also]
  cases a.write with
  | false => exact agreeSame _
  | true =>
    cases made : createInstance ⟨[group],[]⟩ a.id a.createdAt group.id filled with
    | none => exact agreeSame _
    | some result =>
      obtain ⟨_,here,of,_⟩ := createInstanceAdds (show createInstance _ _ _ _ _ = some (result.1,result.2) from made)
      exact agreeWrite (w := .addInstance result.2) ⟨of ▸ own,here ▸ p.unknownLeft⟩ ⟨of ▸ ownsAlso p own,here ▸ p.unknownRight⟩
        (fun key is => congrArg some (here.symm.trans (Option.some.inj is)))

theorem instanceListAgrees (p : Pair tenant a.id used s t) (auth : ∀ row, q.tenant = some row → row.id = tenant) :
    Agree tenant (some a.id) s t (instanceList s q a) (instanceList t q a) := by
  refine agreeGroup p auth (fun _ group _ _ own => ?_)
  rw [instancesOfSame p own]
  exact agreeSame _

theorem ownsStopped (k : State) (id key : UUID) :
    ownsInstance (write k (.stop key)).managed.rows tenant id = ownsInstance k.managed.rows tenant id := by
  change ownsInstance (stopInstance k.managed key).rows tenant id = _
  rw [stopRows]

section OneInstance
variable (p : Pair tenant a.id used s t) (auth : ∀ row, q.tenant = some row → row.id = tenant)
  (looked : a.group = true ∨ t = s)
include p auth looked

theorem instanceGetAgrees : Agree tenant (some a.id) s t (instanceGet s q a) (instanceGet t q a) :=
  agreeInstance p auth looked (fun _ _ _ => agreeSame _)

theorem instanceUpdateAgrees : Agree tenant (some a.id) s t (instanceUpdate s q a) (instanceUpdate t q a) := by
  refine agreeInstance p auth looked (fun inst found own => ?_)
  split
  · exact agreeSame _
  next input _ =>
  cases a.write with
  | false => exact agreeSame _
  | true =>
    rcases updateInstanceMade input with none_ | ⟨f,keeps,made⟩
    · simp only [none_]
      exact agreeSame _
    · have also := (rowSame p.same p.left p.right own).trans found
      simp only [made,found,also,if_true,Option.map_some]
      exact agreeWrite (w := .editInstance inst.id f) ⟨own,keeps⟩ ⟨ownsInstanceAlso p own,keeps⟩ (fun _ is => (by cases is))

theorem instanceGetQRCodeAgrees : Agree tenant (some a.id) s t (instanceGetQRCode s q a) (instanceGetQRCode t q a) := by
  refine agreeInstance p auth looked (fun inst _ own => ?_)
  have matched := startMatches (alikeSame p.same p.left p.right own) a.attempt
  exact ⟨by simp only [matched.1],[.start inst.id a.attempt],rfl,rfl,⟨own,fun _ is => (by cases is),trivial⟩,
    ⟨ownsInstanceAlso p own,fun _ is => (by cases is),trivial⟩⟩

theorem instanceConnectAgrees : Agree tenant (some a.id) s t (instanceConnect s q a) (instanceConnect t q a) := by
  refine agreeInstance p auth looked (fun inst _ own => ?_)
  have matched := startMatches (alikeSame p.same p.left p.right own) a.attempt
  exact ⟨by simp only [matched.1],[.start inst.id a.attempt],rfl,rfl,⟨own,fun _ is => (by cases is),trivial⟩,
    ⟨ownsInstanceAlso p own,fun _ is => (by cases is),trivial⟩⟩

theorem instancePairPhoneAgrees : Agree tenant (some a.id) s t (instancePairPhone s q a) (instancePairPhone t q a) := by
  refine agreeInstance p auth looked (fun inst _ own => ?_)
  split
  · exact agreeSame _
  · have matched := pairMatches (alikeSame p.same p.left p.right own) a.attempt
    exact ⟨by simp only [matched.1],[.pair inst.id a.attempt],rfl,rfl,⟨own,fun _ is => (by cases is),trivial⟩,
      ⟨ownsInstanceAlso p own,fun _ is => (by cases is),trivial⟩⟩

theorem instanceGetStatusAgrees : Agree tenant (some a.id) s t (instanceGetStatus s q a) (instanceGetStatus t q a) := by
  refine agreeInstance p auth looked (fun inst _ own => ?_)
  rw [connectedSame p own]
  exact agreeSame _

theorem instanceDisconnectAgrees : Agree tenant (some a.id) s t (instanceDisconnect s q a) (instanceDisconnect t q a) := by
  refine agreeInstance p auth looked (fun inst _ own => ?_)
  have also := ownsInstanceAlso p own
  cases a.mark with
  | false => exact agreeWrite (w := .stop inst.id) own also (fun _ is => (by cases is))
  | true =>
    refine ⟨rfl,[.stop inst.id,.editInstance inst.id (fun i => {i with status := .disconnected})],rfl,rfl,
      ⟨own,fun _ is => (by cases is),⟨?_,fun _ => ⟨rfl,rfl⟩⟩,fun _ is => (by cases is),trivial⟩,
      ⟨also,fun _ is => (by cases is),⟨?_,fun _ => ⟨rfl,rfl⟩⟩,fun _ is => (by cases is),trivial⟩⟩
    · rw [ownsStopped]; exact own
    · rw [ownsStopped]; exact also

theorem instanceDeleteAgrees : Agree tenant (some a.id) s t (instanceDelete s q a) (instanceDelete t q a) := by
  refine agreeInstance p auth looked (fun inst _ own => ?_)
  have also := ownsInstanceAlso p own
  dsimp only
  cases a.write with
  | false => exact agreeWrite (w := .stop inst.id) own also (fun _ is => (by cases is))
  | true =>
    refine ⟨rfl,[.stop inst.id,.dropInstance inst.id],rfl,rfl,⟨own,fun _ is => (by cases is),?_,fun _ is => (by cases is),trivial⟩,
      ⟨also,fun _ is => (by cases is),?_,fun _ is => (by cases is),trivial⟩⟩
    · exact (ownsStopped ..).trans own
    · exact (ownsStopped ..).trans also

theorem instanceRestartAgrees : Agree tenant (some a.id) s t (instanceRestart s q a) (instanceRestart t q a) := by
  refine agreeInstance p auth looked (fun inst _ own => ?_)
  have also := ownsInstanceAlso p own
  have left := stopped p.left.wired inst.id
  have right := stopped p.right.wired inst.id
  have alike := alikeSame p.same p.left p.right own
  have still : Alike (stopInstance s.managed inst.id) (stopInstance t.managed inst.id) inst.id :=
    ⟨left.wired,right.wired,by rw [left.links,right.links,if_pos rfl,if_pos rfl],by rw [stopRows,stopRows]; exact alike.row⟩
  have matched := startMatches still a.attempt
  refine ⟨?_,[.stop inst.id,.start inst.id a.attempt],rfl,rfl,⟨own,fun _ is => (by cases is),?_,fun _ is => (by cases is),trivial⟩,
    ⟨also,fun _ is => (by cases is),?_,fun _ is => (by cases is),trivial⟩⟩
  · simp only [restartInstance,matched.1]
  · exact (ownsStopped ..).trans own
  · exact (ownsStopped ..).trans also

end OneInstance

theorem groupOfTables (k : State) (id : UUID) : findGroup (tables k) id = (groupById k.managed.rows id).map GroupRow.toGroup :=
  List.find?_map ..

theorem availableRows (k : State) (id : UUID) :
    availableOf (tables k) id = ((k.managed.rows.instances.filter (fun i => i.groupId == id)).filter
      (fun i => i.status == .available)).map InstanceRow.toInstance := by
  rw [availableOf,tables,List.filter_map,List.filter_filter]
  congr 2
  funext i
  exact Bool.and_comm _ _

theorem availableSame (p : Pair tenant key used s t) (own : owns s.managed.rows tenant id = true) :
    availableOf (tables t) id = availableOf (tables s) id := by
  rw [availableRows,availableRows,ownRows _ own,ownRows _ (ownsAlso p own),p.same.instances]

theorem availableMember {i : Instance} (member : i ∈ availableOf (tables s) id) :
    ∃ row ∈ s.managed.rows.instances, row.id = i.id ∧ row.groupId = id := by
  rw [availableRows] at member
  obtain ⟨row,inside,rfl⟩ := List.mem_map.mp member
  obtain ⟨there,here⟩ := List.mem_filter.mp (List.mem_filter.mp inside).1
  exact ⟨row,there,rfl,by simpa using here⟩

theorem listingMember {instances : List Instance} {i : Instance} (listed : (lookups s id a).listing = .ok instances)
    (member : i ∈ instances) : ∃ row ∈ s.managed.rows.instances, row.id = i.id ∧ row.groupId = id := by
  simp only [lookups] at listed
  split at listed <;> cases listed
  exact availableMember ((List.mem_insertionSort _).mp member)

theorem strategySame (p : Pair tenant key used s t) (own : owns s.managed.rows tenant id = true) (error : Option String) :
    getStrategy (orchestrator t) (orchestrator t) id error = getStrategy (orchestrator s) (orchestrator s) id error := by
  have cached : (orchestrator t).strategies id = (orchestrator s).strategies id := p.same.strategies id own
  have row : findGroup (orchestrator t).store id = findGroup (orchestrator s).store id := by
    change findGroup (tables t) id = findGroup (tables s) id
    rw [groupOfTables,groupOfTables,groupSame p.same p.left p.right own]
  simp only [getStrategy,readStrategy,cached,row]

theorem chosenSame (p : Pair tenant key used s t) (own : owns s.managed.rows tenant id = true) (strategy : Strategy) :
    chooseConnected strategy (lookups t id a) = chooseConnected strategy (lookups s id a) := by
  have listing : (lookups t id a).listing = (lookups s id a).listing := by
    simp only [lookups,availableSame p own]
  rw [chooseConnected,chooseConnected,listing]
  cases listed : (lookups s id a).listing with
  | error e => rfl
  | ok instances =>
    have connected : instances.filter (fun i => (lookups t id a).connected i.id) =
        instances.filter (fun i => (lookups s id a).connected i.id) := by
      refine List.filter_congr (fun i member => ?_)
      obtain ⟨row,inside,here,of⟩ := listingMember listed member
      exact here ▸ connectedSame p (memberOwned own inside of)
    dsimp only
    rw [connected]

theorem selectedSame (p : Pair tenant key used s t) (own : owns s.managed.rows tenant id = true) :
    (select t id a).2 = (select s id a).2 := by
  have paused : (orchestrator t).paused id = (orchestrator s).paused id := p.same.paused id own
  have chosen := fun strategy => chosenSame (a := a) p own strategy
  simp only [select,selectInstance,paused,chosen]
  rw [show (lookups t id a).groupError = (lookups s id a).groupError from rfl,strategySame p own]

theorem selectedRow {i : Instance} (chosen : (select s id a).2 = .ok i) :
    ∃ row ∈ s.managed.rows.instances, row.id = i.id ∧ row.groupId = id := by
  obtain ⟨_,_,_,made⟩ := selectedInstance.mp chosen
  obtain ⟨instances,listed,selected⟩ := chosenIff.mp made
  exact listingMember listed (List.mem_filter.mp (selectMember selected)).1

theorem selectWrites (p : Pair tenant key used s t) (own : owns s.managed.rows tenant id = true) :
    ∃ ws, (select s id a).1 = writes s ws ∧ (select t id a).1 = writes t ws ∧
      (ws = [] ∨ ∃ strategy, ws = [.keepStrategy id strategy]) := by
  simp only [select]
  rw [strategySame p own,p.same.paused id own]
  split
  · exact ⟨[],rfl,rfl,.inl rfl⟩
  · split
    · next strategy _ => exact ⟨[.keepStrategy id strategy],rfl,rfl,.inr ⟨strategy,rfl⟩⟩
    · exact ⟨[],rfl,rfl,.inl rfl⟩

/-! The handlers of messages. -/

theorem doesAppend {ws later : List Write} (first : Does tenant new s ws)
    (then_ : Does tenant (ws.foldl unspent new) (writes s ws) later) : Does tenant new s (ws ++ later) := by
  induction ws generalizing s new with
  | nil => exact then_
  | cons w rest ih => exact ⟨first.1,first.2.1,ih first.2.2 then_⟩

theorem agreeAfter {ρ : Type} (ws : List Write) {x y : State × ρ} (does : Does tenant new s ws) (also : Does tenant new t ws)
    (rest : Agree tenant (ws.foldl unspent new) (writes s ws) (writes t ws) x y) : Agree tenant new s t x y := by
  obtain ⟨same,later,left,right,first,second⟩ := rest
  refine ⟨same,ws ++ later,?_,?_,doesAppend does first,doesAppend also second⟩
  · rw [left]; exact (List.foldl_append ..).symm
  · rw [right]; exact (List.foldl_append ..).symm

def Logged (tenant id : UUID) (s : State) : Prop :=
  ∀ m ∈ s.messages, m.id = id → m.status = .queued ∧ m.groupId.any (owns s.managed.rows tenant) = true

theorem markAgrees {log : UUID} {f : MessageLog → MessageLog} {answer : Reply} (left : Logged tenant log s)
    (right : Logged tenant log t)
    (kept : ∀ m : MessageLog, (f m).id = m.id ∧ (f m).groupId = m.groupId ∧ (f m).instanceId = m.instanceId ∧
      ((f m).status = .sent ∨ (f m).status = .failed)) :
    Agree tenant new s t (if a.mark then write s (.editMessage log f) else s,answer)
      (if a.mark then write t (.editMessage log f) else t,answer) := by
  cases a.mark with
  | false => exact agreeSame _
  | true => exact agreeWrite (w := .editMessage log f) ⟨left,kept⟩ ⟨right,kept⟩ (fun _ is => (by cases is))

theorem sendLoggedAgrees {inst : Instance} {log : UUID} {input : SendMessageInput}
    (connected : wsConnected t inst.id = wsConnected s inst.id) (left : Logged tenant log s) (right : Logged tenant log t) :
    Agree tenant new s t (sendLogged s inst log input a) (sendLogged t inst log input a) := by
  unfold sendLogged
  split
  · split
    · exact agreeSame _
    · split
      · exact agreeSame _
      next content _ _ =>
      have called {x y : State × Reply} (rest : Agree tenant new (write s (.send (inst.id,input.toNumber,content.value.body)))
          (write t (.send (inst.id,input.toNumber,content.value.body))) x y) : Agree tenant new s t x y :=
        agreeAfter [.send (inst.id,input.toNumber,content.value.body)] ⟨trivial,fun _ is => (by cases is),trivial⟩
          ⟨trivial,fun _ is => (by cases is),trivial⟩ rest
      simp only [sendTextMessage,connected]
      cases wsConnected s inst.id with
      | false => exact markAgrees left right (fun _ => ⟨rfl,rfl,rfl,.inr rfl⟩)
      | true =>
        cases a.sendError with
        | some error => exact called (markAgrees left right (fun _ => ⟨rfl,rfl,rfl,.inr rfl⟩))
        | none => exact called (markAgrees left right (fun _ => ⟨rfl,rfl,rfl,.inl rfl⟩))
  · exact agreeSame _

theorem createMessageMade (k : State) (m : MessageLog) :
    createMessage (tables k) m = ((createMessage ⟨[],[],[],[],[]⟩ m).bind (fun made => made.messages.head?)).map
      (fun logged => {tables k with messages := k.messages ++ [logged]}) := by
  simp only [createMessage,bind]
  cases varchar 20 m.recipient <;> try rfl
  cases varchar 20 m.messageType <;> rfl

theorem createdKeys {m logged : MessageLog}
    (made : (createMessage ⟨[],[],[],[],[]⟩ m).bind (fun made => made.messages.head?) = some logged) :
    logged.id = m.id ∧ logged.groupId = m.groupId ∧ logged.instanceId = m.instanceId ∧ logged.status = m.status := by
  simp only [createMessage,bind] at made
  cases recipient : varchar 20 m.recipient <;> rw [recipient] at made
  · cases made
  cases kind : varchar 20 m.messageType <;> rw [kind] at made <;> cases made
  exact ⟨rfl,rfl,rfl,rfl⟩

theorem messageSendAgrees (p : Pair tenant a.id used s t) (auth : ∀ row, q.tenant = some row → row.id = tenant) :
    Agree tenant (some a.id) s t (messageSend s q a) (messageSend t q a) := by
  refine agreeGroup p auth (fun _ group _ _ own => ?_)
  split
  · exact agreeSame _
  split
  · exact agreeSame _
  split
  · exact agreeSame _
  next input _ _ _ =>
  obtain ⟨ws,left,right,either⟩ := selectWrites (a := a) p own
  have apart {k : State} (unknown : Unknown k a.id) (mine : owns k.managed.rows tenant group.id = true) : a.id ≠ group.id := by
    obtain ⟨g,member,_,here⟩ := ownsIff.mp mine
    exact fun same => unknown.groups g member (here.trans same.symm)
  have kept {k : State} (unknown : Unknown k a.id) (mine : owns k.managed.rows tenant group.id = true) :
      Does tenant (some a.id) k ws ∧ Unknown (writes k ws) a.id ∧ (writes k ws).managed = k.managed := by
    rcases either with rfl | ⟨strategy,rfl⟩
    · exact ⟨trivial,unknown,rfl⟩
    · exact ⟨⟨mine,fun _ is => (by cases is),trivial⟩,
        {unknown with strategies := (Function.update_of_ne (apart unknown mine) _ _).trans unknown.strategies},rfl⟩
  have unspent_ : ws.foldl unspent (some a.id) = some a.id := by rcases either with rfl | ⟨_,rfl⟩ <;> rfl
  obtain ⟨does,unknown,managed⟩ := kept p.unknownLeft own
  obtain ⟨doesAlso,unknownAlso,managedAlso⟩ := kept p.unknownRight (ownsAlso p own)
  cases outcome : (select s group.id a).2 with
  | error e =>
    have first : select s group.id a = (writes s ws,.error e) := Prod.ext left outcome
    have second : select t group.id a = (writes t ws,.error e) := Prod.ext right ((selectedSame p own).trans outcome)
    simp only [first,second]
    exact agreeAfter ws does doesAlso (agreeSame _)
  | ok inst =>
    have first : select s group.id a = (writes s ws,.ok inst) := Prod.ext left outcome
    have second : select t group.id a = (writes t ws,.ok inst) := Prod.ext right ((selectedSame p own).trans outcome)
    obtain ⟨row,inside,here,of⟩ := selectedRow outcome
    have mine : ownsInstance s.managed.rows tenant inst.id = true := here ▸ memberOwned own inside of
    have insideAlso : row ∈ t.managed.rows.instances := by
      have member : row ∈ ownInstances t.managed.rows tenant := by
        rw [p.same.instances]
        exact List.mem_filter.mpr ⟨inside,of ▸ own⟩
      exact (List.mem_filter.mp member).1
    simp only [first,second,createMessageMade]
    refine agreeAfter ws does doesAlso ?_
    rw [unspent_]
    cases a.write with
    | false => exact agreeSame _
    | true =>
      generalize message : (MessageLog.mk a.id (some group.id) (some inst.id) input.toNumber input.type .queued none a.today) = m
      cases made : (createMessage ⟨[],[],[],[],[]⟩ m).bind (fun made => made.messages.head?) with
      | none => exact agreeSame _
      | some logged =>
        obtain ⟨key,ofGroup,sender,queued⟩ := createdKeys made
        subst message
        have adds {k : State} (new : Unknown k a.id) (there : row ∈ k.managed.rows.instances)
            (owner : owns k.managed.rows tenant group.id = true) :
            Does tenant (some a.id) k [.addMessage logged] ∧ Logged tenant a.id (write k (.addMessage logged)) := by
          refine ⟨⟨⟨queued,key ▸ new,row,there,of ▸ owner,here ▸ sender,of ▸ ofGroup⟩,
            fun id is => congrArg some (key.symm.trans (Option.some.inj is)),trivial⟩,fun m member same => ?_⟩
          rcases List.mem_append.mp member with old | last
          · exact absurd same (new.messages m old).1
          · cases List.mem_singleton.mp last
            refine ⟨queued,?_⟩
            rw [ofGroup]
            exact owner
        have logs := adds unknown (managed ▸ inside) (managed ▸ own)
        have logsAlso := adds unknownAlso (managedAlso ▸ insideAlso) (managedAlso ▸ ownsAlso p own)
        refine agreeAfter [.addMessage logged] logs.1 logsAlso.1 (sendLoggedAgrees ?_ logs.2 logsAlso.2)
        change wsConnected (writes t ws) inst.id = wsConnected (writes s ws) inst.id
        rw [wsConnected,wsConnected,managed,managedAlso]
        exact connectedSame p mine

theorem ofGroup (k : State) (own : owns k.managed.rows tenant id = true) (f : MessageLog → Bool) :
    k.messages.filter (fun m => m.groupId == some id && f m) =
      (ownMessages k tenant).filter (fun m => m.groupId == some id && f m) := by
  rw [ownMessages,List.filter_filter]
  refine List.filter_congr (fun m _ => ?_)
  cases here : m.groupId == some id with
  | false => rfl
  | true => rw [eq_of_beq here,Option.any_some,own,Bool.and_true]

theorem messageListByGroupAgrees (p : Pair tenant a.id used s t) (auth : ∀ row, q.tenant = some row → row.id = tenant) :
    Agree tenant (some a.id) s t (messageListByGroup s q a) (messageListByGroup t q a) := by
  refine agreeGroup p auth (fun _ group _ _ own => ?_)
  have found (limit offset : Int) : findMessages t group.id q limit offset = findMessages s group.id q limit offset := by
    simp only [findMessages,Bool.and_assoc]
    rw [ofGroup t (ownsAlso p own),ofGroup s own,p.same.messages]
  simp only [found]
  split <;> exact agreeSame _

theorem messageShown (sound : Sound used s) (own : owns s.managed.rows tenant id = true) (key : UUID) :
    (s.messages.find? (fun m => m.id == key)).filter (fun m => m.groupId == some id) =
      ((ownMessages s tenant).find? (fun m => m.id == key)).filter (fun m => m.groupId == some id) := by
  cases found : s.messages.find? (fun m => m.id == key) with
  | none =>
    have gone : (ownMessages s tenant).find? (fun m => m.id == key) = none :=
      List.find?_eq_none.mpr (fun m member => List.find?_eq_none.mp found m (List.mem_filter.mp member).1)
    rw [gone]
  | some m =>
    obtain ⟨member,rfl⟩ := findMember found
    cases of : m.groupId == some id with
    | true =>
      have mine : m ∈ ownMessages s tenant := List.mem_filter.mpr ⟨member,by rw [eq_of_beq of]; exact own⟩
      have also : (ownMessages s tenant).find? (fun k => k.id == m.id) = some m := findKey (distinctFilter sound.messages _) mine
      rw [also]
    | false =>
      cases also : (ownMessages s tenant).find? (fun k => k.id == m.id) with
      | none => exact Option.filter_some_neg (by simp [of])
      | some k =>
        obtain ⟨inside,same⟩ := findMember also
        cases sameRow sound.messages (List.mem_filter.mp inside).1 member same
        rfl

theorem messageGetStatusAgrees (p : Pair tenant a.id used s t) (auth : ∀ row, q.tenant = some row → row.id = tenant) :
    Agree tenant (some a.id) s t (messageGetStatus s q a) (messageGetStatus t q a) := by
  refine agreeGroup p auth (fun _ group _ _ own => ?_)
  split
  · exact agreeSame _
  next key _ =>
  split
  · exact agreeSame _
  have shown : (t.messages.find? (fun m => m.id == key)).filter (fun m => m.groupId == some group.id) =
      (s.messages.find? (fun m => m.id == key)).filter (fun m => m.groupId == some group.id) := by
    rw [messageShown p.left own,messageShown p.right (ownsAlso p own),p.same.messages]
  have hidden (m : MessageLog) (gone : (some m).filter (fun m => m.groupId == some group.id) = none) :
      ¬ m.groupId = some group.id :=
    fun here => (by simp [here] at gone)
  cases left : s.messages.find? (fun m => m.id == key) with
  | none =>
    cases right : t.messages.find? (fun m => m.id == key) with
    | none => exact agreeSame _
    | some m =>
      rw [left,right] at shown
      simp only [if_neg (hidden m shown)]
      exact agreeSame _
  | some m =>
    by_cases here : m.groupId = some group.id
    · have kept : (some m).filter (fun m => m.groupId == some group.id) = some m := Option.filter_some_pos (by simpa using here)
      rw [left,kept] at shown
      have right := (Option.filter_eq_some_iff.mp shown).1
      simp only [right]
      exact agreeSame _
    · have gone : (some m).filter (fun m => m.groupId == some group.id) = none := Option.filter_some_neg (by simpa using here)
      rw [left,gone] at shown
      cases right : t.messages.find? (fun m => m.id == key) with
      | none => simp only [if_neg here]; exact agreeSame _
      | some k =>
        rw [right] at shown
        simp only [if_neg here,if_neg (hidden k shown)]
        exact agreeSame _

/-! The handlers of the blacklist. -/

theorem blacklistListAgrees (p : Pair tenant a.id used s t) (auth : ∀ row, q.tenant = some row → row.id = tenant) :
    Agree tenant (some a.id) s t (blacklistList s q a) (blacklistList t q a) := by
  refine agreeGroup p auth (fun _ group _ _ own => ?_)
  have mine (k : State) (owner : owns k.managed.rows tenant group.id = true) :
      k.blacklist.filter (fun e => e.groupId == group.id) = (ownEntries k tenant).filter (fun e => e.groupId == group.id) := by
    rw [ownEntries,List.filter_filter]
    refine List.filter_congr (fun e _ => ?_)
    cases here : e.groupId == group.id with
    | false => rfl
    | true => rw [eq_of_beq here,owner]; rfl
  have listed (limit offset : Int) : Blacklist.list t.blacklist group.id limit offset =
      Blacklist.list s.blacklist group.id limit offset := by
    unfold Blacklist.list
    rw [mine t (ownsAlso p own),mine s own,p.same.entries]
  simp only [listed]
  split <;> exact agreeSame _

theorem blacklistAddAgrees (p : Pair tenant a.id used s t) (auth : ∀ row, q.tenant = some row → row.id = tenant) :
    Agree tenant (some a.id) s t (blacklistAdd s q a) (blacklistAdd t q a) := by
  refine agreeGroup p auth (fun _ group _ _ own => ?_)
  split
  · exact agreeSame _
  split
  · exact agreeSame _
  next body _ _ =>
  generalize (if body.reason = [] then text "opt_out" else body.reason) = reason
  dsimp only
  generalize rows : body.numbers.mapIdx (fun k phone =>
    ((⟨a.ids k,group.id,phone,reason,a.createdAt⟩ : Blacklist.BlacklistEntry),a.inserted k)) = inserts
  have inGroup : ∀ row ∈ inserts, row.1.groupId = group.id := by
    intro row member
    subst rows
    obtain ⟨_,_,rfl⟩ := List.mem_mapIdx.mp member
    rfl
  have counted : (Blacklist.add true t.blacklist inserts).2 = (Blacklist.add true s.blacklist inserts).2 := by
    have entries := p.same.entries
    rw [ownEntries,ownEntries,p.same.owns] at entries
    exact (insertBoth (fun row member e here => by rw [here,inGroup row member]; exact own) entries).1
  refine ⟨by rw [counted],[.insert inserts],rfl,rfl,⟨fun row member => ?_,fun _ is => (by cases is),trivial⟩,
    ⟨fun row member => ?_,fun _ is => (by cases is),trivial⟩⟩
  · rw [inGroup row member]; exact own
  · rw [inGroup row member]; exact ownsAlso p own

theorem blacklistRemoveAgrees (p : Pair tenant a.id used s t) (auth : ∀ row, q.tenant = some row → row.id = tenant) :
    Agree tenant (some a.id) s t (blacklistRemove s q a) (blacklistRemove t q a) := by
  refine agreeGroup p auth (fun _ group _ _ own => ?_)
  split
  · exact agreeSame _
  split
  · exact agreeWrite (w := .remove group.id q.number) own (ownsAlso p own) (fun _ is => (by cases is))
  · exact agreeSame _

/-! The handlers of the webhook. -/

theorem webhookConfigureAgrees (p : Pair tenant a.id used s t) (auth : ∀ row, q.tenant = some row → row.id = tenant) :
    Agree tenant (some a.id) s t (webhookConfigure s q a) (webhookConfigure t q a) := by
  refine agreeGroup p auth (fun _ group _ _ own => ?_)
  split
  · exact agreeSame _
  split
  · exact agreeSame _
  · exact groupUpdated p own a.jsonb _
      (fun updated => ok (.webhook (updated.bind GroupRow.webhookUrl) (updated.bind GroupRow.webhookEvents))) _ a.write

theorem webhookGetAgrees (p : Pair tenant a.id used s t) (auth : ∀ row, q.tenant = some row → row.id = tenant) :
    Agree tenant (some a.id) s t (webhookGet s q a) (webhookGet t q a) :=
  agreeGroup p auth (fun _ _ _ _ _ => agreeSame _)

theorem webhookTestAgrees (p : Pair tenant a.id used s t) (auth : ∀ row, q.tenant = some row → row.id = tenant) :
    Agree tenant (some a.id) s t (webhookTest s q a) (webhookTest t q a) := by
  refine agreeGroup p auth (fun _ group _ _ _ => ?_)
  split
  · exact agreeSame _
  · exact agreeSame _
  next url _ _ =>
    exact agreeWrite (w := .emit ⟨url,group.webhookSecret.getD [],"webhook.test",group.id,a.timestamp,
      "This is a test webhook event"⟩) trivial trivial (fun _ is => (by cases is))

/-- In two states in which its tenant has the same, a request makes the same writes, to what is the tenant's, and is
answered the same. -/
theorem handleAgrees (p : Pair tenant a.id used s t) (auth : ∀ row, q.tenant = some row → row.id = tenant)
    (looked : a.group = true ∨ t = s) (e : Endpoint) : Agree tenant (some a.id) s t (handle e s q a) (handle e t q a) := by
  cases e with
  | groupCreate => exact groupCreateAgrees p auth
  | groupGet => exact groupGetAgrees p auth
  | groupUpdate => exact groupUpdateAgrees p auth
  | groupDelete => exact groupDeleteAgrees p auth
  | groupGetStatus => exact groupGetStatusAgrees p auth
  | groupPause => exact groupPauseAgrees p auth
  | groupResume => exact groupResumeAgrees p auth
  | instanceCreate => exact instanceCreateAgrees p auth
  | instanceList => exact instanceListAgrees p auth
  | instanceGet => exact instanceGetAgrees p auth looked
  | instanceUpdate => exact instanceUpdateAgrees p auth looked
  | instanceDelete => exact instanceDeleteAgrees p auth looked
  | instanceGetQRCode => exact instanceGetQRCodeAgrees p auth looked
  | instancePairPhone => exact instancePairPhoneAgrees p auth looked
  | instanceConnect => exact instanceConnectAgrees p auth looked
  | instanceDisconnect => exact instanceDisconnectAgrees p auth looked
  | instanceRestart => exact instanceRestartAgrees p auth looked
  | instanceGetStatus => exact instanceGetStatusAgrees p auth looked
  | messageSend => exact messageSendAgrees p auth
  | messageGetStatus => exact messageGetStatusAgrees p auth
  | messageListByGroup => exact messageListByGroupAgrees p auth
  | blacklistList => exact blacklistListAgrees p auth
  | blacklistAdd => exact blacklistAddAgrees p auth
  | blacklistRemove => exact blacklistRemoveAgrees p auth
  | webhookConfigure => exact webhookConfigureAgrees p auth
  | webhookGet => exact webhookGetAgrees p auth
  | webhookTest => exact webhookTestAgrees p auth

end Handlers

end WppGateway.HandlerWrites
