import WppGateway.ResourceHandlers
import WppGateway.Runs

/-! Requests one after the other: every connection is of an instance that exists, as long
as no group is deleted whose instances have connections. -/
namespace WppGateway.Cascade
open GoJson Domain Table Resources Manager Service ResourceHandlers Runs

inductive Event where
  | request (e : Endpoint) (q : Req) (a : Answers)
  | socket (client : Nat) (online : Bool)

def step (s : State) : Event → Option State
  | .request e q a => some (handle e s q a).1
  | .socket client online =>
    some (manage s {s.managed with clients := s.managed.clients.modify client (fun k => {k with online := online})})

def Linked (s : State) : Prop := ∀ c ∈ s.managed.connections, ∃ i ∈ s.managed.rows.instances, i.id = c.id

def deletes (s : State) (q : Req) (a : Answers) : Option UUID := do
  let tenant ← q.tenant
  let id ← q.group.parsed
  let group ← groupById s.managed.rows id
  if a.group ∧ a.write ∧ group.tenantId = tenant.id then some id else none

def Unconnected (s : State) (id : UUID) : Prop :=
  ∀ c ∈ s.managed.connections, ∀ i ∈ s.managed.rows.instances, i.id = c.id → i.groupId ≠ id

instance (s : State) (id : UUID) : Decidable (Unconnected s id) := by unfold Unconnected; infer_instance

def Safe (s : State) : Event → Prop
  | .request .groupDelete q a => ∀ id ∈ deletes s q a, Unconnected s id
  | _ => True

instance (s : State) (e : Event) : Decidable (Safe s e) := by
  cases e with
  | request e q a => cases e <;> unfold Safe <;> infer_instance
  | socket client online => exact isTrue trivial

def keys (m : Managed) : List UUID := m.rows.instances.map (fun i => i.id)

structure Keeps (m n : Managed) : Prop where
  entries : ∀ c ∈ n.connections, c ∈ m.connections ∨ c.id ∈ keys m
  rows : ∀ id ∈ keys m, id ∈ keys n
  distinct : (keys m).Nodup → (keys n).Nodup

section Manager
variable {m n : Managed} {id : UUID}

theorem keepsSame (connections : ∀ c ∈ n.connections, c ∈ m.connections) (rows : keys n = keys m) : Keeps m n :=
  ⟨fun c member => .inl (connections c member),fun id member => by rwa [rows],fun distinct => by rwa [rows]⟩

theorem keepsRefl (m : Managed) : Keeps m m := keepsSame (fun _ member => member) rfl

@[simp] theorem keysSetStatus (r : Rows) (id : UUID) (status : InstanceStatus) :
    (setStatus r id status).instances.map (fun i => i.id) = r.instances.map (fun i => i.id) :=
  updateKeys (fun _ => rfl)

@[simp] theorem keysUpdateStatus (m : Managed) (id : UUID) (status : InstanceStatus) (ok : Bool) :
    keys (updateStatus m id status ok) = keys m := by
  unfold updateStatus
  split
  · exact keysSetStatus m.rows id status
  · rfl

@[simp] theorem connectionsUpdateStatus (m : Managed) (id : UUID) (status : InstanceStatus) (ok : Bool) :
    (updateStatus m id status ok).connections = m.connections := by
  unfold updateStatus; split <;> rfl

theorem keysMember {i : InstanceRow} (found : instanceById m.rows id = some i) : id ∈ keys m := by
  obtain ⟨member,same⟩ : i ∈ m.rows.instances ∧ i.id = id := findMember found
  exact List.mem_map.mpr ⟨i,member,same⟩

theorem deviceMember {a : Attempt} {i : InstanceRow} (found : device m id a = .ok i) : id ∈ keys m :=
  keysMember (deviceRow found)

theorem keepsRegistered (groupId : UUID) (known : id ∈ keys m)
    (connections : ∀ c ∈ n.connections, c ∈ (register m id groupId).connections) (rows : keys n = keys m) : Keeps m n := by
  refine ⟨fun c member => ?_,fun id member => by rwa [rows],fun distinct => by rwa [rows]⟩
  rcases List.mem_append.mp (connections c member) with old | new
  · exact .inl (List.mem_filter.mp old).1
  · rw [List.mem_singleton.mp new]
    exact .inr known

theorem unregisterMember {c : Connection} (member : c ∈ (unregister m id).connections) : c ∈ m.connections ∧ c.id ≠ id := by
  obtain ⟨inside,other⟩ := List.mem_filter.mp member
  exact ⟨inside,by simpa using other⟩

theorem startKeeps (m : Managed) (id : UUID) (a : Attempt) : Keeps m (startInstance m id a).1 := by
  unfold startInstance
  split
  · exact keepsRefl m
  split
  · exact keepsRefl m
  next inst found =>
    dsimp only
    split
    · refine keepsRegistered inst.groupId (deviceMember found) (fun c member => ?_) ?_
      · rw [connectionsUpdateStatus] at member
        simpa using (unregisterMember member).1
      · rw [keysUpdateStatus]
        exact keysUpdateStatus _ _ _ _
    · exact keepsRegistered inst.groupId (deviceMember found) (fun c member => by simpa [goLive] using member)
        (keysUpdateStatus _ _ _ _)

theorem pairKeeps (m : Managed) (id : UUID) (a : Attempt) : Keeps m (pairPhone m id a).1 := by
  unfold pairPhone
  split
  · exact keepsRefl m
  next inst found =>
    dsimp only
    split
    · exact keepsRegistered inst.groupId (deviceMember found) (fun c member => (unregisterMember member).1) rfl
    · split
      · exact keepsRegistered inst.groupId (deviceMember found) (fun c member => (unregisterMember member).1) rfl
      · exact keepsRegistered inst.groupId (deviceMember found) (fun c member => member) rfl

theorem stopEntries {c : Connection} (member : c ∈ (stopInstance m id).connections) : c ∈ m.connections ∧ c.id ≠ id := by
  unfold stopInstance at member
  split at member
  · next absent =>
    refine ⟨member,fun same => ?_⟩
    have none_ := List.find?_eq_none.mp absent c member
    exact none_ (by simpa using same)
  · exact unregisterMember member

theorem stopKeeps (m : Managed) (id : UUID) : Keeps m (stopInstance m id) :=
  keepsSame (fun _ member => (stopEntries member).1) (by unfold keys; rw [stopRows])

theorem keepsTrans {o : Managed} (first : Keeps m n) (later : Keeps n o) (same : keys n = keys m) : Keeps m o := by
  refine ⟨fun c member => ?_,fun id member => later.rows id (first.rows id member),
    fun distinct => later.distinct (first.distinct distinct)⟩
  rcases later.entries c member with old | known
  · exact first.entries c old
  · exact .inr (by rwa [same] at known)

theorem restartKeeps (m : Managed) (id : UUID) (a : Attempt) : Keeps m (restartInstance m id a).1 :=
  keepsTrans (stopKeeps m id) (startKeeps (stopInstance m id) id a) (by unfold keys; rw [stopRows])

end Manager

section Handlers
variable {s : State} {q : Req} {a : Answers}

theorem withGroupHolds {P : State → Prop} {go : Tenant → GroupRow → State × Reply} (refused : P s)
    (each : ∀ tenant group, P (go tenant group).1) : P (withGroup s q a go).1 := by
  unfold withGroup
  split
  · exact refused
  split
  · exact refused
  split
  · exact refused
  split
  · exact refused
  split
  · exact refused
  · exact each _ _

theorem withInstanceHolds {P : State → Prop} {go : InstanceRow → State × Reply} (refused : P s)
    (each : ∀ inst, P (go inst).1) : P (withInstance s q a go).1 := by
  unfold withInstance
  split
  · exact refused
  split
  · exact refused
  split
  · exact refused
  · exact refused
  · exact each _

theorem keepsGroup {go : Tenant → GroupRow → State × Reply}
    (each : ∀ tenant group, Keeps s.managed (go tenant group).1.managed) :
    Keeps s.managed (withGroup s q a go).1.managed :=
  withGroupHolds (P := fun t => Keeps s.managed t.managed) (keepsRefl _) each

theorem keepsInstance {go : InstanceRow → State × Reply} (each : ∀ inst, Keeps s.managed (go inst).1.managed) :
    Keeps s.managed (withInstance s q a go).1.managed :=
  withInstanceHolds (P := fun t => Keeps s.managed t.managed) (keepsRefl _) each

theorem keepsRows {r : Rows} (same : r.instances = s.managed.rows.instances) : Keeps s.managed (writeRows s r).managed :=
  keepsSame (fun _ member => member) (by simp only [keys,writeRows,same])

theorem updateGroupInstances {jsonb : Json → Option Json} {r t : Rows} {id : UUID} {input : UpdateGroupInput}
    {g : Option GroupRow} (updated : updateGroup jsonb r id input = some (t,g)) : t.instances = r.instances := by
  simp only [updateGroup,bind,Option.bind_eq_some_iff] at updated
  obtain ⟨_,_,_,_,_,_,_,_,_,_,same⟩ := updated
  cases same
  rfl

theorem updateInstanceKeys {r t : Rows} {id : UUID} {input : UpdateInstanceInput} {i : Option InstanceRow}
    (updated : updateInstance r id input = some (t,i)) :
    t.instances.map (fun i => i.id) = r.instances.map (fun i => i.id) := by
  simp only [updateInstance,bind,Option.bind_eq_some_iff] at updated
  obtain ⟨_,_,_,_,_,_,_,_,same⟩ := updated
  cases same
  exact updateKeys (fun _ => rfl)

theorem createInstanceKeeps {t : Rows} {id groupId : UUID} {createdAt : Int} {input : CreateInstanceInput}
    {i : InstanceRow} (made : createInstance s.managed.rows id createdAt groupId input = some (t,i)) :
    Keeps s.managed (writeRows s t).managed := by
  have new := createInstanceNew made
  obtain ⟨rfl,rfl,_⟩ := createInstanceAdds made
  have appended : keys (writeRows s {s.managed.rows with instances := s.managed.rows.instances ++ [i]}).managed =
      keys s.managed ++ [i.id] := by simp [keys,writeRows]
  refine ⟨fun _ member => .inl member,fun id member => ?_,fun distinct => ?_⟩
  · rw [appended]; exact List.mem_append_left _ member
  · rw [appended,List.nodup_append]
    refine ⟨distinct,by simp,fun j hj k hk same => ?_⟩
    rw [List.mem_singleton.mp hk] at same
    exact new (same ▸ hj)

theorem keepsManaged {t : State} (same : t.managed = s.managed) : Keeps s.managed t.managed := by
  rw [same]; exact keepsRefl _

theorem selectManaged (s : State) (groupId : UUID) (a : Answers) : (select s groupId a).1.managed = s.managed := by
  unfold select
  dsimp only
  split
  · rfl
  · split <;> rfl

theorem sendLoggedManaged (s : State) (inst : Instance) (log : UUID) (input : SendMessageInput) (a : Answers) :
    (sendLogged s inst log input a).1.managed = s.managed := by
  have calls : ∀ body, (sendTextMessage s inst.id input.toNumber body a).1.managed = s.managed := by
    intro body
    unfold sendTextMessage
    split <;> rfl
  unfold sendLogged
  split
  · split
    · rfl
    next content _ =>
      split
      · rfl
      · have called := calls content.value.body
        split
        · next t error returned =>
          rw [returned] at called
          dsimp only
          split <;> exact called
        · next t returned =>
          rw [returned] at called
          dsimp only
          split <;> exact called
  · rfl

theorem messageSendKeeps (s : State) (q : Req) (a : Answers) : Keeps s.managed (messageSend s q a).1.managed := by
  refine keepsGroup (fun _ group => keepsManaged ?_)
  split
  · rfl
  split
  · rfl
  split
  · rfl
  have selected := selectManaged s group.id a
  split
  · next t e chosen => rw [chosen] at selected; exact selected
  · next t inst chosen =>
    rw [chosen] at selected
    dsimp only
    split
    · exact selected
    · exact (sendLoggedManaged _ _ _ _ _).trans selected

theorem groupCreateKeeps (s : State) (q : Req) (a : Answers) : Keeps s.managed (groupCreate s q a).1.managed := by
  unfold groupCreate
  split
  · exact keepsRefl _
  split
  · exact keepsRefl _
  split
  · exact keepsRefl _
  split
  · exact keepsRefl _
  next input _ =>
  split
  · exact keepsRefl _
  generalize (if input.strategy = [] then {input with strategy := text "failover"} else input) = filled
  dsimp only
  split
  · exact keepsRefl _
  next made =>
    split at made
    · exact keepsRows (by rw [(createGroupAdds made).1])
    · cases made

theorem updateGroupKeeps {r : Rows} {id : UUID} {input : UpdateGroupInput} {g : Option GroupRow}
    (updated : (if a.write then updateGroup a.jsonb s.managed.rows id input else none) = some (r,g)) :
    Keeps s.managed (writeRows s r).managed := by
  split at updated
  · exact keepsRows (updateGroupInstances updated)
  · cases updated

theorem instanceCreateKeeps (s : State) (q : Req) (a : Answers) : Keeps s.managed (instanceCreate s q a).1.managed := by
  refine keepsGroup (fun _ group => ?_)
  split
  · exact keepsRefl _
  split
  · exact keepsRefl _
  split
  · exact keepsRefl _
  next input _ =>
  generalize CreateInstanceInput.mk input.displayName input.priority _ _ = filled
  dsimp only
  split
  · exact keepsRefl _
  next made =>
    split at made
    · exact createInstanceKeeps made
    · cases made

theorem instanceUpdateKeeps (s : State) (q : Req) (a : Answers) : Keeps s.managed (instanceUpdate s q a).1.managed := by
  refine keepsInstance (fun inst => ?_)
  split
  · exact keepsRefl _
  split
  · exact keepsRefl _
  all_goals
    next updated =>
      split at updated
      · exact keepsSame (fun _ member => member) (updateInstanceKeys updated)
      · cases updated

theorem handleKeeps (e : Endpoint) (s : State) (q : Req) (a : Answers) (notGroup : e ≠ .groupDelete)
    (notInstance : e ≠ .instanceDelete) : Keeps s.managed (handle e s q a).1.managed := by
  cases e with
  | groupDelete => exact absurd rfl notGroup
  | instanceDelete => exact absurd rfl notInstance
  | groupCreate => exact groupCreateKeeps s q a
  | groupUpdate =>
    refine keepsGroup (fun _ group => ?_)
    split
    · exact keepsRefl _
    split
    · exact keepsRefl _
    · next updated => exact updateGroupKeeps updated
  | groupGetStatus => exact keepsGroup (fun _ _ => by split <;> exact keepsRefl _)
  | groupGet | groupPause | groupResume | instanceList | webhookGet => exact keepsGroup (fun _ _ => keepsRefl _)
  | instanceCreate => exact instanceCreateKeeps s q a
  | instanceUpdate => exact instanceUpdateKeeps s q a
  | instanceGet | instanceGetStatus => exact keepsInstance (fun _ => keepsRefl _)
  | instanceGetQRCode | instanceConnect => exact keepsInstance (fun _ => startKeeps _ _ _)
  | instancePairPhone =>
    refine keepsInstance (fun _ => ?_)
    split
    · exact keepsRefl _
    · exact pairKeeps _ _ _
  | instanceDisconnect =>
    refine keepsInstance (fun inst => keepsSame (fun c member => ?_) ?_)
    · rw [manage,connectionsUpdateStatus] at member
      exact (stopEntries member).1
    · rw [manage,keysUpdateStatus]
      unfold keys
      rw [stopRows]
  | instanceRestart => exact keepsInstance (fun _ => restartKeeps _ _ _)
  | messageSend => exact messageSendKeeps s q a
  | messageGetStatus =>
    refine keepsGroup (fun _ _ => keepsManaged ?_)
    split
    · rfl
    split
    · rfl
    split <;> rfl
  | messageListByGroup | blacklistList => exact keepsGroup (fun _ _ => keepsManaged (by dsimp only; split <;> rfl))
  | blacklistAdd =>
    refine keepsGroup (fun _ _ => keepsManaged ?_)
    split
    · rfl
    split <;> rfl
  | blacklistRemove =>
    refine keepsGroup (fun _ _ => keepsManaged ?_)
    split
    · rfl
    split <;> rfl
  | webhookConfigure =>
    refine keepsGroup (fun _ group => ?_)
    split
    · exact keepsRefl _
    split
    · exact keepsRefl _
    dsimp only
    split
    · exact keepsRefl _
    · next updated => exact updateGroupKeeps updated
  | webhookTest =>
    refine keepsGroup (fun _ _ => keepsManaged ?_)
    split
    · rfl
    · rfl
    · unfold emit
      split
      · rfl
      split <;> rfl

theorem groupDeleted (s : State) (q : Req) (a : Answers) :
    (groupDelete s q a).1 = match deletes s q a with
      | some id => dropGroup s id
      | none => s := by
  unfold groupDelete withGroup deletes
  cases q.tenant with
  | none => rfl
  | some tenant =>
    cases q.group.parsed with
    | none => rfl
    | some id =>
      cases looked : a.group with
      | false => cases groupById s.managed.rows id <;> simp
      | true =>
        cases found : groupById s.managed.rows id with
        | none => simp [found]
        | some group =>
          have same : group.id = id := (findMember found).2
          by_cases own : group.tenantId = tenant.id
          · cases a.write <;> simp [found,own,same]
          · simp [found,own]

end Handlers

structure Sound (s : State) : Prop where
  distinct : (keys s.managed).Nodup
  linked : Linked s

theorem linkedMember {s : State} : Linked s ↔ ∀ c ∈ s.managed.connections, c.id ∈ keys s.managed := by
  simp only [Linked,keys,List.mem_map]

theorem keepsLinked {s t : State} (linked : Linked s) (keeps : Keeps s.managed t.managed) : Linked t := by
  refine linkedMember.mpr (fun c member => keeps.rows c.id ?_)
  rcases keeps.entries c member with old | known
  · exact linkedMember.mp linked c old
  · exact known

theorem keepsSound {s t : State} (inv : Sound s) (keeps : Keeps s.managed t.managed) : Sound t :=
  ⟨keeps.distinct inv.distinct,keepsLinked inv.linked keeps⟩

theorem distinctFiltered {r : Rows} (distinct : (r.instances.map (fun i => i.id)).Nodup) (p : InstanceRow → Bool) :
    ((r.instances.filter p).map (fun i => i.id)).Nodup := by
  have keyed : Distinct (fun i : InstanceRow => i.id) r.instances := distinct
  exact distinctFilter keyed p

theorem instanceDeleteDistinct {s : State} (distinct : (keys s.managed).Nodup) (q : Req) (a : Answers) :
    (keys (instanceDelete s q a).1.managed).Nodup := by
  refine withInstanceHolds (P := fun t => (keys t.managed).Nodup) distinct (fun inst => ?_)
  dsimp only
  split
  · unfold keys at distinct
    rw [← stopRows s.managed inst.id] at distinct
    exact distinctFiltered distinct _
  · exact (stopKeeps _ _).distinct distinct

theorem instanceDeleteLinked {s : State} (linked : Linked s) (q : Req) (a : Answers) : Linked (instanceDelete s q a).1 := by
  refine withInstanceHolds linked (fun inst => ?_)
  dsimp only
  split
  · intro c member
    obtain ⟨old,other⟩ := stopEntries member
    obtain ⟨i,inside,own⟩ := linked c old
    refine ⟨i,List.mem_filter.mpr ⟨?_,by simpa [own] using other⟩,own⟩
    rw [manage,stopRows]
    exact inside
  · exact keepsLinked linked (stopKeeps _ _)

theorem dropGroupExact {s : State} (inv : Sound s) (id : UUID) : Sound (dropGroup s id) ↔ Unconnected s id := by
  constructor
  · intro sound c member i inside own gone
    obtain ⟨j,left,same⟩ := sound.linked c member
    obtain ⟨there,stays⟩ := List.mem_filter.mp left
    have keyed : Distinct (fun i : InstanceRow => i.id) s.managed.rows.instances := inv.distinct
    have one : j = i := sameRow keyed there inside (same.trans own.symm)
    rw [one,gone] at stays
    simp at stays
  · intro apart
    refine ⟨distinctFiltered inv.distinct _,fun c member => ?_⟩
    obtain ⟨i,inside,own⟩ := inv.linked c member
    exact ⟨i,List.mem_filter.mpr ⟨inside,by simpa using apart c member i inside own⟩,own⟩

theorem stepExact (s : State) (e : Event) (t : State) (inv : Sound s) (moved : step s e = some t) :
    Sound t ↔ Safe s e := by
  cases e with
  | socket client online => cases moved; exact ⟨fun _ => trivial,fun _ => ⟨inv.distinct,inv.linked⟩⟩
  | request e q a =>
    cases moved
    by_cases group : e = .groupDelete
    · subst group
      simp only [handle,groupDeleted,Safe]
      cases deletes s q a with
      | none => exact ⟨fun _ _ => nofun,fun _ => inv⟩
      | some id =>
        rw [dropGroupExact inv]
        exact ⟨fun apart b same => Option.some.inj same ▸ apart,fun safe => safe id rfl⟩
    · have safe : Safe s (.request e q a) := by cases e <;> trivial
      refine ⟨fun _ => safe,fun _ => ?_⟩
      by_cases instance_ : e = .instanceDelete
      · subst instance_
        exact ⟨instanceDeleteDistinct inv.distinct q a,instanceDeleteLinked inv.linked q a⟩
      · exact keepsSound inv (handleKeeps e s q a group instance_)

theorem stepTotal (s : State) (e : Event) : ∃ t, step s e = some t := by
  cases e <;> exact ⟨_,rfl⟩

theorem stepDistinct (s : State) (e : Event) (t : State) (distinct : (keys s.managed).Nodup) (_ : True)
    (moved : step s e = some t) : (keys t.managed).Nodup := by
  cases e with
  | socket client online => cases moved; exact distinct
  | request e q a =>
    cases moved
    by_cases group : e = .groupDelete
    · subst group
      simp only [handle,groupDeleted]
      split
      · exact distinctFiltered distinct _
      · exact distinct
    · by_cases instance_ : e = .instanceDelete
      · subst instance_
        exact instanceDeleteDistinct distinct q a
      · exact (handleKeeps e s q a group instance_).distinct distinct

/-- Every entry of the map is of an existing instance throughout a run of requests exactly when no group is deleted while
an instance of it has an entry. -/
theorem linkedExact {s : State} (empty : s.managed.connections = []) (distinct : (keys s.managed).Nodup)
    (events : List Event) : Throughout step Linked s events ↔ Guarded step Safe s events := by
  have start : Sound s := ⟨distinct,fun c member => (by rw [empty] at member; cases member)⟩
  obtain ⟨u,ran⟩ := runTotal stepTotal s events
  rw [← exactGuard stepExact start ran]
  constructor
  · intro linked
    have keyed := guardedThroughout stepDistinct distinct (guardedEach (fun _ _ _ => trivial) s : Guarded step _ s events)
    exact throughoutMono (fun _ both => ⟨both.1,both.2⟩) (throughoutAnd keyed linked)
  · exact throughoutMono (fun _ sound => sound.linked)

def owner : Tenant := ⟨100,5,20⟩

def inOrder : List Event :=
  [.request .instanceCreate (asking owner 1 12) answering,.request .instanceConnect (asking owner 1 12) answering,
    .request .instanceDelete (asking owner 1 12) answering,.request .groupDelete (asking owner 1 12) answering]

theorem inOrderLinked : Throughout step Linked (serving sampleRows) inOrder :=
  (linkedExact rfl (by decide) inOrder).mpr (guardedChecks (by decide +kernel))

def groupFirst : List Event :=
  [.request .instanceConnect (asking owner 1 11) answering,.request .groupDelete (asking owner 1 11) answering]

theorem connectionLeft :
    (run step (serving sampleRows) groupFirst).map (fun s =>
      (s.managed.connections,s.managed.clients,s.managed.rows.instances)) = some ([⟨11,1,0⟩],[⟨11,true,true⟩],[]) ∧
    ¬ Throughout step Linked (serving sampleRows) groupFirst := by
  have ends : (run step (serving sampleRows) groupFirst).map (fun s =>
      (s.managed.connections,s.managed.clients,s.managed.rows.instances)) =
      some ([⟨11,1,0⟩],[⟨11,true,true⟩],[]) := by decide +kernel
  refine ⟨ends,fun always => ?_⟩
  obtain ⟨s,ran,same⟩ := Option.map_eq_some_iff.mp ends
  simp only [Prod.mk.injEq] at same
  obtain ⟨connections,_,instances⟩ := same
  obtain ⟨i,inside,_⟩ := throughoutEnd always ran ⟨11,1,0⟩ (by rw [connections]; exact List.mem_singleton_self _)
  rw [instances] at inside
  cases inside

end WppGateway.Cascade
