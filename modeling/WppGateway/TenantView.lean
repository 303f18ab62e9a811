import WppGateway.Links
import WppGateway.ResourceHandlers

/-! What of the state is one tenant's, and the writes that the handlers are made of. -/
namespace WppGateway.TenantView
open GoJson Domain Store Table Resources Manager Links Blacklist Service

def ownGroups (r : Rows) (tenant : UUID) : List GroupRow := r.groups.filter (fun g => g.tenantId == tenant)
def owns (r : Rows) (tenant id : UUID) : Bool := (ownGroups r tenant).any (fun g => g.id == id)
def ownInstances (r : Rows) (tenant : UUID) : List InstanceRow := r.instances.filter (fun i => owns r tenant i.groupId)
def ownsInstance (r : Rows) (tenant id : UUID) : Bool := (ownInstances r tenant).any (fun i => i.id == id)
def ownMessages (s : State) (tenant : UUID) : List MessageLog :=
  s.messages.filter (fun m => m.groupId.any (owns s.managed.rows tenant))
def ownEntries (s : State) (tenant : UUID) : List BlacklistEntry :=
  s.blacklist.filter (fun e => owns s.managed.rows tenant e.groupId)

/- The tenant has the same in both states. The queue of the emitter is everybody's, and apart. -/
structure SameFor (tenant : UUID) (s t : State) : Prop where
  groups : ownGroups t.managed.rows tenant = ownGroups s.managed.rows tenant
  instances : ownInstances t.managed.rows tenant = ownInstances s.managed.rows tenant
  messages : ownMessages t tenant = ownMessages s tenant
  entries : ownEntries t tenant = ownEntries s tenant
  links : ∀ id, ownsInstance s.managed.rows tenant id = true → link t.managed id = link s.managed id
  strategies : ∀ id, owns s.managed.rows tenant id = true → t.strategies id = s.strategies id
  paused : ∀ id, owns s.managed.rows tenant id = true → t.paused id = s.paused id

structure Unknown (s : State) (id : UUID) : Prop where
  groups : ∀ g ∈ s.managed.rows.groups, g.id ≠ id
  instances : ∀ i ∈ s.managed.rows.instances, i.id ≠ id
  messages : ∀ m ∈ s.messages, m.id ≠ id ∧ m.groupId ≠ some id ∧ m.instanceId ≠ some id
  entries : ∀ e ∈ s.blacklist, e.groupId ≠ id
  connections : ∀ c ∈ s.managed.connections, c.id ≠ id
  strategies : s.strategies id = none
  paused : s.paused id = false

/- Keys and references of the tables, the map of connections with its clients, and the ids that were ever made. -/
structure Sound (used : List UUID) (s : State) : Prop where
  groups : Distinct (fun g : GroupRow => g.id) s.managed.rows.groups
  instances : Distinct (fun i : InstanceRow => i.id) s.managed.rows.instances
  messages : Distinct MessageLog.id s.messages
  references : References s.managed.rows
  senders : ∀ m ∈ s.messages, ∀ i ∈ s.managed.rows.instances, m.instanceId = some i.id → m.groupId = some i.groupId
  wired : Wired s.managed
  known : ∀ id, id ∉ used → Unknown s id

section Own
variable {tenant other id : UUID} {r u : Rows} {s t : State} {used : List UUID}

theorem ownsIff : owns r tenant id = true ↔ ∃ g ∈ r.groups, g.tenantId = tenant ∧ g.id = id := by
  simp only [owns,ownGroups,List.any_eq_true,List.mem_filter,beq_iff_eq,and_assoc]

theorem ownsInstanceIff : ownsInstance r tenant id = true ↔ ∃ i ∈ r.instances, owns r tenant i.groupId = true ∧ i.id = id := by
  simp only [ownsInstance,ownInstances,List.any_eq_true,List.mem_filter,beq_iff_eq,and_assoc]

theorem oneOwner (sound : Sound used s) (mine : owns s.managed.rows tenant id = true)
    (theirs : owns s.managed.rows other id = true) : other = tenant := by
  obtain ⟨g,member,owner,here⟩ := ownsIff.mp mine
  obtain ⟨h,inside,same,there⟩ := ownsIff.mp theirs
  cases sameRow sound.groups member inside (here.trans there.symm)
  exact same.symm.trans owner

theorem notOwned (sound : Sound used s) (mine : owns s.managed.rows tenant id = true) (apart : other ≠ tenant) :
    owns s.managed.rows other id = false := by
  cases theirs : owns s.managed.rows other id with
  | false => rfl
  | true => exact absurd (oneOwner sound mine theirs) apart

theorem notOwnedInstance (sound : Sound used s) (mine : ownsInstance s.managed.rows tenant id = true)
    (apart : other ≠ tenant) : ownsInstance s.managed.rows other id = false := by
  cases theirs : ownsInstance s.managed.rows other id with
  | false => rfl
  | true =>
    obtain ⟨i,member,owner,here⟩ := ownsInstanceIff.mp mine
    obtain ⟨j,inside,same,there⟩ := ownsInstanceIff.mp theirs
    cases sameRow sound.instances member inside (here.trans there.symm)
    exact absurd (oneOwner sound owner same) apart

theorem ownsSame (groups : ownGroups u tenant = ownGroups r tenant) : owns u tenant = owns r tenant := by
  funext id
  rw [owns,groups]
  rfl

theorem ownsInstanceSame (instances : ownInstances u tenant = ownInstances r tenant) :
    ownsInstance u tenant = ownsInstance r tenant := by
  funext id
  rw [ownsInstance,instances]
  rfl

theorem SameFor.owns (same : SameFor tenant s t) : owns t.managed.rows tenant = owns s.managed.rows tenant :=
  ownsSame same.groups

theorem SameFor.ownsInstance (same : SameFor tenant s t) :
    ownsInstance t.managed.rows tenant = ownsInstance s.managed.rows tenant :=
  ownsInstanceSame same.instances

theorem sameRefl (tenant : UUID) (s : State) : SameFor tenant s s :=
  ⟨rfl,rfl,rfl,rfl,fun _ _ => rfl,fun _ _ => rfl,fun _ _ => rfl⟩

theorem sameSymm (same : SameFor tenant s t) : SameFor tenant t s :=
  ⟨same.groups.symm,same.instances.symm,same.messages.symm,same.entries.symm,
    fun id own => (same.links id (same.ownsInstance ▸ own)).symm,
    fun id own => (same.strategies id (same.owns ▸ own)).symm,fun id own => (same.paused id (same.owns ▸ own)).symm⟩

theorem sameTrans {u : State} (first : SameFor tenant s t) (later : SameFor tenant t u) : SameFor tenant s u :=
  ⟨later.groups.trans first.groups,later.instances.trans first.instances,later.messages.trans first.messages,
    later.entries.trans first.entries,
    fun id own => (later.links id (first.ownsInstance ▸ own)).trans (first.links id own),
    fun id own => (later.strategies id (first.owns ▸ own)).trans (first.strategies id own),
    fun id own => (later.paused id (first.owns ▸ own)).trans (first.paused id own)⟩

theorem soundMore (sound : Sound used s) (id : UUID) : Sound (id::used) s :=
  {sound with known := fun other new => sound.known other (fun old => new (List.mem_cons_of_mem _ old))}

end Own

inductive Write where
  | addGroup (g : GroupRow)
  | editGroup (id : UUID) (f : GroupRow → GroupRow)
  | dropGroup (id : UUID)
  | addInstance (i : InstanceRow)
  | editInstance (id : UUID) (f : InstanceRow → InstanceRow)
  | dropInstance (id : UUID)
  | start (id : UUID) (a : Attempt)
  | pair (id : UUID) (a : Attempt)
  | stop (id : UUID)
  | keepStrategy (id : UUID) (strategy : Strategy)
  | setPaused (id : UUID) (paused : Bool)
  | addMessage (m : MessageLog)
  | editMessage (id : UUID) (f : MessageLog → MessageLog)
  | insert (rows : List (BlacklistEntry × Bool))
  | remove (groupId : UUID) (phone : GoString)
  | send (call : UUID × GoString × GoString)
  | emit (e : EmitRequest)

def write (s : State) : Write → State
  | .addGroup g => writeRows s {s.managed.rows with groups := s.managed.rows.groups ++ [g]}
  | .editGroup id f =>
    writeRows s {s.managed.rows with groups := update (fun g : GroupRow => g.id) id f s.managed.rows.groups}
  | .dropGroup id => dropGroup s id
  | .addInstance i => writeRows s {s.managed.rows with instances := s.managed.rows.instances ++ [i]}
  | .editInstance id f =>
    writeRows s {s.managed.rows with instances := update (fun i : InstanceRow => i.id) id f s.managed.rows.instances}
  | .dropInstance id => dropInstance s id
  | .start id a => manage s (startInstance s.managed id a).1
  | .pair id a => manage s (pairPhone s.managed id a).1
  | .stop id => manage s (stopInstance s.managed id)
  | .keepStrategy id strategy => {s with strategies := Function.update s.strategies id (some strategy)}
  | .setPaused id paused => {s with paused := Function.update s.paused id paused}
  | .addMessage m => {s with messages := s.messages ++ [m]}
  | .editMessage id f => {s with messages := update MessageLog.id id f s.messages}
  | .insert rows => {s with blacklist := (Blacklist.add true s.blacklist rows).1}
  | .remove groupId phone => {s with blacklist := Blacklist.remove s.blacklist groupId phone}
  | .send call => {s with sends := s.sends ++ [call]}
  | .emit e => emit s e

/- The write is to what is the tenant's, and what it adds has an id that nothing knows. -/
def Allowed (tenant : UUID) (s : State) : Write → Prop
  | .addGroup g => g.tenantId = tenant ∧ Unknown s g.id
  | .editGroup id f =>
    owns s.managed.rows tenant id = true ∧ ∀ g : GroupRow, (f g).id = g.id ∧ (f g).tenantId = g.tenantId
  | .dropGroup id | .keepStrategy id _ | .setPaused id _ | .remove id _ => owns s.managed.rows tenant id = true
  | .addInstance i => owns s.managed.rows tenant i.groupId = true ∧ Unknown s i.id
  | .editInstance id f =>
    ownsInstance s.managed.rows tenant id = true ∧ ∀ i : InstanceRow, (f i).id = i.id ∧ (f i).groupId = i.groupId
  | .dropInstance id | .start id _ | .pair id _ | .stop id => ownsInstance s.managed.rows tenant id = true
  | .addMessage m => m.status = .queued ∧ Unknown s m.id ∧ ∃ i ∈ s.managed.rows.instances,
      owns s.managed.rows tenant i.groupId = true ∧ m.instanceId = some i.id ∧ m.groupId = some i.groupId
  | .editMessage id f =>
    (∀ m ∈ s.messages, m.id = id → m.status = .queued ∧ m.groupId.any (owns s.managed.rows tenant) = true) ∧
      ∀ m : MessageLog, (f m).id = m.id ∧ (f m).groupId = m.groupId ∧ (f m).instanceId = m.instanceId ∧
        ((f m).status = .sent ∨ (f m).status = .failed)
  | .insert rows => ∀ row ∈ rows, owns s.managed.rows tenant row.1.groupId = true
  | .send _ | .emit _ => True

def added : Write → Option UUID
  | .addGroup g => some g.id
  | .addInstance i => some i.id
  | .addMessage m => some m.id
  | _ => none

end WppGateway.TenantView
