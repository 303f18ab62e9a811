import WppGateway.TenantHandlers

/-! The rows that a tenant owns, databases that have the same of them, and such a database
with foreign rows of one's choice. -/
namespace WppGateway.Tenancy
open Domain Store Table Gateway TenantHandlers

def ownGroups (s : Tables) (tenant : UUID) : List Group := s.groups.filter (fun g => g.tenantId == tenant)
def ownsGroup (s : Tables) (tenant id : UUID) : Bool := (ownGroups s tenant).any (fun g => g.id == id)
def ownBroadcasts (s : Tables) (tenant : UUID) : List Broadcast :=
  s.broadcasts.filter (fun b => ownsGroup s tenant b.groupId)
def ownsBroadcast (s : Tables) (tenant id : UUID) : Bool := (ownBroadcasts s tenant).any (fun b => b.id == id)
def ownRecipients (s : Tables) (tenant : UUID) : List BroadcastRecipient :=
  s.recipients.filter (fun r => ownsBroadcast s tenant r.broadcastId)
def ownInstances (s : Tables) (tenant : UUID) : List Instance :=
  s.instances.filter (fun i => ownsGroup s tenant i.groupId)
def ownMessages (s : Tables) (tenant : UUID) : List MessageLog :=
  s.messages.filter (fun m => m.groupId.any (ownsGroup s tenant))

structure SameFor (tenant : UUID) (s t : Tables) : Prop where
  groups : ownGroups t tenant = ownGroups s tenant
  broadcasts : ownBroadcasts t tenant = ownBroadcasts s tenant
  recipients : ownRecipients t tenant = ownRecipients s tenant
  instances : ownInstances t tenant = ownInstances s tenant
  messages : ownMessages t tenant = ownMessages s tenant

structure Sound (s : Tables) : Prop where
  keys : Keys s
  named : ∀ g ∈ s.groups, g.id ≠ nil
  broadcasts : ∀ b ∈ s.broadcasts, ∃ g ∈ s.groups, g.id = b.groupId
  recipients : ∀ r ∈ s.recipients, ∃ b ∈ s.broadcasts, b.id = r.broadcastId
  instances : ∀ i ∈ s.instances, ∃ g ∈ s.groups, g.id = i.groupId
  messages : ∀ m ∈ s.messages, ∀ id, m.groupId = some id → ∃ g ∈ s.groups, g.id = id

section Same
variable {tenant : UUID} {s t : Tables}

theorem SameFor.ownsGroup (same : SameFor tenant s t) (id : UUID) : ownsGroup t tenant id = ownsGroup s tenant id := by
  rw [Tenancy.ownsGroup,same.groups]
  rfl

theorem SameFor.ownsBroadcast (same : SameFor tenant s t) (id : UUID) :
    ownsBroadcast t tenant id = ownsBroadcast s tenant id := by
  rw [Tenancy.ownsBroadcast,same.broadcasts]
  rfl

theorem ownsGroupIff {id : UUID} : ownsGroup s tenant id = true ↔ ∃ g ∈ s.groups, g.tenantId = tenant ∧ g.id = id := by
  simp [ownsGroup,ownGroups]

theorem checkOwns (keys : Keys s) (id : UUID) :
    (findGroup s id).any (fun group => group.tenantId == tenant) = ownsGroup s tenant id := by
  rw [Bool.eq_iff_iff,ownsGroupIff,Option.any_eq_true]
  constructor
  · intro given
    obtain ⟨g,found,owner⟩ := given
    obtain ⟨member,here⟩ := findMember found
    exact ⟨g,member,by simpa using owner,here⟩
  · intro given
    obtain ⟨g,member,owner,here⟩ := given
    cases here
    exact ⟨g,findKey keys.groups member,by simpa using owner⟩

end Same

/-! Another database of the same tenant: everything foreign is gone but one group with the given rows. -/

structure Planted where
  group : UUID
  broadcasts : List Broadcast
  instances : List Instance
  messages : List MessageLog

def plant (s : Tables) (tenant : UUID) (p : Planted) : Tables :=
  ⟨ownGroups s tenant ++ [⟨p.group,tenant + 1,.rotation⟩],ownInstances s tenant ++ p.instances,
    ownBroadcasts s tenant ++ p.broadcasts,ownRecipients s tenant,ownMessages s tenant ++ p.messages⟩

structure Plantable (s : Tables) (tenant : UUID) (p : Planted) : Prop where
  group : ownsGroup s tenant p.group = false
  named : p.group ≠ nil
  broadcasts : ∀ b ∈ p.broadcasts, b.groupId = p.group ∧ ownsBroadcast s tenant b.id = false
  instances : ∀ i ∈ p.instances, i.groupId = p.group ∧ ∀ old ∈ ownInstances s tenant, old.id ≠ i.id
  messages : ∀ m ∈ p.messages, m.groupId = some p.group ∧ ∀ old ∈ ownMessages s tenant, old.id ≠ m.id
  broadcastKeys : Distinct Broadcast.id p.broadcasts
  instanceKeys : Distinct Instance.id p.instances
  messageKeys : Distinct MessageLog.id p.messages

section Plant
variable {tenant : UUID} {s : Tables} {p : Planted}

theorem ownGroupsPlant : ownGroups (plant s tenant p) tenant = ownGroups s tenant := by
  simp [ownGroups,plant]

theorem ownsGroupPlant (id : UUID) : ownsGroup (plant s tenant p) tenant id = ownsGroup s tenant id := by
  rw [ownsGroup,ownGroupsPlant]
  rfl

theorem ownBroadcastsPlant (ok : Plantable s tenant p) : ownBroadcasts (plant s tenant p) tenant = ownBroadcasts s tenant := by
  refine filterAppend (fun b member => ?_) (fun b member => ?_)
  · rw [ownsGroupPlant]; exact (List.mem_filter.mp member).2
  · rw [ownsGroupPlant,(ok.broadcasts b member).1]; exact ok.group

theorem plantSame (ok : Plantable s tenant p) : SameFor tenant s (plant s tenant p) := by
  have broadcasts := ownBroadcastsPlant ok
  refine ⟨ownGroupsPlant,broadcasts,?_,?_,?_⟩
  · refine List.filter_eq_self.mpr (fun r member => ?_)
    rw [ownsBroadcast,broadcasts]
    exact (List.mem_filter.mp member).2
  · refine filterAppend (fun i member => ?_) (fun i member => ?_)
    · rw [ownsGroupPlant]; exact (List.mem_filter.mp member).2
    · rw [ownsGroupPlant,(ok.instances i member).1]; exact ok.group
  · have owns : ownsGroup (plant s tenant p) tenant = ownsGroup s tenant := funext ownsGroupPlant
    refine filterAppend (fun m member => ?_) (fun m member => ?_)
    · rw [owns]; exact (List.mem_filter.mp member).2
    · rw [owns,(ok.messages m member).1]; exact ok.group

theorem plantSound (sound : Sound s) (ok : Plantable s tenant p) : Sound (plant s tenant p) := by
  have own : ∀ id, ownsGroup s tenant id = true → ∃ g ∈ (plant s tenant p).groups, g.id = id := by
    intro id owns
    obtain ⟨g,member,here⟩ := List.any_eq_true.mp owns
    exact ⟨g,List.mem_append_left _ member,by simpa using here⟩
  have foreign : ∃ g ∈ (plant s tenant p).groups, g.id = p.group :=
    ⟨_,List.mem_append_right _ (List.mem_singleton_self _),rfl⟩
  refine ⟨⟨?_,?_,?_,?_,?_⟩,?_,?_,?_,?_,?_⟩
  · refine distinctAppend (distinctFilter sound.keys.groups _) (List.nodup_singleton _) (fun a new b old same => ?_)
    cases List.mem_singleton.mp new
    have owns : ownsGroup s tenant p.group = true := List.any_eq_true.mpr ⟨b,old,by simpa using same⟩
    rw [ok.group] at owns; cases owns
  · exact distinctAppend (distinctFilter sound.keys.instances _) ok.instanceKeys (fun i new => (ok.instances i new).2)
  · refine distinctAppend (distinctFilter sound.keys.broadcasts _) ok.broadcastKeys (fun a new b old same => ?_)
    have owns : ownsBroadcast s tenant a.id = true := List.any_eq_true.mpr ⟨b,old,by simpa using same⟩
    rw [(ok.broadcasts a new).2] at owns; cases owns
  · exact distinctFilter sound.keys.recipients _
  · exact distinctAppend (distinctFilter sound.keys.messages _) ok.messageKeys (fun m new => (ok.messages m new).2)
  · intro g member
    rcases List.mem_append.mp member with old | new
    · exact sound.named g (List.mem_filter.mp old).1
    · cases List.mem_singleton.mp new
      exact ok.named
  · intro b member
    rcases List.mem_append.mp member with old | new
    · exact own b.groupId (List.mem_filter.mp old).2
    · rw [(ok.broadcasts b new).1]; exact foreign
  · intro r member
    obtain ⟨b,old,here⟩ := List.any_eq_true.mp (List.mem_filter.mp member).2
    exact ⟨b,List.mem_append_left _ old,by simpa using here⟩
  · intro i member
    rcases List.mem_append.mp member with old | new
    · exact own i.groupId (List.mem_filter.mp old).2
    · rw [(ok.instances i new).1]; exact foreign
  · intro m member id of
    rcases List.mem_append.mp member with old | new
    · have owns := (List.mem_filter.mp old).2
      rw [of] at owns
      exact own id owns
    · rw [(ok.messages m new).1] at of
      cases of
      exact foreign

end Plant

end WppGateway.Tenancy
