import WppGateway.TenantView

/-! A write to what is one tenant's leaves what is another's, does the same to two states in which the tenant has the
same, and keeps a state sound. -/
namespace WppGateway.TenantWrites
open GoJson Domain Store Table Resources Manager Links Blacklist Service TenantView

/-! A write to the tables: what it leaves of another tenant's, and of what is the same in two states. -/

section Tables
variable {tenant other id : UUID} {s t : State} {u v : Rows} {used : List UUID}

theorem frameRows (groups : ownGroups u other = ownGroups s.managed.rows other)
    (instances : ownInstances u other = ownInstances s.managed.rows other) : SameFor other s (writeRows s u) := by
  have owner : owns u other = owns s.managed.rows other := ownsSame groups
  refine ⟨groups,instances,?_,?_,fun _ _ => rfl,fun _ _ => rfl,fun _ _ => rfl⟩
  · change s.messages.filter (fun m => m.groupId.any (owns u other)) = _
    rw [owner]; rfl
  · change s.blacklist.filter (fun e => owns u other e.groupId) = _
    rw [owner]; rfl

theorem instancesOfSame (groups : ownGroups u other = ownGroups v other) :
    ownInstances u other = u.instances.filter (fun i => owns v other i.groupId) := by
  rw [ownInstances,ownsSame groups]

theorem editedGroups {f : GroupRow → GroupRow} {r : Rows} (kept : ∀ g : GroupRow, (f g).id = g.id ∧ (f g).tenantId = g.tenantId) :
    ownGroups {r with groups := update (fun g : GroupRow => g.id) id f r.groups} tenant =
      update (fun g : GroupRow => g.id) id f (ownGroups r tenant) :=
  updateFilter (fun g => by rw [(kept g).2]) r.groups

theorem editedOwns {f : GroupRow → GroupRow} {r : Rows} (kept : ∀ g : GroupRow, (f g).id = g.id ∧ (f g).tenantId = g.tenantId) :
    owns {r with groups := update (fun g : GroupRow => g.id) id f r.groups} tenant = owns r tenant := by
  funext key
  rw [owns,editedGroups kept,owns,update,List.any_map]
  congr 1
  funext g
  simp only [Function.comp_apply]
  split
  · rw [(kept g).1]
  · rfl

theorem editedInstances {f : InstanceRow → InstanceRow} {r : Rows}
    (kept : ∀ i : InstanceRow, (f i).id = i.id ∧ (f i).groupId = i.groupId) :
    ownInstances {r with instances := update (fun i : InstanceRow => i.id) id f r.instances} tenant =
      update (fun i : InstanceRow => i.id) id f (ownInstances r tenant) :=
  updateFilter (fun i => by rw [(kept i).2]) r.instances

theorem editedOwnsInstance {f : InstanceRow → InstanceRow} {r : Rows}
    (kept : ∀ i : InstanceRow, (f i).id = i.id ∧ (f i).groupId = i.groupId) :
    ownsInstance {r with instances := update (fun i : InstanceRow => i.id) id f r.instances} tenant = ownsInstance r tenant := by
  funext key
  rw [ownsInstance,editedInstances kept,ownsInstance,update,List.any_map]
  congr 1
  funext i
  simp only [Function.comp_apply]
  split
  · rw [(kept i).1]
  · rfl

theorem foreignGroups (foreign : owns s.managed.rows other id = false) {f : GroupRow → GroupRow} :
    update (fun g : GroupRow => g.id) id f (ownGroups s.managed.rows other) = ownGroups s.managed.rows other := by
  refine updateAbsent (fun g member same => ?_)
  have own : owns s.managed.rows other id = true := List.any_eq_true.mpr ⟨g,member,by simpa using same⟩
  rw [foreign] at own
  cases own

theorem foreignInstances (foreign : ownsInstance s.managed.rows other id = false) {f : InstanceRow → InstanceRow} :
    update (fun i : InstanceRow => i.id) id f (ownInstances s.managed.rows other) = ownInstances s.managed.rows other := by
  refine updateAbsent (fun i member same => ?_)
  have own : ownsInstance s.managed.rows other id = true := List.any_eq_true.mpr ⟨i,member,by simpa using same⟩
  rw [foreign] at own
  cases own

theorem frameManaged {m : Managed} {status : Option InstanceStatus} {entry : Option (UUID × Bool)}
    (rewired : Rewired s.managed id status entry m) (foreign : ownsInstance s.managed.rows other id = false) :
    SameFor other s (manage s m) := by
  have kept : ∀ i : InstanceRow, (touched status i).id = i.id ∧ (touched status i).groupId = i.groupId := fun _ => ⟨rfl,rfl⟩
  have groups : ownGroups m.rows other = ownGroups s.managed.rows other := by rw [rewired.rows]; rfl
  have instances : ownInstances m.rows other = ownInstances s.managed.rows other := by
    rw [rewired.rows,editedInstances kept,foreignInstances foreign]
  have rows := frameRows groups instances
  refine ⟨groups,instances,rows.messages,rows.entries,fun key own => ?_,fun _ _ => rfl,fun _ _ => rfl⟩
  refine (rewired.links key).trans (if_neg (fun same => ?_))
  rw [same,foreign] at own
  cases own

theorem frameAdded {α : Type} {rows : List α} {row : α} {p : α → Bool} (foreign : p row = false) :
    (rows ++ [row]).filter p = rows.filter p := by
  rw [List.filter_append,List.filter_cons_of_neg (by simp [foreign]),List.filter_nil,List.append_nil]

def detached (s : State) (id : UUID) (m : MessageLog) : MessageLog :=
  {m with
    groupId := m.groupId.filter (· != id)
    instanceId := m.instanceId.filter (fun i => !s.managed.rows.instances.any (fun row => row.id == i && row.groupId == id))}

theorem detachedSame (sound : Sound used s) {m : MessageLog} (member : m ∈ s.messages) (apart : m.groupId ≠ some id) :
    detached s id m = m := by
  have group : m.groupId.filter (· != id) = m.groupId := by
    cases of : m.groupId with
    | none => rfl
    | some key => exact Option.filter_some_pos (by simpa [of] using apart)
  have sender : m.instanceId.filter
      (fun i => !s.managed.rows.instances.any (fun row => row.id == i && row.groupId == id)) = m.instanceId := by
    cases by_ : m.instanceId with
    | none => rfl
    | some i =>
      refine Option.filter_some_pos ?_
      simp only [Bool.not_eq_true',List.any_eq_false,Bool.and_eq_true,beq_iff_eq,not_and]
      intro row inside same inGroup
      exact apart (inGroup ▸ sound.senders m member row inside (by rw [by_,same]))
  rw [detached,group,sender]

theorem frameDropGroup (sound : Sound used s) (mine : owns s.managed.rows tenant id = true) (apart : other ≠ tenant) :
    SameFor other s (dropGroup s id) := by
  have foreign := notOwned sound mine apart
  have left : ∀ key, owns s.managed.rows other key = true → key ≠ id := by
    intro key own same
    rw [same,foreign] at own
    cases own
  have groups : ownGroups (deleteGroup s.managed.rows id) other = ownGroups s.managed.rows other := by
    simp only [ownGroups,deleteGroup,List.filter_filter]
    refine List.filter_congr (fun g member => ?_)
    cases own : g.tenantId == other with
    | false => rfl
    | true => simpa using left g.id (ownsIff.mpr ⟨g,member,by simpa using own,rfl⟩)
  have owner : owns (deleteGroup s.managed.rows id) other = owns s.managed.rows other := ownsSame groups
  have instances : ownInstances (deleteGroup s.managed.rows id) other = ownInstances s.managed.rows other := by
    rw [instancesOfSame groups]
    simp only [ownInstances,deleteGroup,List.filter_filter]
    refine List.filter_congr (fun i _ => ?_)
    cases own : owns s.managed.rows other i.groupId with
    | false => rfl
    | true => simpa using left i.groupId own
  refine ⟨groups,instances,?_,?_,fun _ _ => rfl,fun _ _ => rfl,fun _ _ => rfl⟩
  · change (s.messages.map (detached s id)).filter
      (fun m : MessageLog => m.groupId.any (owns (deleteGroup s.managed.rows id) other)) = _
    rw [owner]
    refine filterMapSame (fun m member own => ⟨detachedSame sound member (fun of => ?_),own⟩) (fun m _ none_ => ?_)
    · rw [of,Option.any_some,foreign] at own
      cases own
    · cases of : m.groupId with
      | none => simp [detached,of]
      | some key =>
        rw [of,Option.any_some] at none_
        simp only [detached,of,Option.filter_some]
        split
        · exact none_
        · rfl
  · change (s.blacklist.filter _).filter (fun e : BlacklistEntry => owns (deleteGroup s.managed.rows id) other e.groupId) = _
    rw [owner,List.filter_filter]
    refine List.filter_congr (fun e _ => ?_)
    cases own : owns s.managed.rows other e.groupId with
    | false => rfl
    | true => simpa using left e.groupId own

theorem frameDropInstance (sound : Sound used s) (mine : ownsInstance s.managed.rows tenant id = true)
    (apart : other ≠ tenant) : SameFor other s (dropInstance s id) := by
  have foreign := notOwnedInstance sound mine apart
  have instances : ownInstances (deleteInstance s.managed.rows id) other = ownInstances s.managed.rows other := by
    change (s.managed.rows.instances.filter (fun i => i.id != id)).filter
      (fun i => owns s.managed.rows other i.groupId) = _
    rw [List.filter_filter]
    refine List.filter_congr (fun i member => ?_)
    cases own : owns s.managed.rows other i.groupId with
    | false => rfl
    | true =>
      have kept : i.id ≠ id := by
        intro same
        rw [ownsInstanceIff.mpr ⟨i,member,own,same⟩] at foreign
        cases foreign
      simpa using kept
  have rows := frameRows (s := s) (u := deleteInstance s.managed.rows id) rfl instances
  refine ⟨rows.groups,rows.instances,?_,rows.entries,fun _ _ => rfl,fun _ _ => rfl,fun _ _ => rfl⟩
  refine filterMapSame (fun m member own => ⟨?_,own⟩) (fun m _ none_ => none_)
  have kept : m.instanceId.filter (· != id) = m.instanceId := by
    cases by_ : m.instanceId with
    | none => rfl
    | some key =>
      refine Option.filter_some_pos (bne_iff_ne.mpr (fun same => ?_))
      obtain ⟨i,inside,owner,here⟩ := ownsInstanceIff.mp mine
      have of := sound.senders m member i inside (by rw [by_,same,here])
      rw [of,Option.any_some] at own
      exact apart (oneOwner sound owner own)
  rw [kept]

theorem insertFilter {p : BlacklistEntry → Bool} {inserts : List (BlacklistEntry × Bool)}
    (foreign : ∀ row ∈ inserts, ∀ e : BlacklistEntry, e.groupId = row.1.groupId → p e = false) (rows : List BlacklistEntry) :
    (Blacklist.add true rows inserts).1.filter p = rows.filter p := by
  induction inserts generalizing rows with
  | nil => rfl
  | cons first rest ih =>
    obtain ⟨e,ok⟩ := first
    have later := fun rows => ih (fun row member => foreign row (List.mem_cons_of_mem _ member)) rows
    simp only [Blacklist.add]
    split
    · rfl
    next next_ affected inserted =>
    refine (later next_).trans ?_
    cases ok with
    | false => cases inserted
    | true =>
      simp only [if_pos,Blacklist.insert,bind,Option.bind_eq_some_iff] at inserted
      obtain ⟨phone,_,reason,_,made⟩ := inserted
      split at made <;> cases made
      · rfl
      · exact frameAdded (foreign (e,true) List.mem_cons_self _ rfl)

theorem sameBeside (managed : t.managed = s.managed)
    (messages : t.messages.filter (fun m => m.groupId.any (owns s.managed.rows other)) = ownMessages s other)
    (entries : t.blacklist.filter (fun e => owns s.managed.rows other e.groupId) = ownEntries s other)
    (strategies : ∀ key, owns s.managed.rows other key = true → t.strategies key = s.strategies key)
    (paused : ∀ key, owns s.managed.rows other key = true → t.paused key = s.paused key) : SameFor other s t := by
  refine ⟨by rw [managed],by rw [managed],?_,?_,fun _ _ => by rw [managed],strategies,paused⟩
  · rw [ownMessages,managed]; exact messages
  · rw [ownEntries,managed]; exact entries

/-- A write to what is one tenant's leaves everything that is another's. -/
theorem frameWrite {w : Write} (sound : Sound used s) (allowed : Allowed tenant s w) (apart : other ≠ tenant) :
    SameFor other s (write s w) := by
  cases w with
  | addGroup g =>
    have groups : ownGroups {s.managed.rows with groups := s.managed.rows.groups ++ [g]} other =
        ownGroups s.managed.rows other := frameAdded (by simpa [allowed.1] using apart.symm)
    exact frameRows groups (instancesOfSame groups)
  | editGroup id f =>
    have groups : ownGroups (write s (.editGroup id f)).managed.rows other = ownGroups s.managed.rows other :=
      (editedGroups allowed.2).trans (foreignGroups (notOwned sound allowed.1 apart))
    exact frameRows groups (instancesOfSame groups)
  | dropGroup id => exact frameDropGroup sound allowed apart
  | addInstance i => exact frameRows rfl (frameAdded (notOwned sound allowed.1 apart))
  | editInstance id f =>
    exact frameRows rfl ((editedInstances allowed.2).trans (foreignInstances (notOwnedInstance sound allowed.1 apart)))
  | dropInstance id => exact frameDropInstance sound allowed apart
  | start id a =>
    obtain ⟨_,_,rewired⟩ := rewiredStart sound.wired id a
    exact frameManaged rewired (notOwnedInstance sound allowed apart)
  | pair id a =>
    obtain ⟨_,_,rewired⟩ := rewiredPair sound.wired id a
    exact frameManaged rewired (notOwnedInstance sound allowed apart)
  | stop id => exact frameManaged (stopped sound.wired id) (notOwnedInstance sound allowed apart)
  | keepStrategy id strategy =>
    refine sameBeside rfl rfl rfl (fun key own => Function.update_of_ne (fun same => ?_) _ _) (fun _ _ => rfl)
    exact apart (oneOwner sound allowed (same ▸ own))
  | setPaused id paused =>
    refine sameBeside rfl rfl rfl (fun _ _ => rfl) (fun key own => Function.update_of_ne (fun same => ?_) _ _)
    exact apart (oneOwner sound allowed (same ▸ own))
  | addMessage m =>
    obtain ⟨_,_,i,_,owner,_,of⟩ := allowed
    refine sameBeside rfl (frameAdded ?_) rfl (fun _ _ => rfl) (fun _ _ => rfl)
    rw [of,Option.any_some]
    exact notOwned sound owner apart
  | editMessage id f =>
    refine sameBeside rfl ?_ rfl (fun _ _ => rfl) (fun _ _ => rfl)
    refine (updateFilter (fun m => by rw [(allowed.2 m).2.1]) s.messages).trans (updateAbsent (fun m member same => ?_))
    obtain ⟨inside,own⟩ := List.mem_filter.mp member
    obtain ⟨key,of,mine⟩ := (Option.any_eq_true _ _).mp (allowed.1 m inside same).2
    rw [of,Option.any_some] at own
    exact apart (oneOwner sound mine own)
  | insert rows =>
    refine sameBeside rfl rfl (insertFilter (fun row member e same => ?_) s.blacklist) (fun _ _ => rfl) (fun _ _ => rfl)
    rw [same]
    exact notOwned sound (allowed row member) apart
  | remove groupId phone =>
    refine sameBeside rfl rfl ?_ (fun _ _ => rfl) (fun _ _ => rfl)
    refine (List.filter_filter ..).trans (List.filter_congr (fun e _ => ?_))
    cases own : owns s.managed.rows other e.groupId with
    | false => rfl
    | true =>
      have kept : e.groupId ≠ groupId := fun same => apart (oneOwner sound allowed (same ▸ own))
      simp [kept]
  | send call => exact sameBeside rfl rfl rfl (fun _ _ => rfl) (fun _ _ => rfl)
  | emit e =>
    simp only [write,emit]
    split
    · exact sameRefl other s
    · split
      · exact sameBeside rfl rfl rfl (fun _ _ => rfl) (fun _ _ => rfl)
      · exact sameRefl other s

theorem ownsAdded {r : Rows} {g : GroupRow} (own : g.tenantId = tenant) (key : UUID) :
    owns {r with groups := r.groups ++ [g]} tenant key = (owns r tenant key || g.id == key) := by
  simp only [owns,ownGroups,List.filter_append,List.any_append]
  rw [List.filter_cons_of_pos (by simpa using own)]
  simp

theorem ownsDropped (r : Rows) (key : UUID) : owns (deleteGroup r id) tenant key = (owns r tenant key && key != id) := by
  rw [Bool.eq_iff_iff,Bool.and_eq_true,ownsIff,ownsIff]
  simp only [deleteGroup,List.mem_filter,bne_iff_ne]
  constructor
  · intro given
    obtain ⟨g,⟨member,apart⟩,owner,here⟩ := given
    exact ⟨⟨g,member,owner,here⟩,here ▸ apart⟩
  · intro given
    obtain ⟨⟨g,member,owner,here⟩,apart⟩ := given
    exact ⟨g,⟨member,here ▸ apart⟩,owner,here⟩

theorem ownedCongr {p q : UUID → Bool} (rows : List MessageLog) (same : ∀ m ∈ rows, ∀ key, m.groupId = some key → p key = q key) :
    rows.filter (fun m => m.groupId.any p) = rows.filter (fun m => m.groupId.any q) := by
  refine List.filter_congr (fun m member => ?_)
  cases of : m.groupId with
  | none => rfl
  | some key => exact same m member key of

theorem ownRow (sound : Sound used s) (own : ownsInstance s.managed.rows tenant id = true) :
    instanceById s.managed.rows id = (ownInstances s.managed.rows tenant).find? (fun i => i.id == id) := by
  obtain ⟨i,inside,owner,rfl⟩ := ownsInstanceIff.mp own
  have mine : (ownInstances s.managed.rows tenant).find? (fun j => j.id == i.id) = some i :=
    findKey (distinctFilter sound.instances _) (List.mem_filter.mpr ⟨inside,owner⟩)
  rw [mine]
  exact findKey sound.instances inside

theorem rowSame (same : SameFor tenant s t) (left : Sound used s) (right : Sound used t)
    (own : ownsInstance s.managed.rows tenant id = true) : instanceById t.managed.rows id = instanceById s.managed.rows id := by
  rw [ownRow left own,ownRow right (same.ownsInstance ▸ own),same.instances]

theorem groupSame (same : SameFor tenant s t) (left : Sound used s) (right : Sound used t)
    (own : owns s.managed.rows tenant id = true) : groupById t.managed.rows id = groupById s.managed.rows id := by
  have found {k : State} (sound : Sound used k) (mine : owns k.managed.rows tenant id = true) :
      groupById k.managed.rows id = (ownGroups k.managed.rows tenant).find? (fun g => g.id == id) := by
    obtain ⟨g,member,owner,rfl⟩ := ownsIff.mp mine
    have filtered : (ownGroups k.managed.rows tenant).find? (fun h => h.id == g.id) = some g :=
      findKey (distinctFilter sound.groups _) (List.mem_filter.mpr ⟨member,by simpa using owner⟩)
    rw [filtered]
    exact findKey sound.groups member
  rw [found left own,found right (same.owns ▸ own),same.groups]

theorem alikeSame (same : SameFor tenant s t) (left : Sound used s) (right : Sound used t)
    (own : ownsInstance s.managed.rows tenant id = true) : Alike s.managed t.managed id :=
  ⟨left.wired,right.wired,same.links id own,rowSame same left right own⟩

theorem bothRows (same : SameFor tenant s t) (groups : ownGroups v tenant = ownGroups u tenant)
    (instances : ownInstances v tenant = ownInstances u tenant) (owner : owns u tenant = owns s.managed.rows tenant)
    (links : ∀ key, ownsInstance u tenant key = true → link t.managed key = link s.managed key) :
    SameFor tenant (writeRows s u) (writeRows t v) := by
  have other : owns v tenant = owns t.managed.rows tenant := by rw [ownsSame groups,owner,same.owns]
  refine ⟨groups,instances,?_,?_,links,fun key own => same.strategies key (owner ▸ own),
    fun key own => same.paused key (owner ▸ own)⟩
  · change t.messages.filter (fun m => m.groupId.any (owns v tenant)) = s.messages.filter (fun m => m.groupId.any (owns u tenant))
    rw [other,owner]
    exact same.messages
  · change t.blacklist.filter (fun e => owns v tenant e.groupId) = s.blacklist.filter (fun e => owns u tenant e.groupId)
    rw [other,owner]
    exact same.entries

theorem bothManaged {m n : Managed} {ρ : Type} {x y : Managed × ρ} (same : SameFor tenant s t)
    (matched : Matches s.managed t.managed id x y) (left : x.1 = m) (right : y.1 = n) :
    SameFor tenant (manage s m) (manage t n) := by
  obtain ⟨_,status,entry,first,second⟩ := matched
  subst left right
  have kept : ∀ i : InstanceRow, (touched status i).id = i.id ∧ (touched status i).groupId = i.groupId := fun _ => ⟨rfl,rfl⟩
  have groups : ownGroups y.1.rows tenant = ownGroups x.1.rows tenant := by
    rw [first.rows,second.rows]; exact same.groups
  have instances : ownInstances y.1.rows tenant = ownInstances x.1.rows tenant := by
    rw [first.rows,second.rows,editedInstances kept,editedInstances kept,same.instances]
  have owner : owns x.1.rows tenant = owns s.managed.rows tenant := by rw [first.rows]; rfl
  have rows := bothRows (u := x.1.rows) (v := y.1.rows) same groups instances owner (fun key own => same.links key (by
    rw [first.rows,editedOwnsInstance kept] at own; exact own))
  refine ⟨groups,instances,rows.messages,rows.entries,fun key own => ?_,rows.strategies,rows.paused⟩
  change link y.1 key = link x.1 key
  rw [first.links,second.links]
  split
  · rfl
  · refine same.links key ?_
    change ownsInstance x.1.rows tenant key = true at own
    rwa [first.rows,editedOwnsInstance kept] at own

theorem insertBoth {p : BlacklistEntry → Bool} {inserts : List (BlacklistEntry × Bool)}
    (own : ∀ row ∈ inserts, ∀ e : BlacklistEntry, e.groupId = row.1.groupId → p e = true) {rows others : List BlacklistEntry}
    (same : others.filter p = rows.filter p) :
    (Blacklist.add true others inserts).2 = (Blacklist.add true rows inserts).2 ∧
      (Blacklist.add true others inserts).1.filter p = (Blacklist.add true rows inserts).1.filter p := by
  induction inserts generalizing rows others with
  | nil => exact ⟨rfl,same⟩
  | cons first rest ih =>
    obtain ⟨e,ok⟩ := first
    have passes := own (e,ok) List.mem_cons_self
    have later {rows others : List BlacklistEntry} (same : others.filter p = rows.filter p) :=
      ih (fun row member => own row (List.mem_cons_of_mem _ member)) same
    cases ok with
    | false => exact ⟨rfl,same⟩
    | true =>
      have listed (rows : List BlacklistEntry) (phone : GoString) :
          isBlacklisted rows e.groupId phone = isBlacklisted (rows.filter p) e.groupId phone := by
        simp only [isBlacklisted,List.any_filter]
        congr 1
        funext row
        by_cases here : row.groupId = e.groupId
        · simp [passes row here]
        · simp [here]
      simp only [Blacklist.add,if_pos,Blacklist.insert,bind,Option.bind]
      cases varchar 20 e.phone with
      | none => exact ⟨rfl,same⟩
      | some phone =>
        cases varchar 50 e.reason with
        | none => exact ⟨rfl,same⟩
        | some reason =>
          dsimp only
          rw [listed others,listed rows,same]
          cases isBlacklisted (rows.filter p) e.groupId phone with
          | true =>
            obtain ⟨count,entries⟩ := later same
            exact ⟨congrArg (Option.map _) count,entries⟩
          | false =>
            have next : (others ++ [{e with phone := phone, reason := reason}]).filter p =
                (rows ++ [{e with phone := phone, reason := reason}]).filter p := by
              rw [List.filter_append,List.filter_append,same]
            obtain ⟨count,entries⟩ := later next
            exact ⟨congrArg (Option.map _) count,entries⟩

theorem bothAddGroup {g : GroupRow} (same : SameFor tenant s t) (left : Sound used s) (right : Sound used t)
    (allowed : Allowed tenant s (.addGroup g)) (also : Allowed tenant t (.addGroup g)) :
    SameFor tenant (write s (.addGroup g)) (write t (.addGroup g)) := by
  obtain ⟨own,unknown⟩ := allowed
  have keeps {k : State} (sound : Sound used k) (new : Unknown k g.id) :
      ownInstances (write k (.addGroup g)).managed.rows tenant = ownInstances k.managed.rows tenant ∧
      ownMessages (write k (.addGroup g)) tenant = ownMessages k tenant ∧
      ownEntries (write k (.addGroup g)) tenant = ownEntries k tenant := by
    have elsewhere : ∀ key, key ≠ g.id →
        owns {k.managed.rows with groups := k.managed.rows.groups ++ [g]} tenant key = owns k.managed.rows tenant key := by
      intro key apart
      rw [ownsAdded own,show (g.id == key) = false by simpa using apart.symm,Bool.or_false]
    refine ⟨List.filter_congr (fun i member => elsewhere _ (fun here => ?_)),ownedCongr _ (fun m member key of => ?_),
      List.filter_congr (fun e member => elsewhere _ (new.entries e member))⟩
    · obtain ⟨owner,inside,same⟩ := sound.references i member
      exact new.groups owner inside (same.trans here)
    · exact elsewhere _ (fun here => (new.messages m member).2.1 (here ▸ of))
  obtain ⟨instances,messages,entries⟩ := keeps left unknown
  obtain ⟨instancesAlso,messagesAlso,entriesAlso⟩ := keeps right also.2
  have groups : ownGroups (write t (.addGroup g)).managed.rows tenant = ownGroups (write s (.addGroup g)).managed.rows tenant := by
    change (t.managed.rows.groups ++ [g]).filter _ = (s.managed.rows.groups ++ [g]).filter _
    rw [List.filter_append,List.filter_append]
    exact congrArg (· ++ _) same.groups
  have flags : ∀ key, owns (write s (.addGroup g)).managed.rows tenant key = true →
      owns s.managed.rows tenant key = true ∨ key = g.id := by
    intro key mine
    have either := (ownsAdded (r := s.managed.rows) own key).symm.trans mine
    rw [Bool.or_eq_true,beq_iff_eq] at either
    exact either.imp id Eq.symm
  refine ⟨groups,by rw [instances,instancesAlso,same.instances],by rw [messages,messagesAlso,same.messages],
    by rw [entries,entriesAlso,same.entries],fun key mine => ?_,fun key mine => ?_,fun key mine => ?_⟩
  · rw [ownsInstanceSame instances] at mine
    exact same.links key mine
  · rcases flags key mine with old | rfl
    · exact same.strategies key old
    · exact also.2.strategies.trans unknown.strategies.symm
  · rcases flags key mine with old | rfl
    · exact same.paused key old
    · exact also.2.paused.trans unknown.paused.symm

theorem bothDropGroup (same : SameFor tenant s t) (left : Sound used s) (right : Sound used t) :
    SameFor tenant (write s (.dropGroup id)) (write t (.dropGroup id)) := by
  have keeps {k : State} (sound : Sound used k) :
      ownGroups (dropGroup k id).managed.rows tenant = (ownGroups k.managed.rows tenant).filter (fun g => g.id != id) ∧
      ownInstances (dropGroup k id).managed.rows tenant = (ownInstances k.managed.rows tenant).filter (fun i => i.groupId != id) ∧
      ownMessages (dropGroup k id) tenant = (ownMessages k tenant).filter (fun m => m.groupId != some id) ∧
      ownEntries (dropGroup k id) tenant = (ownEntries k tenant).filter (fun e => e.groupId != id) := by
    refine ⟨?_,?_,?_,?_⟩
    · change (k.managed.rows.groups.filter _).filter _ = (k.managed.rows.groups.filter _).filter _
      rw [List.filter_filter,List.filter_filter]
      exact List.filter_congr (fun _ _ => Bool.and_comm _ _)
    · change (k.managed.rows.instances.filter _).filter (fun i => owns (deleteGroup k.managed.rows id) tenant i.groupId) =
        (k.managed.rows.instances.filter _).filter _
      rw [List.filter_filter,List.filter_filter]
      refine List.filter_congr (fun i _ => ?_)
      rw [ownsDropped]
      cases owns k.managed.rows tenant i.groupId <;> cases i.groupId != id <;> rfl
    · change (k.messages.map (detached k id)).filter
        (fun m => m.groupId.any (owns (deleteGroup k.managed.rows id) tenant)) = (k.messages.filter _).filter _
      rw [List.filter_filter]
      refine filterMapSame (fun m member own => ?_) (fun m _ none_ => ?_)
      · rw [Bool.and_eq_true,bne_iff_ne] at own
        refine ⟨detachedSame sound member own.1,?_⟩
        obtain ⟨key,of,mine⟩ := (Option.any_eq_true _ _).mp own.2
        have apart : key ≠ id := fun here => own.1 (here ▸ of)
        rw [of,Option.any_some,ownsDropped,mine]
        simpa using apart
      · cases of : m.groupId with
        | none => simp [detached,of]
        | some key =>
          by_cases here : key = id
          · simp [detached,of,here]
          · simp only [of,Option.any_some,Bool.and_eq_false_iff] at none_
            have foreign : owns k.managed.rows tenant key = false := by simpa [here] using none_
            simp [detached,of,ownsDropped,foreign]
    · change (k.blacklist.filter _).filter (fun e => owns (deleteGroup k.managed.rows id) tenant e.groupId) =
        (k.blacklist.filter _).filter _
      rw [List.filter_filter,List.filter_filter]
      refine List.filter_congr (fun e _ => ?_)
      rw [ownsDropped]
      cases owns k.managed.rows tenant e.groupId <;> cases e.groupId != id <;> rfl
  obtain ⟨groups,instances,messages,entries⟩ := keeps left
  obtain ⟨groupsAlso,instancesAlso,messagesAlso,entriesAlso⟩ := keeps right
  have flags : ∀ key, owns (dropGroup s id).managed.rows tenant key = true → owns s.managed.rows tenant key = true := by
    intro key mine
    have both : (owns s.managed.rows tenant key && key != id) = true := (ownsDropped s.managed.rows key).symm.trans mine
    exact (Bool.and_eq_true_iff.mp both).1
  refine ⟨groupsAlso.trans (by rw [same.groups]; exact groups.symm),
    instancesAlso.trans (by rw [same.instances]; exact instances.symm),
    messagesAlso.trans (by rw [same.messages]; exact messages.symm),entriesAlso.trans (by rw [same.entries]; exact entries.symm),
    fun key mine => same.links key ?_,fun key mine => same.strategies key (flags key mine),
    fun key mine => same.paused key (flags key mine)⟩
  change ownsInstance (dropGroup s id).managed.rows tenant key = true at mine
  rw [ownsInstance,instances,List.any_filter] at mine
  obtain ⟨i,member,both⟩ := List.any_eq_true.mp mine
  exact List.any_eq_true.mpr ⟨i,member,(Bool.and_eq_true_iff.mp both).2⟩

theorem bothAddInstance {i : InstanceRow} (same : SameFor tenant s t) (allowed : Allowed tenant s (.addInstance i))
    (also : Allowed tenant t (.addInstance i)) : SameFor tenant (write s (.addInstance i)) (write t (.addInstance i)) := by
  have grown (r : Rows) (own : owns r tenant i.groupId = true) :
      ownInstances {r with instances := r.instances ++ [i]} tenant = ownInstances r tenant ++ [i] := by
    change (r.instances ++ [i]).filter (fun i => owns r tenant i.groupId) = _
    rw [List.filter_append,show [i].filter (fun i => owns r tenant i.groupId) = [i] by simp [own]]
    rfl
  have new {k : State} (unknown : Unknown k i.id) : link k.managed i.id = none := by
    have absent : connectionOf k.managed i.id = none :=
      List.find?_eq_none.mpr (fun c member => by simpa using unknown.connections c member)
    rw [link,absent]
    rfl
  refine bothRows same same.groups ((grown _ also.1).trans ?_) rfl (fun key own => ?_)
  · rw [same.instances]
    exact (grown _ allowed.1).symm
  · rw [ownsInstance,grown _ allowed.1,List.any_append] at own
    rcases Bool.or_eq_true_iff.mp own with old | last
    · exact same.links key old
    · have here : i.id = key := by simpa using last
      rw [← here,new allowed.2,new also.2]

theorem bothDropInstance (same : SameFor tenant s t) :
    SameFor tenant (write s (.dropInstance id)) (write t (.dropInstance id)) := by
  have kept (r : Rows) : ownInstances (deleteInstance r id) tenant = (ownInstances r tenant).filter (fun i => i.id != id) := by
    change (r.instances.filter _).filter (fun i => owns r tenant i.groupId) = (r.instances.filter _).filter _
    rw [List.filter_filter,List.filter_filter]
    exact List.filter_congr (fun _ _ => Bool.and_comm _ _)
  have rows := bothRows (u := deleteInstance s.managed.rows id) (v := deleteInstance t.managed.rows id) same same.groups
    (by rw [kept,kept,same.instances]) rfl (fun key own => by
      rw [ownsInstance,kept,List.any_filter] at own
      obtain ⟨i,member,both⟩ := List.any_eq_true.mp own
      exact same.links key (List.any_eq_true.mpr ⟨i,member,(Bool.and_eq_true_iff.mp both).2⟩))
  refine ⟨rows.groups,rows.instances,?_,rows.entries,rows.links,rows.strategies,rows.paused⟩
  have mapped (k : State) : ownMessages (dropInstance k id) tenant =
      (ownMessages k tenant).map (fun m => {m with instanceId := m.instanceId.filter (· != id)}) :=
    List.filter_map ..
  exact (mapped t).trans ((congrArg _ same.messages).trans (mapped s).symm)

theorem bothEditGroup {f : GroupRow → GroupRow} (same : SameFor tenant s t)
    (kept : ∀ g : GroupRow, (f g).id = g.id ∧ (f g).tenantId = g.tenantId) :
    SameFor tenant (write s (.editGroup id f)) (write t (.editGroup id f)) := by
  have groups (k : State) : ownGroups (write k (.editGroup id f)).managed.rows tenant = _ := editedGroups kept
  have instances (k : State) : ownInstances (write k (.editGroup id f)).managed.rows tenant =
      ownInstances k.managed.rows tenant := by
    change k.managed.rows.instances.filter (fun i => owns {k.managed.rows with
      groups := update (fun g : GroupRow => g.id) id f k.managed.rows.groups} tenant i.groupId) = _
    rw [editedOwns kept]
    rfl
  refine bothRows same ?_ ?_ (editedOwns kept) (fun key own => same.links key ?_)
  · exact (groups t).trans ((congrArg _ same.groups).trans (groups s).symm)
  · exact (instances t).trans (same.instances.trans (instances s).symm)
  · exact (congrFun (ownsInstanceSame (instances s)) key).symm.trans own

theorem bothAddMessage (same : SameFor tenant s t) (m : MessageLog) :
    SameFor tenant (write s (.addMessage m)) (write t (.addMessage m)) := by
  refine ⟨same.groups,same.instances,?_,same.entries,same.links,same.strategies,same.paused⟩
  change (t.messages ++ [m]).filter (fun m => m.groupId.any (owns t.managed.rows tenant)) =
    (s.messages ++ [m]).filter (fun m => m.groupId.any (owns s.managed.rows tenant))
  rw [List.filter_append,List.filter_append,same.owns]
  have old := same.messages
  rw [ownMessages,ownMessages,same.owns] at old
  rw [old]

theorem bothInsert {rows : List (BlacklistEntry × Bool)} (same : SameFor tenant s t)
    (own : ∀ row ∈ rows, owns s.managed.rows tenant row.1.groupId = true) :
    SameFor tenant (write s (.insert rows)) (write t (.insert rows)) := by
  refine ⟨same.groups,same.instances,same.messages,?_,same.links,same.strategies,same.paused⟩
  change (Blacklist.add true t.blacklist rows).1.filter (fun e => owns t.managed.rows tenant e.groupId) =
    (Blacklist.add true s.blacklist rows).1.filter (fun e => owns s.managed.rows tenant e.groupId)
  rw [same.owns]
  refine (insertBoth (fun row member e here => ?_) ?_).2
  · rw [here]; exact own row member
  · have old := same.entries
    rw [ownEntries,ownEntries,same.owns] at old
    exact old

theorem bothRemove (same : SameFor tenant s t) (groupId : UUID) (phone : GoString) :
    SameFor tenant (write s (.remove groupId phone)) (write t (.remove groupId phone)) := by
  refine ⟨same.groups,same.instances,same.messages,?_,same.links,same.strategies,same.paused⟩
  have kept (k : State) : ownEntries (write k (.remove groupId phone)) tenant =
      (ownEntries k tenant).filter (fun e => !(e.groupId == groupId && e.phone == phone)) := by
    change (k.blacklist.filter _).filter (fun e => owns k.managed.rows tenant e.groupId) = (k.blacklist.filter _).filter _
    rw [List.filter_filter,List.filter_filter]
    exact List.filter_congr (fun _ _ => Bool.and_comm _ _)
  rw [kept,kept,same.entries]

/-- The same write to what the tenant has leaves it the same in two states in which it was. -/
theorem bothWrite {w : Write} (same : SameFor tenant s t) (left : Sound used s) (right : Sound used t)
    (allowed : Allowed tenant s w) (also : Allowed tenant t w) : SameFor tenant (write s w) (write t w) := by
  cases w with
  | addGroup g => exact bothAddGroup same left right allowed also
  | editGroup id f => exact bothEditGroup same allowed.2
  | dropGroup id => exact bothDropGroup same left right
  | addInstance i => exact bothAddInstance same allowed also
  | editInstance id f =>
    refine bothRows same same.groups ?_ rfl (fun key own => same.links key (by rwa [editedOwnsInstance allowed.2] at own))
    rw [editedInstances allowed.2,editedInstances allowed.2,same.instances]
  | dropInstance id => exact bothDropInstance same
  | start id a => exact bothManaged same (startMatches (alikeSame same left right allowed) a) rfl rfl
  | pair id a => exact bothManaged same (pairMatches (alikeSame same left right allowed) a) rfl rfl
  | stop id =>
    have first := stopped left.wired id
    have second := stopped right.wired id
    exact bothManaged (x := (stopInstance s.managed id,())) (y := (stopInstance t.managed id,())) same
      ⟨rfl,none,none,first,second⟩ rfl rfl
  | keepStrategy id strategy =>
    refine ⟨same.groups,same.instances,same.messages,same.entries,same.links,fun key own => ?_,same.paused⟩
    by_cases here : key = id
    · simp [write,here]
    · simpa [write,here] using same.strategies key own
  | setPaused id paused =>
    refine ⟨same.groups,same.instances,same.messages,same.entries,same.links,same.strategies,fun key own => ?_⟩
    by_cases here : key = id
    · simp [write,here]
    · simpa [write,here] using same.paused key own
  | addMessage m => exact bothAddMessage same m
  | editMessage id f =>
    refine ⟨same.groups,same.instances,?_,same.entries,same.links,same.strategies,same.paused⟩
    have blind (k : State) : ownMessages (write k (.editMessage id f)) tenant = update MessageLog.id id f (ownMessages k tenant) :=
      updateFilter (fun m => by rw [(allowed.2 m).2.1]) k.messages
    rw [blind,blind,same.messages]
  | insert rows => exact bothInsert same allowed
  | remove groupId phone => exact bothRemove same groupId phone
  | send call => exact ⟨same.groups,same.instances,same.messages,same.entries,same.links,same.strategies,same.paused⟩
  | emit e =>
    have emitted (k : State) : SameFor tenant k (emit k e) := by
      unfold emit
      split
      · exact sameRefl tenant k
      · split
        · exact sameBeside rfl rfl rfl (fun _ _ => rfl) (fun _ _ => rfl)
        · exact sameRefl tenant k
    exact sameTrans (sameSymm (emitted s)) (sameTrans same (emitted t))

end Tables

section Kept
variable {tenant id : UUID} {s : State} {used : List UUID}

theorem usedGroup (sound : Sound used s) (own : owns s.managed.rows tenant id = true) : id ∈ used := by
  by_contra new
  obtain ⟨g,member,_,here⟩ := ownsIff.mp own
  exact (sound.known id new).groups g member here

theorem usedInstance (sound : Sound used s) (own : ownsInstance s.managed.rows tenant id = true) : id ∈ used := by
  by_contra new
  obtain ⟨i,member,_,here⟩ := ownsInstanceIff.mp own
  exact (sound.known id new).instances i member here

theorem soundManaged {m : Managed} {status : Option InstanceStatus} {entry : Option (UUID × Bool)} (sound : Sound used s)
    (rewired : Rewired s.managed id status entry m) (own : id ∈ used) : Sound used (manage s m) := by
  have rows := rewired.rows
  have instances : ∀ i ∈ m.rows.instances, ∃ old ∈ s.managed.rows.instances, i.id = old.id ∧ i.groupId = old.groupId := by
    intro i member
    rw [rows] at member
    obtain ⟨old,inside,same⟩ := memUpdate.mp member
    refine ⟨old,inside,?_⟩
    rw [same]
    split <;> exact ⟨rfl,rfl⟩
  refine ⟨?_,?_,sound.messages,?_,?_,rewired.wired,fun key new => ?_⟩
  · change Distinct (fun g : GroupRow => g.id) m.rows.groups
    rw [rows]; exact sound.groups
  · change Distinct (fun i : InstanceRow => i.id) m.rows.instances
    rw [rows]; exact distinctUpdate (fun _ => rfl) sound.instances
  · intro i member
    obtain ⟨old,inside,_,group⟩ := instances i member
    obtain ⟨g,there,same⟩ := sound.references old inside
    refine ⟨g,?_,same.trans group.symm⟩
    change g ∈ m.rows.groups
    rw [rows]; exact there
  · intro message inside i member by_
    obtain ⟨old,there,key,group⟩ := instances i member
    rw [group]
    exact sound.senders message inside old there (by rw [by_,key])
  · have unknown := sound.known key new
    refine ⟨fun g member => ?_,fun i member => ?_,unknown.messages,unknown.entries,fun c member => ?_,unknown.strategies,
      unknown.paused⟩
    · refine unknown.groups g ?_
      change g ∈ m.rows.groups at member
      rwa [rows] at member
    · obtain ⟨old,inside,same,_⟩ := instances i member
      rw [same]
      exact unknown.instances old inside
    · rcases rewired.kept c member with here | old
      · rw [here]
        exact fun same => new (same ▸ own)
      · exact unknown.connections c old

theorem insertMembers {inserts : List (BlacklistEntry × Bool)} {rows : List BlacklistEntry} {e : BlacklistEntry}
    (member : e ∈ (Blacklist.add true rows inserts).1) : e ∈ rows ∨ ∃ row ∈ inserts, e.groupId = row.1.groupId := by
  induction inserts generalizing rows with
  | nil => exact .inl member
  | cons first rest ih =>
    obtain ⟨head,ok⟩ := first
    have later {next : List BlacklistEntry} (inside : e ∈ (Blacklist.add true next rest).1) :
        e ∈ next ∨ ∃ row ∈ (head,ok)::rest, e.groupId = row.1.groupId :=
      (ih inside).imp_right (fun found => (by
        obtain ⟨other,there,same⟩ := found
        exact ⟨other,List.mem_cons_of_mem _ there,same⟩))
    simp only [Blacklist.add] at member
    split at member
    · exact .inl member
    next next affected inserted =>
    cases ok with
    | false => cases inserted
    | true =>
      simp only [if_pos,Blacklist.insert,bind,Option.bind_eq_some_iff] at inserted
      obtain ⟨phone,_,reason,_,made⟩ := inserted
      split at made <;> cases made
      · exact later member
      · rcases later member with old | new
        · rcases List.mem_append.mp old with before | last
          · exact .inl before
          · cases List.mem_singleton.mp last
            exact .inr ⟨_,List.mem_cons_self,rfl⟩
        · exact .inr new

theorem soundDropGroup (sound : Sound used s) : Sound used (dropGroup s id) := by
  have rows : ∀ i ∈ (dropGroup s id).managed.rows.instances, i ∈ s.managed.rows.instances ∧ i.groupId ≠ id := by
    intro i member
    obtain ⟨inside,apart⟩ := List.mem_filter.mp member
    exact ⟨inside,by simpa using apart⟩
  have messages : ∀ m ∈ (dropGroup s id).messages, ∃ old ∈ s.messages, m = detached s id old := by
    intro m member
    obtain ⟨old,inside,same⟩ := List.mem_map.mp member
    exact ⟨old,inside,same.symm⟩
  refine ⟨distinctFilter sound.groups _,distinctFilter sound.instances _,distinctMap (fun _ => rfl) sound.messages,
    fun i member => ?_,fun m inside i member by_ => ?_,⟨sound.wired.entries,sound.wired.clients⟩,fun key new => ?_⟩
  · obtain ⟨inside,apart⟩ := rows i member
    obtain ⟨g,there,same⟩ := sound.references i inside
    exact ⟨g,List.mem_filter.mpr ⟨there,by simpa [same] using apart⟩,same⟩
  · obtain ⟨there,apart⟩ := rows i member
    obtain ⟨old,before,rfl⟩ := messages m inside
    have sender : old.instanceId = some i.id := (Option.filter_eq_some_iff.mp by_).1
    have of := sound.senders old before i there sender
    simp only [detached,of]
    exact Option.filter_some_pos (by simpa using apart)
  · have unknown := sound.known key new
    refine ⟨fun g member => unknown.groups g (List.mem_filter.mp member).1,fun i member => unknown.instances i (rows i member).1,
      fun m inside => ?_,fun e member => unknown.entries e (List.mem_filter.mp member).1,unknown.connections,
      unknown.strategies,unknown.paused⟩
    obtain ⟨old,there,rfl⟩ := messages m inside
    obtain ⟨own,group,sender⟩ := unknown.messages old there
    exact ⟨own,fun of => group (Option.filter_eq_some_iff.mp of).1,fun by_ => sender (Option.filter_eq_some_iff.mp by_).1⟩

theorem soundDropInstance (sound : Sound used s) : Sound used (dropInstance s id) := by
  have messages : ∀ m ∈ (dropInstance s id).messages, ∃ old ∈ s.messages,
      m = {old with instanceId := old.instanceId.filter (· != id)} := by
    intro m member
    obtain ⟨old,inside,same⟩ := List.mem_map.mp member
    exact ⟨old,inside,same.symm⟩
  refine ⟨sound.groups,distinctFilter sound.instances _,distinctMap (fun _ => rfl) sound.messages,
    fun i member => sound.references i (List.mem_filter.mp member).1,fun m inside i member by_ => ?_,
    ⟨sound.wired.entries,sound.wired.clients⟩,fun key new => ?_⟩
  · obtain ⟨old,there,rfl⟩ := messages m inside
    exact sound.senders old there i (List.mem_filter.mp member).1 (Option.filter_eq_some_iff.mp by_).1
  · have unknown := sound.known key new
    refine ⟨unknown.groups,fun i member => unknown.instances i (List.mem_filter.mp member).1,fun m inside => ?_,unknown.entries,
      unknown.connections,unknown.strategies,unknown.paused⟩
    obtain ⟨old,there,rfl⟩ := messages m inside
    obtain ⟨own,group,sender⟩ := unknown.messages old there
    exact ⟨own,group,fun by_ => sender (Option.filter_eq_some_iff.mp by_).1⟩

theorem soundBeside {t : State} (sound : Sound used s) (managed : t.managed = s.managed)
    (messages : Distinct MessageLog.id t.messages)
    (senders : ∀ m ∈ t.messages, ∀ i ∈ s.managed.rows.instances, m.instanceId = some i.id → m.groupId = some i.groupId)
    (known : ∀ key, key ∉ used → (∀ m ∈ t.messages, m.id ≠ key ∧ m.groupId ≠ some key ∧ m.instanceId ≠ some key) ∧
      (∀ e ∈ t.blacklist, e.groupId ≠ key) ∧ t.strategies key = none ∧ t.paused key = false) : Sound used t := by
  refine ⟨by rw [managed]; exact sound.groups,by rw [managed]; exact sound.instances,messages,
    by rw [managed]; exact sound.references,
    by rw [managed]; exact senders,by rw [managed]; exact sound.wired,fun key new => ?_⟩
  have unknown := sound.known key new
  obtain ⟨logs,entries,strategies,paused⟩ := known key new
  exact ⟨by rw [managed]; exact unknown.groups,by rw [managed]; exact unknown.instances,logs,entries,
    by rw [managed]; exact unknown.connections,strategies,paused⟩

theorem soundAddGroup {g : GroupRow} (sound : Sound used s) (allowed : Allowed tenant s (.addGroup g)) (new : g.id ∈ used) :
    Sound used (write s (.addGroup g)) := by
  have fresh := allowed.2
  refine ⟨distinctAppend sound.groups (List.nodup_singleton _) (fun a last b old same => ?_),sound.instances,
    sound.messages,referencesGroup g sound.references,sound.senders,⟨sound.wired.entries,sound.wired.clients⟩,fun key unused => ?_⟩
  · cases List.mem_singleton.mp last
    exact fresh.groups b old same
  · have unknown := sound.known key unused
    refine ⟨fun h member => ?_,unknown.instances,unknown.messages,unknown.entries,unknown.connections,unknown.strategies,
      unknown.paused⟩
    rcases List.mem_append.mp member with old | last
    · exact unknown.groups h old
    · cases List.mem_singleton.mp last
      exact fun same => unused (same ▸ new)

theorem soundEditGroup {f : GroupRow → GroupRow} (sound : Sound used s) (allowed : Allowed tenant s (.editGroup id f)) :
    Sound used (write s (.editGroup id f)) := by
  have members : ∀ g ∈ (write s (.editGroup id f)).managed.rows.groups, ∃ old ∈ s.managed.rows.groups, g.id = old.id := by
    intro g member
    obtain ⟨old,inside,same⟩ := memUpdate.mp member
    refine ⟨old,inside,?_⟩
    rw [same]
    split
    · exact (allowed.2 old).1
    · rfl
  refine ⟨distinctUpdate (fun g => (allowed.2 g).1) sound.groups,sound.instances,sound.messages,fun i member => ?_,sound.senders,
    ⟨sound.wired.entries,sound.wired.clients⟩,fun key unused => ?_⟩
  · obtain ⟨g,inside,same⟩ := sound.references i member
    refine ⟨_,memUpdate.mpr ⟨g,inside,rfl⟩,?_⟩
    split
    · exact (allowed.2 g).1.trans same
    · exact same
  · have unknown := sound.known key unused
    refine ⟨fun g member => ?_,unknown.instances,unknown.messages,unknown.entries,unknown.connections,unknown.strategies,
      unknown.paused⟩
    obtain ⟨old,inside,same⟩ := members g member
    rw [same]
    exact unknown.groups old inside

theorem soundAddInstance {i : InstanceRow} (sound : Sound used s) (allowed : Allowed tenant s (.addInstance i))
    (new : i.id ∈ used) : Sound used (write s (.addInstance i)) := by
  obtain ⟨own,fresh⟩ := allowed
  obtain ⟨g,member,_,here⟩ := ownsIff.mp own
  refine ⟨sound.groups,distinctAppend sound.instances (List.nodup_singleton _) (fun a last b old same => ?_),
    sound.messages,referencesInstance sound.references ?_,fun m inside j member by_ => ?_,⟨sound.wired.entries,sound.wired.clients⟩,
    fun key unused => ?_⟩
  · cases List.mem_singleton.mp last
    exact fresh.instances b old same
  · rw [← here,groupById,findKey sound.groups member]
    rfl
  · rcases List.mem_append.mp member with old | last
    · exact sound.senders m inside j old by_
    · cases List.mem_singleton.mp last
      exact absurd by_ (fresh.messages m inside).2.2
  · have unknown := sound.known key unused
    refine ⟨unknown.groups,fun j member => ?_,unknown.messages,unknown.entries,unknown.connections,unknown.strategies,
      unknown.paused⟩
    rcases List.mem_append.mp member with old | last
    · exact unknown.instances j old
    · cases List.mem_singleton.mp last
      exact fun same => unused (same ▸ new)

theorem soundEditInstance {f : InstanceRow → InstanceRow} (sound : Sound used s)
    (allowed : Allowed tenant s (.editInstance id f)) : Sound used (write s (.editInstance id f)) := by
  have members : ∀ i ∈ (write s (.editInstance id f)).managed.rows.instances,
      ∃ old ∈ s.managed.rows.instances, i.id = old.id ∧ i.groupId = old.groupId := by
    intro i member
    obtain ⟨old,inside,same⟩ := memUpdate.mp member
    refine ⟨old,inside,?_⟩
    rw [same]
    split
    · exact allowed.2 old
    · exact ⟨rfl,rfl⟩
  refine ⟨sound.groups,distinctUpdate (fun i => (allowed.2 i).1) sound.instances,sound.messages,fun i member => ?_,
    fun m inside i member by_ => ?_,⟨sound.wired.entries,sound.wired.clients⟩,fun key unused => ?_⟩
  · obtain ⟨old,inside,_,group⟩ := members i member
    rw [group]
    exact sound.references old inside
  · obtain ⟨old,there,same,group⟩ := members i member
    rw [group]
    exact sound.senders m inside old there (by rw [by_,same])
  · have unknown := sound.known key unused
    refine ⟨unknown.groups,fun i member => ?_,unknown.messages,unknown.entries,unknown.connections,unknown.strategies,
      unknown.paused⟩
    obtain ⟨old,inside,same,_⟩ := members i member
    rw [same]
    exact unknown.instances old inside

theorem soundAddMessage {m : MessageLog} (sound : Sound used s) (allowed : Allowed tenant s (.addMessage m))
    (new : m.id ∈ used) : Sound used (write s (.addMessage m)) := by
  obtain ⟨_,fresh,i,member,own,by_,of⟩ := allowed
  refine soundBeside sound rfl (distinctAppend sound.messages (List.nodup_singleton _) (fun a last b old same => ?_))
    (fun k inside j there sender => ?_) (fun key unused => ?_)
  · cases List.mem_singleton.mp last
    exact (fresh.messages b old).1 same
  · rcases List.mem_append.mp inside with old | last
    · exact sound.senders k old j there sender
    · cases List.mem_singleton.mp last
      have same : i.id = j.id := Option.some.inj (by_.symm.trans sender)
      rw [of,sameRow sound.instances member there same]
  · have unknown := sound.known key unused
    refine ⟨fun k inside => ?_,unknown.entries,unknown.strategies,unknown.paused⟩
    rcases List.mem_append.mp inside with old | last
    · exact unknown.messages k old
    · cases List.mem_singleton.mp last
      refine ⟨fun same => unused (same ▸ new),fun same => ?_,fun same => ?_⟩
      · exact unused (Option.some.inj (of.symm.trans same) ▸ usedGroup sound own)
      · exact unknown.instances i member (Option.some.inj (by_.symm.trans same))

theorem soundEditMessage {f : MessageLog → MessageLog} (sound : Sound used s)
    (allowed : Allowed tenant s (.editMessage id f)) : Sound used (write s (.editMessage id f)) := by
  have members : ∀ m ∈ (write s (.editMessage id f)).messages,
      ∃ old ∈ s.messages, m.id = old.id ∧ m.groupId = old.groupId ∧ m.instanceId = old.instanceId := by
    intro m member
    obtain ⟨old,inside,same⟩ := memUpdate.mp member
    refine ⟨old,inside,?_⟩
    rw [same]
    split
    · obtain ⟨own,group,sender,_⟩ := allowed.2 old
      exact ⟨own,group,sender⟩
    · exact ⟨rfl,rfl,rfl⟩
  refine soundBeside sound rfl (distinctUpdate (fun m => (allowed.2 m).1) sound.messages)
    (fun m inside i there sender => ?_) (fun key unused => ?_)
  · obtain ⟨old,before,_,group,by_⟩ := members m inside
    rw [group]
    exact sound.senders old before i there (by_.symm.trans sender)
  · have unknown := sound.known key unused
    refine ⟨fun m inside => ?_,unknown.entries,unknown.strategies,unknown.paused⟩
    obtain ⟨old,before,own,group,by_⟩ := members m inside
    rw [own,group,by_]
    exact unknown.messages old before

/-- Every write to what is the tenant's keeps the state sound. -/
theorem soundWrite {w : Write} (sound : Sound used s) (allowed : Allowed tenant s w) (new : ∀ key ∈ added w, key ∈ used) :
    Sound used (write s w) := by
  cases w with
  | addGroup g => exact soundAddGroup sound allowed (new _ rfl)
  | editGroup id f => exact soundEditGroup sound allowed
  | dropGroup id => exact soundDropGroup sound
  | addInstance i => exact soundAddInstance sound allowed (new _ rfl)
  | editInstance id f => exact soundEditInstance sound allowed
  | dropInstance id => exact soundDropInstance sound
  | start id a =>
    obtain ⟨_,_,rewired⟩ := rewiredStart sound.wired id a
    exact soundManaged sound rewired (usedInstance sound allowed)
  | pair id a =>
    obtain ⟨_,_,rewired⟩ := rewiredPair sound.wired id a
    exact soundManaged sound rewired (usedInstance sound allowed)
  | stop id => exact soundManaged sound (stopped sound.wired id) (usedInstance sound allowed)
  | keepStrategy id strategy =>
    refine soundBeside sound rfl sound.messages sound.senders (fun key unused => ?_)
    have unknown := sound.known key unused
    have apart : key ≠ id := fun same => unused (same ▸ usedGroup sound allowed)
    exact ⟨unknown.messages,unknown.entries,(Function.update_of_ne apart _ _).trans unknown.strategies,unknown.paused⟩
  | setPaused id paused =>
    refine soundBeside sound rfl sound.messages sound.senders (fun key unused => ?_)
    have unknown := sound.known key unused
    have apart : key ≠ id := fun same => unused (same ▸ usedGroup sound allowed)
    exact ⟨unknown.messages,unknown.entries,unknown.strategies,(Function.update_of_ne apart _ _).trans unknown.paused⟩
  | addMessage m => exact soundAddMessage sound allowed (new _ rfl)
  | editMessage id f => exact soundEditMessage sound allowed
  | insert rows =>
    refine soundBeside sound rfl sound.messages sound.senders (fun key unused => ?_)
    have unknown := sound.known key unused
    refine ⟨unknown.messages,fun e member => ?_,unknown.strategies,unknown.paused⟩
    rcases insertMembers member with old | ⟨row,inside,same⟩
    · exact unknown.entries e old
    · exact fun here => unused (here ▸ same ▸ usedGroup sound (allowed row inside))
  | remove groupId phone =>
    refine soundBeside sound rfl sound.messages sound.senders (fun key unused => ?_)
    have unknown := sound.known key unused
    exact ⟨unknown.messages,fun e member => unknown.entries e (List.mem_filter.mp member).1,unknown.strategies,unknown.paused⟩
  | send call =>
    refine soundBeside sound rfl sound.messages sound.senders (fun key unused => ?_)
    have unknown := sound.known key unused
    exact ⟨unknown.messages,unknown.entries,unknown.strategies,unknown.paused⟩
  | emit e =>
    have beside {t : State} (managed : t.managed = s.managed) (messages : t.messages = s.messages)
        (blacklist : t.blacklist = s.blacklist) (strategies : t.strategies = s.strategies) (paused : t.paused = s.paused) :
        Sound used t := by
      refine soundBeside sound managed (by rw [messages]; exact sound.messages) (by rw [messages]; exact sound.senders)
        (fun key unused => ?_)
      have unknown := sound.known key unused
      rw [messages,blacklist,strategies,paused]
      exact ⟨unknown.messages,unknown.entries,unknown.strategies,unknown.paused⟩
    simp only [write,emit]
    split
    · exact sound
    · split
      · exact beside rfl rfl rfl rfl rfl
      · exact sound

end Kept

end WppGateway.TenantWrites
