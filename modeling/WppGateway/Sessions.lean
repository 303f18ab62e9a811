import WppGateway.Ledgers
import WppGateway.Links

/-! The sessions of the linked devices: the store of whatsmeow, the table that says which device an instance had last,
and what becomes of the two when instances are connected, when the process starts again and when it restores them. A JID
stands for itself as a text, which ParseJID reads back. -/
namespace WppGateway.Sessions
open GoJson Domain Store Table Resources Manager Links Ledgers
open Purging (Admitted)

structure Mapping where
  instanceId : UUID
  jid : GoString
  deriving DecidableEq, Repr

/- The JID in the store of every client, and the devices that are saved. A handler of an event that has read the map has
the client that was there. -/
structure Devices where
  managed : Managed
  stores : Nat → Option GoString
  container : List GoString
  mappings : List Mapping
  reads : List (UUID × Nat)

/-! DeviceMappingRepo. -/

/- No row is an empty text. -/
def getJID (rows : List Mapping) (id : UUID) : GoString := ((rows.find? (fun m => m.instanceId == id)).map Mapping.jid).getD []

def upsert (rows : List Mapping) (known : Bool) (id : UUID) (jid : GoString) : Option (List Mapping) := do
  let jid ← varchar 100 jid
  if known = false then none
  else if rows.any (fun m => m.instanceId == id) then some (update Mapping.instanceId id (fun m => {m with jid := jid}) rows)
  else some (rows ++ [⟨id,jid⟩])

/-! The manager. -/

/- The device that getOrCreateDevice loads; without one it makes a new one. -/
def savedDevice (s : Devices) (id : UUID) (loaded : Bool) : Option GoString :=
  let jid := getJID s.mappings id
  if jid = [] then none
  else if loaded && s.container.contains jid then some jid
  else none

def adopt (s : Devices) (m : Managed) (device : Option GoString) : Devices :=
  {s with managed := m, stores := Function.update s.stores s.managed.clients.length device}

def start (s : Devices) (id : UUID) (a : Attempt) (loaded : Bool) : Devices × Except String Bool :=
  let device := savedDevice s id loaded
  let (m,result) := startInstance s.managed id {a with paired := device.isSome}
  (adopt s m device,result)

def pair (s : Devices) (id : UUID) (a : Attempt) (loaded : Bool) : Devices × Except String String :=
  let device := savedDevice s id loaded
  let (m,result) := pairPhone s.managed id {a with paired := device.isSome}
  (adopt s m device,result)

structure Restoring where
  find : Bool
  attempt : Attempt
  loaded : Bool

def restoreOne (s : Devices) (m : Mapping) (a : Restoring) : Devices × Bool :=
  match (if a.find then instanceById s.managed.rows m.instanceId else none) with
  | none => (s,false)
  | some inst =>
    if inst.status = .banned ∨ inst.status = .disconnected then (s,false)
    else match start s m.instanceId a.attempt a.loaded with
      | (t,.error _) => (t,false)
      | (t,.ok _) => (t,true)

def restoreAll (answers : UUID → Restoring) (s : Devices) : List Mapping → Devices × Nat
  | [] => (s,0)
  | m::rest =>
    let (t,restored) := restoreOne s m (answers m.instanceId)
    let (u,n) := restoreAll answers t rest
    (u,(if restored then 1 else 0) + n)

/- A client is linked to an account when it is paired, reports that it is connected, and is logged out. The process ends
and starts again. The rows change as they like, and a mapping goes with its instance. -/
inductive Event where
  | start (id : UUID) (a : Attempt) (loaded : Bool)
  | pair (id : UUID) (a : Attempt) (loaded : Bool)
  | stop (id : UUID)
  | disconnectAll
  | socket (client : Nat) (online : Bool)
  | tables (rows : Rows)
  | linked (client : Nat) (jid : GoString)
  | connected (client : Nat)
  | remember (read : Nat) (ok : Bool)
  | loggedOut (client : Nat)
  | exit
  | restore (read : List Mapping) (answers : UUID → Restoring)

def remembered (s : Devices) (id : UUID) (client : Nat) : Option (List Mapping) := do
  let jid ← s.stores client
  upsert s.mappings (instanceById s.managed.rows id).isSome id jid

def step (s : Devices) : Event → Devices
  | .start id a loaded => (start s id a loaded).1
  | .pair id a loaded => (pair s id a loaded).1
  | .stop id => {s with managed := stopInstance s.managed id}
  | .disconnectAll => {s with managed := disconnectAll s.managed}
  | .socket client online =>
    {s with managed := {s.managed with clients := s.managed.clients.modify client (fun k => {k with online := online})}}
  | .tables rows =>
    {s with
      managed := {s.managed with rows := rows}
      mappings := s.mappings.filter (fun m => rows.instances.any (fun i => i.id == m.instanceId))}
  | .linked client jid =>
    if client < s.managed.clients.length ∧ s.stores client = none then
      {s with stores := Function.update s.stores client (some jid), container := s.container ++ [jid]}
    else s
  | .connected client => match s.managed.clients[client]? with
    | none => s
    | some k => match connectionOf s.managed k.instanceId with
      | none => s
      | some c => {s with reads := s.reads ++ [(k.instanceId,c.client)]}
  | .remember read ok => match s.reads[read]? with
    | none => s
    | some (id,client) =>
      {s with
        mappings := if ok then (remembered s id client).getD s.mappings else s.mappings
        reads := s.reads.eraseIdx read}
  | .loggedOut client => match s.stores client with
    | none => s
    | some jid =>
      {s with stores := Function.update s.stores client none, container := s.container.filter (· != jid)}
  | .exit => {s with managed := ⟨s.managed.rows,[],[]⟩, stores := fun _ => none, reads := []}
  | .restore read answers => if read.Perm s.mappings then (restoreAll answers s read).1 else s

def after (s : Devices) (events : List Event) : Devices := events.foldl step s

structure Good (used : List GoString) (b : List (GoString × UUID)) (s : Devices) : Prop where
  wired : Wired s.managed
  distinct : Distinct Prod.fst b
  known : ∀ p ∈ b, p.1 ∈ used
  fits : ∀ p ∈ b, varchar 100 p.1 = some p.1
  stores : ∀ client id jid, (clientOwners s.managed)[client]? = some id → s.stores client = some jid → (jid,id) ∈ b
  mappings : ∀ m ∈ s.mappings, (m.jid,m.instanceId) ∈ b
  reads : ∀ p ∈ s.reads, (clientOwners s.managed)[p.2]? = some p.1

section Good
variable {used : List GoString} {b : List (GoString × UUID)} {s : Devices} {id : UUID} {jid : GoString}

theorem savedOwned {loaded : Bool} (good : Good used b s) (saved : savedDevice s id loaded = some jid) : (jid,id) ∈ b := by
  simp only [savedDevice] at saved
  split at saved
  · cases saved
  next some_ =>
  split at saved <;> cases saved
  rw [getJID] at some_ ⊢
  cases found : s.mappings.find? (fun m => m.instanceId == id) with
  | none => rw [found] at some_; exact absurd rfl some_
  | some m =>
    obtain ⟨member,here⟩ := findMember found
    rw [← here]
    exact good.mappings m member

theorem goodAdopt {m : Managed} {device : Option GoString} (good : Good used b s) (made : Extends s.managed id m) (wired : Wired m)
    (own : ∀ jid ∈ device, (jid,id) ∈ b) : Good used b (adopt s m device) := by
  refine ⟨wired,good.distinct,good.known,good.fits,fun client other jid owner store => ?_,good.mappings,fun p member => ?_⟩
  swap
  · exact ownerKept made.grows (good.reads p member)
  change Function.update s.stores s.managed.clients.length device client = some jid at store
  change (clientOwners m)[client]? = some other at owner
  have length : (clientOwners s.managed).length = s.managed.clients.length := List.length_map ..
  by_cases last : client = s.managed.clients.length
  · rw [last,Function.update_self] at store
    have beyond : (clientOwners s.managed)[client]? = none := List.getElem?_eq_none (by omega)
    rcases made.clients with same | more
    · rw [same,beyond] at owner
      cases owner
    · rw [more,List.getElem?_append_right (by omega),last,length,Nat.sub_self] at owner
      cases owner
      exact own jid store
  · rw [Function.update_of_ne last] at store
    refine good.stores client other jid ?_ store
    rcases made.clients with same | more
    · rwa [same] at owner
    · rw [more] at owner
      have inside : client < (clientOwners s.managed).length := by
        have within := (List.getElem?_eq_some_iff.mp owner).choose
        rw [List.length_append,List.length_singleton] at within
        omega
      rwa [List.getElem?_append_left inside] at owner

theorem goodStart (good : Good used b s) (id : UUID) (a : Attempt) (loaded : Bool) : Good used b (start s id a loaded).1 := by
  obtain ⟨_,_,rewired⟩ := rewiredStart good.wired id {a with paired := (savedDevice s id loaded).isSome}
  exact goodAdopt good (extendsStart ..) rewired.wired (fun jid saved => savedOwned good saved)

theorem goodPair (good : Good used b s) (id : UUID) (a : Attempt) (loaded : Bool) : Good used b (pair s id a loaded).1 := by
  obtain ⟨_,_,rewired⟩ := rewiredPair good.wired id {a with paired := (savedDevice s id loaded).isSome}
  exact goodAdopt good (extendsPair ..) rewired.wired (fun jid saved => savedOwned good saved)

theorem goodRestoreOne (good : Good used b s) (m : Mapping) (a : Restoring) : Good used b (restoreOne s m a).1 := by
  unfold restoreOne
  split
  · exact good
  split
  · exact good
  have started := goodStart good m.instanceId a.attempt a.loaded
  split
  · next made => rw [made] at started; exact started
  · next made => rw [made] at started; exact started

theorem goodRestore {answers : UUID → Restoring} {read : List Mapping} (good : Good used b s) :
    Good used b (restoreAll answers s read).1 := by
  induction read generalizing s with
  | nil => exact good
  | cons m rest ih => exact ih (goodRestoreOne good m (answers m.instanceId))

theorem goodManaged {m : Managed} (good : Good used b s) (wired : Wired m) (owners : clientOwners m = clientOwners s.managed) :
    Good used b {s with managed := m} :=
  ⟨wired,good.distinct,good.known,good.fits,fun client id jid owner => good.stores client id jid (owners ▸ owner),good.mappings,
    fun p member => owners ▸ good.reads p member⟩

theorem ownersDisconnectAll (m : Managed) : clientOwners (disconnectAll m) = clientOwners m := by
  have all (connections : List Connection) (clients : List Client) :
      (connections.foldl (fun clients c => disconnect clients c.client) clients).map Client.instanceId =
        clients.map Client.instanceId := by
    induction connections generalizing clients with
    | nil => rfl
    | cons c rest ih =>
      rw [List.foldl_cons,ih]
      exact ownersModify clients c.client (f := fun k => {k with live := false, online := false}) (fun _ => rfl)
  exact all m.connections m.clients

theorem connectionOwner (wired : Wired s.managed) {c : Connection} (entry : connectionOf s.managed id = some c) :
    (clientOwners s.managed)[c.client]? = some id := by
  obtain ⟨inside,here⟩ := findMember entry
  rw [clientOwners,List.getElem?_map,wired.clients c inside,here]

theorem rememberedOwned {client : Nat} {rows : List Mapping} (good : Good used b s)
    (owner : (clientOwners s.managed)[client]? = some id) (made : remembered s id client = some rows) :
    ∀ m ∈ rows, (m.jid,m.instanceId) ∈ b := by
  simp only [remembered,bind,Option.bind_eq_some_iff] at made
  obtain ⟨jid,store,made⟩ := made
  have own := good.stores client id jid owner store
  simp only [upsert,bind,Option.bind_eq_some_iff] at made
  obtain ⟨kept,fits,made⟩ := made
  cases (good.fits _ own).symm.trans fits
  split at made
  · cases made
  split at made <;> cases made
  · intro m member
    obtain ⟨old,before,rfl⟩ := memUpdate.mp member
    split
    · next same => exact same ▸ own
    · exact good.mappings old before
  · intro m member
    rcases List.mem_append.mp member with old | last
    · exact good.mappings m old
    · cases List.mem_singleton.mp last
      exact own

theorem goodLinked (good : Good used b s) (client : Nat) (new : jid ∉ used) (fits : varchar 100 jid = some jid) :
    ∃ c, b ⊆ c ∧ Good (jid::used) c (step s (.linked client jid)) := by
  have more : Good (jid::used) b s := {good with known := fun p member => List.mem_cons_of_mem _ (good.known p member)}
  by_cases free : client < s.managed.clients.length ∧ s.stores client = none
  · have owner : (clientOwners s.managed)[client]? = some (s.managed.clients[client].instanceId) := by
      rw [clientOwners,List.getElem?_map,List.getElem?_eq_getElem free.1]
      rfl
    refine ⟨(jid,s.managed.clients[client].instanceId)::b,List.subset_cons_self _ _,?_⟩
    simp only [step,if_pos free]
    refine ⟨good.wired,List.nodup_cons.mpr ⟨fun member => ?_,good.distinct⟩,fun p member => ?_,fun p member => ?_,
      fun other id jid' own store => ?_,fun m member => List.mem_cons_of_mem _ (good.mappings m member),good.reads⟩
    · obtain ⟨p,inside,same⟩ := List.mem_map.mp member
      exact new ((show p.1 = jid from same) ▸ good.known p inside)
    · rcases List.mem_cons.mp member with rfl | old
      · exact List.mem_cons_self
      · exact List.mem_cons_of_mem _ (good.known p old)
    · rcases List.mem_cons.mp member with rfl | old
      · exact fits
      · exact good.fits p old
    · change Function.update s.stores client (some jid) other = some jid' at store
      by_cases here : other = client
      · subst here
        rw [Function.update_self] at store
        cases store
        cases owner.symm.trans own
        exact List.mem_cons_self
      · rw [Function.update_of_ne here] at store
        exact List.mem_cons_of_mem _ (good.stores other id jid' own store)
  · exact ⟨b,List.Subset.refl _,by simp only [step,if_neg free]; exact more⟩

theorem goodRemember (good : Good used b s) (read : Nat) (ok : Bool) : Good used b (step s (.remember read ok)) := by
  simp only [step]
  split
  · exact good
  next id client found =>
  have owner := good.reads (id,client) (List.mem_of_getElem? found)
  refine {good with mappings := ?_, reads := fun p member => good.reads p (List.mem_of_mem_eraseIdx member)}
  cases ok with
  | false => exact good.mappings
  | true =>
    cases made : remembered s id client with
    | none => simpa [made] using good.mappings
    | some rows => simpa [made] using rememberedOwned good owner made

end Good

/- WhatsApp gives every device that it links a JID of its own, which fits its column. -/
def FreshJid (used : List GoString) : Event → Prop
  | .linked _ jid => jid ∉ used ∧ varchar 100 jid = some jid
  | _ => True

def growJid (used : List GoString) : Event → List GoString
  | .linked _ jid => jid::used
  | _ => used

section Runs
variable {used : List GoString} {b : List (GoString × UUID)} {s : Devices}

theorem goodStep (e : Event) (good : Good used b s) (fresh : FreshJid used e) :
    ∃ c, b ⊆ c ∧ Good (growJid used e) c (step s e) := by
  cases e with
  | start id a loaded => exact ⟨b,List.Subset.refl _,goodStart good id a loaded⟩
  | pair id a loaded => exact ⟨b,List.Subset.refl _,goodPair good id a loaded⟩
  | stop id =>
    refine ⟨b,List.Subset.refl _,goodManaged good (stopped good.wired id).wired ?_⟩
    unfold stopInstance
    split
    · rfl
    · exact ownersModify _ _ (f := fun k => {k with live := false, online := false}) (fun _ => rfl)
  | disconnectAll =>
    exact ⟨b,List.Subset.refl _,goodManaged good ⟨List.nodup_nil,fun _ member => (by cases member)⟩ (ownersDisconnectAll s.managed)⟩
  | socket client online =>
    exact ⟨b,List.Subset.refl _,goodManaged good (wiredModify good.wired client (fun _ => rfl)) (ownersModify _ _ (fun _ => rfl))⟩
  | tables rows =>
    exact ⟨b,List.Subset.refl _,⟨good.wired.entries,good.wired.clients⟩,good.distinct,good.known,good.fits,good.stores,
      fun m member => good.mappings m (List.mem_filter.mp member).1,good.reads⟩
  | linked client jid =>
    obtain ⟨new,fits⟩ := fresh
    exact goodLinked good client new fits
  | connected client =>
    refine ⟨b,List.Subset.refl _,?_⟩
    simp only [step]
    split
    · exact good
    split
    · exact good
    next k _ _ c entry =>
    refine {good with reads := fun p member => ?_}
    rcases List.mem_append.mp member with old | last
    · exact good.reads p old
    · cases List.mem_singleton.mp last
      exact connectionOwner good.wired entry
  | remember read ok =>
    exact ⟨b,List.Subset.refl _,goodRemember good read ok⟩
  | loggedOut client =>
    refine ⟨b,List.Subset.refl _,?_⟩
    simp only [step]
    split
    · exact good
    · refine {good with stores := fun other id jid own store => good.stores other id jid own ?_}
      change Function.update s.stores client none other = some jid at store
      by_cases here : other = client
      · subst here
        rw [Function.update_self] at store
        cases store
      · rwa [Function.update_of_ne here] at store
  | exit =>
    exact ⟨b,List.Subset.refl _,⟨List.nodup_nil,fun _ member => (by cases member)⟩,good.distinct,good.known,good.fits,
      fun client id jid owner => (by cases owner),good.mappings,fun _ member => (by cases member)⟩
  | restore read answers =>
    refine ⟨b,List.Subset.refl _,?_⟩
    simp only [step]
    split
    · exact goodRestore good
    · exact good

end Runs

def deployed (rows : Rows) : Devices := ⟨⟨rows,[],[]⟩,fun _ => none,[],[],[]⟩

def Uses (s : Devices) (id : UUID) (jid : GoString) : Prop :=
  (∃ client, (clientOwners s.managed)[client]? = some id ∧ s.stores client = some jid) ∨ ⟨id,jid⟩ ∈ s.mappings

theorem usesOwned {used : List GoString} {b : List (GoString × UUID)} {s : Devices} {id : UUID} {jid : GoString}
    (good : Good used b s) (uses : Uses s id jid) : (jid,id) ∈ b := by
  rcases uses with open_ | last
  · obtain ⟨client,owner,store⟩ := open_
    exact good.stores client id jid owner store
  · exact good.mappings _ last

theorem sessionsGrow (rows : Rows) :
    Grows FreshJid growJid (· ⊆ ·) (fun used b past => Good used b (after (deployed rows) past)) where
  refl := List.Subset.refl
  trans _ _ _ := List.Subset.trans
  step used b past e good fresh := by
    obtain ⟨c,more,kept⟩ := goodStep e good fresh
    exact ⟨c,more,by rw [after,List.foldl_append]; exact kept⟩

/-- A device that WhatsApp has linked to a client of one instance is never used for another one, whatever order instances
are started, paired, stopped, deleted and logged out in, and however often the process starts again. -/
theorem sessionsOwned {rows : Rows} {events first second : List Event} {id other : UUID} {jid : GoString}
    (admitted : Admitted FreshJid growJid [] events) (one : first <+: events) (two : second <+: events)
    (here : Uses (after (deployed rows) first) id jid) (there : Uses (after (deployed rows) second) other jid) : id = other := by
  have start : Good [] [] (after (deployed rows) []) :=
    ⟨⟨List.nodup_nil,fun _ member => (by cases member)⟩,List.nodup_nil,fun _ member => (by cases member),
      fun _ member => (by cases member),fun _ _ _ owner => (by cases owner),fun _ member => (by cases member),
      fun _ member => (by cases member)⟩
  obtain ⟨b,c,top,both⟩ := shared (sessionsGrow rows) start admitted one two
  obtain ⟨_,left⟩ := both.one
  obtain ⟨_,right⟩ := both.other
  obtain ⟨_,_,good⟩ := both.both
  have mine := both.left (usesOwned left here)
  have yours := both.right (usesOwned right there)
  exact congrArg Prod.snd (sameRow good.distinct mine yours rfl)

def sampleJid : GoString := text "5511999999999:3@s.whatsapp.net"

def sampleRows (status : InstanceStatus) : Rows := ⟨[],[⟨⟨7,1,none,status,0,200,30,0,0,1⟩,none,0⟩]⟩

def answersAll : Attempt := ⟨none,none,false,true,none,none,.ok "ABCD-1234",true⟩

def linkedOnce : List Event := [.tables (sampleRows .available),.start 7 answersAll true,.linked 0 sampleJid]

def restoredAfter : List Event :=
  linkedOnce ++ [.connected 0,.remember 0 true,.exit,.restore [⟨7,sampleJid⟩] (fun _ => ⟨true,answersAll,true⟩)]

theorem sessionsOwnedRestored : Uses (after (deployed ⟨[],[]⟩) linkedOnce) 7 sampleJid ∧
    Uses (after (deployed ⟨[],[]⟩) restoredAfter) 7 sampleJid ∧ (7 : UUID) = 7 := by
  have first : Uses (after (deployed ⟨[],[]⟩) linkedOnce) 7 sampleJid := .inl ⟨0,by decide +kernel,by decide +kernel⟩
  have second : Uses (after (deployed ⟨[],[]⟩) restoredAfter) 7 sampleJid := .inl ⟨0,by decide +kernel,by decide +kernel⟩
  have fresh : Admitted FreshJid growJid [] restoredAfter := by
    exact ⟨trivial,trivial,⟨List.not_mem_nil,by decide +kernel⟩,trivial,trivial,trivial,trivial,trivial⟩
  exact ⟨first,second,sessionsOwned fresh (List.prefix_append _ _) List.prefix_rfl first second⟩

def session (s : Devices) (id : UUID) : Option (UUID × Bool × Option GoString) :=
  (connectionOf s.managed id).map (fun c => (c.groupId,isConnected s.managed c,s.stores c.client))

def Opens (a : Attempt) : Prop := a.find = none ∧ a.mapping = none ∧ a.connect = none ∧ (a.paired = true ∨ a.channel = none)

instance (a : Attempt) : Decidable (Opens a) := by unfold Opens; infer_instance

def restorable (s : Devices) (id : UUID) (a : Restoring) : Option (UUID × Option GoString) :=
  match (if a.find then instanceById s.managed.rows id else none) with
  | none => none
  | some inst =>
    let saved := savedDevice s id a.loaded
    if inst.status ≠ .banned ∧ inst.status ≠ .disconnected ∧ Opens {a.attempt with paired := saved.isSome} then
      some (inst.groupId,saved)
    else none

section Restore
variable {s : Devices} {id other : UUID}

structure Apart (s : Devices) (id : UUID) (t : Devices) : Prop where
  sessions : ∀ other, other ≠ id → session t other = session s other
  rows : ∀ other, other ≠ id → instanceById t.managed.rows other = instanceById s.managed.rows other
  mappings : t.mappings = s.mappings
  container : t.container = s.container
  wired : Wired t.managed

theorem restorableApart {t : Devices} (apart : Apart s id t) (different : other ≠ id) (a : Restoring) :
    restorable t other a = restorable s other a := by
  unfold restorable savedDevice
  rw [apart.rows other different,apart.mappings,apart.container]

theorem connectionApart {m n : Managed} {status : Option InstanceStatus} {entry : Option (UUID × Bool)}
    (wired : Wired m) (made : Rewired m id status entry n) (different : other ≠ id) :
    connectionOf n other = connectionOf m other := by
  have links := made.links other
  rw [if_neg different,link,link] at links
  cases there : connectionOf n other with
  | none =>
    rw [there,Option.map_none] at links
    exact (Option.map_eq_none_iff.mp links.symm).symm
  | some c =>
    obtain ⟨member,here⟩ := findMember there
    rcases made.kept c member with own | old
    · exact absurd (here.symm.trans own) different
    · rw [connectionOf,← here,findKey wired.entries old]

theorem adoptApart {m : Managed} {status : Option InstanceStatus} {entry : Option (UUID × Bool)} (wired : Wired s.managed)
    (made : Rewired s.managed id status entry m) (device : Option GoString) : Apart s id (adopt s m device) := by
  refine ⟨fun other different => ?_,fun other different => ?_,rfl,rfl,made.wired⟩
  · have same := connectionApart wired made different
    have links := made.links other
    rw [if_neg different,link,link,same] at links
    simp only [session,adopt,same]
    cases there : connectionOf s.managed other with
    | none => rfl
    | some c =>
      rw [there,Option.map_some,Option.map_some,Option.some.injEq,Prod.mk.injEq] at links
      have inside : c.client < s.managed.clients.length := by
        have own := wired.clients c (findMember there).1
        obtain ⟨k,at_,_⟩ := Option.map_eq_some_iff.mp own
        exact (List.getElem?_eq_some_iff.mp at_).choose
      rw [Option.map_some,Option.map_some,links.2,Function.update_of_ne (Nat.ne_of_lt inside)]
  · rw [adopt,instanceById,made.rows]
    exact findUpdateOther _ (fun _ => rfl) different

theorem deviceOk (m : Managed) (id : UUID) (a : Attempt) :
    (Manager.device m id a).toOption = if a.find = none ∧ a.mapping = none then instanceById m.rows id else none := by
  unfold Manager.device
  cases a.find with
  | some error => simp [Except.toOption]
  | none =>
    cases instanceById m.rows id with
    | none => simp [Except.toOption]
    | some inst => cases a.mapping <;> simp [Except.toOption]

theorem connectOk (a : Attempt) : (connect a).toBool = true ↔ a.connect = none ∧ (a.paired = true ∨ a.channel = none) := by
  unfold connect
  cases a.paired <;> cases a.channel <;> cases a.connect <;> simp [Except.toBool]

structure Started (m : Managed) (id : UUID) (inst : InstanceRow) (result : Managed × Except String Bool) : Prop where
  entry : connectionOf result.1 id = some ⟨id,inst.groupId,m.clients.length⟩
  connected : isConnected result.1 ⟨id,inst.groupId,m.clients.length⟩ = true
  result : result.2.toBool = true

theorem startOpens {m : Managed} {inst : InstanceRow} {a : Attempt} (free : connectionOf m id = none)
    (row : instanceById m.rows id = some inst) (opens : Opens a) : Started m id inst (startInstance m id a) := by
  obtain ⟨find,mapping,connects⟩ := opens
  have device := deviceOk m id a
  have answered := connectOk a
  rw [if_pos ⟨find,mapping⟩,row] at device
  unfold startInstance
  rw [free]
  cases found : Manager.device m id a with
  | error error => rw [found] at device; cases device
  | ok same =>
    rw [found] at device
    cases device
    cases made : connect a with
    | error error =>
      have opened := answered.mpr connects
      rw [made] at opened
      cases opened
    | ok needsQR => exact ⟨by simp,by simp [isConnected,goLive],rfl⟩

theorem startFails {m : Managed} {a : Attempt} (free : connectionOf m id = none)
    (fails : ¬ (Opens a ∧ (instanceById m.rows id).isSome = true)) :
    connectionOf (startInstance m id a).1 id = none ∧ (startInstance m id a).2.toBool = false := by
  have device := deviceOk m id a
  have answered := connectOk a
  unfold startInstance
  rw [free]
  cases found : Manager.device m id a with
  | error error => exact ⟨free,rfl⟩
  | ok inst =>
    rw [found] at device
    cases made : connect a with
    | error error => exact ⟨by simp,rfl⟩
    | ok needsQR =>
      have connects := answered.mp (by rw [made]; rfl)
      split at device
      · next queries => exact absurd ⟨⟨queries.1,queries.2,connects⟩,by rw [← device]; rfl⟩ fails
      · cases device

theorem startedApart (wired : Wired s.managed) (id : UUID) (a : Attempt) (loaded : Bool) : Apart s id (start s id a loaded).1 := by
  obtain ⟨_,_,made⟩ := rewiredStart wired id {a with paired := (savedDevice s id loaded).isSome}
  exact adoptApart wired made (savedDevice s id loaded)

theorem restoreStarts {m : Mapping} {a : Restoring} {inst : InstanceRow}
    (found : (if a.find then instanceById s.managed.rows m.instanceId else none) = some inst)
    (status : ¬ (inst.status = .banned ∨ inst.status = .disconnected)) :
    restoreOne s m a = ((start s m.instanceId a.attempt a.loaded).1,(start s m.instanceId a.attempt a.loaded).2.toBool) := by
  simp only [restoreOne,found,if_neg status]
  split
  · next made => rw [made]; rfl
  · next made => rw [made]; rfl

theorem restoredOne {m : Mapping} (wired : Wired s.managed) (free : connectionOf s.managed m.instanceId = none) (a : Restoring) :
    Apart s m.instanceId (restoreOne s m a).1 ∧
      session (restoreOne s m a).1 m.instanceId = (restorable s m.instanceId a).map (fun e => (e.1,true,e.2)) ∧
      (restoreOne s m a).2 = (restorable s m.instanceId a).isSome := by
  have still : Apart s m.instanceId s := ⟨fun _ _ => rfl,fun _ _ => rfl,rfl,rfl,wired⟩
  have gone : session s m.instanceId = none := by rw [session,free]; rfl
  cases found : (if a.find then instanceById s.managed.rows m.instanceId else none) with
  | none =>
    simp only [restoreOne,restorable,found]
    exact ⟨still,gone,rfl⟩
  | some inst =>
    have row : instanceById s.managed.rows m.instanceId = some inst := by
      split at found
      · exact found
      · cases found
    by_cases status : inst.status = .banned ∨ inst.status = .disconnected
    · have not : restorable s m.instanceId a = none := by
        simp only [restorable,found]
        exact if_neg (fun all => status.elim all.1 all.2.1)
      simp only [restoreOne,found,if_pos status,not]
      exact ⟨still,gone,rfl⟩
    have fine := not_or.mp status
    rw [restoreStarts found status]
    refine ⟨startedApart wired m.instanceId a.attempt a.loaded,?_⟩
    by_cases opens : Opens {a.attempt with paired := (savedDevice s m.instanceId a.loaded).isSome}
    · have back : restorable s m.instanceId a = some (inst.groupId,savedDevice s m.instanceId a.loaded) := by
        simp only [restorable,found]
        exact if_pos ⟨fine.1,fine.2,opens⟩
      have made := startOpens free row opens
      rw [back]
      exact ⟨by simp [session,start,adopt,made.entry,made.connected],made.result⟩
    · have not : restorable s m.instanceId a = none := by
        simp only [restorable,found]
        exact if_neg (fun all => opens all.2.2)
      obtain ⟨entry,result⟩ := startFails free (fun all => opens all.1)
      rw [not]
      exact ⟨by simp [session,start,adopt,entry],result⟩

theorem restoredEach (answers : UUID → Restoring) {read : List Mapping} (wired : Wired s.managed)
    (keys : Distinct Mapping.instanceId read) (free : ∀ m ∈ read, connectionOf s.managed m.instanceId = none) :
    (∀ id, session (restoreAll answers s read).1 id =
      if id ∈ read.map Mapping.instanceId then (restorable s id (answers id)).map (fun e => (e.1,true,e.2)) else session s id) ∧
      (restoreAll answers s read).2 =
        read.countP (fun m => (restorable s m.instanceId (answers m.instanceId)).isSome) := by
  induction read generalizing s with
  | nil => exact ⟨fun _ => rfl,rfl⟩
  | cons m rest ih =>
    obtain ⟨apart,own,counted⟩ := restoredOne wired (free m List.mem_cons_self) (answers m.instanceId)
    obtain ⟨new,tail⟩ := List.nodup_cons.mp keys
    have other : ∀ k ∈ rest, k.instanceId ≠ m.instanceId := fun k member same => new (same ▸ List.mem_map_of_mem member)
    have later : ∀ k ∈ rest, connectionOf (restoreOne s m (answers m.instanceId)).1.managed k.instanceId = none := by
      intro k member
      have same := apart.sessions k.instanceId (other k member)
      rw [session,session,free k (List.mem_cons_of_mem _ member)] at same
      exact Option.map_eq_none_iff.mp same
    obtain ⟨sessions,count⟩ := ih apart.wired tail later
    refine ⟨fun id => ?_,?_⟩
    · rw [restoreAll,sessions id,List.map_cons]
      by_cases here : id = m.instanceId
      · rw [here,if_neg new,own,if_pos List.mem_cons_self]
      · rw [restorableApart apart here,apart.sessions id here]
        simp only [List.mem_cons,here,false_or]
    · change (if (restoreOne s m (answers m.instanceId)).2 = true then 1 else 0) +
        (restoreAll answers (restoreOne s m (answers m.instanceId)).1 rest).2 = _
      rw [List.countP_cons,counted,Nat.add_comm,count]
      congr 1
      exact List.countP_congr (fun k member => by rw [restorableApart apart (other k member)])

end Restore

/-- A process that has just started and restores its instances has a connected client for every mapped instance whose row
is neither banned nor disconnected and for which nothing fails, with the group of the row and the device that the mapping
names if it can be loaded, and no other connection; it counts these instances, also those that have got a new device. -/
theorem restoreExact {s : Devices} {answers : UUID → Restoring} {read : List Mapping} (started : s.managed.connections = [])
    (keys : Distinct Mapping.instanceId s.mappings) (perm : read.Perm s.mappings) :
    (∀ id, session (restoreAll answers s read).1 id =
      if id ∈ s.mappings.map Mapping.instanceId then (restorable s id (answers id)).map (fun e => (e.1,true,e.2)) else none) ∧
      (restoreAll answers s read).2 =
        s.mappings.countP (fun m => (restorable s m.instanceId (answers m.instanceId)).isSome) := by
  have free (id : UUID) : connectionOf s.managed id = none := by rw [connectionOf,started]; rfl
  have wired : Wired s.managed := ⟨by rw [started]; exact List.nodup_nil,fun c member => (by rw [started] at member; cases member)⟩
  have distinct : Distinct Mapping.instanceId read := (perm.map Mapping.instanceId).nodup_iff.mpr keys
  obtain ⟨sessions,count⟩ := restoredEach answers wired distinct (fun m _ => free m.instanceId)
  refine ⟨fun id => ?_,count.trans (perm.countP_eq _)⟩
  rw [sessions id,session,free]
  simp only [(perm.map Mapping.instanceId).mem_iff]
  rfl

def sampleMapped : Devices := ⟨⟨sampleRows .available,[],[]⟩,fun _ => none,[sampleJid],[⟨7,sampleJid⟩],[]⟩

theorem restoreExactOne :
    session (restoreAll (fun _ => ⟨true,answersAll,true⟩) sampleMapped sampleMapped.mappings).1 7 =
      some (1,true,some sampleJid) ∧
      (restoreAll (fun _ => ⟨true,answersAll,true⟩) sampleMapped sampleMapped.mappings).2 = 1 := by
  have keys : Distinct Mapping.instanceId sampleMapped.mappings := by decide +kernel
  obtain ⟨sessions,count⟩ := restoreExact rfl keys (List.Perm.refl _)
  exact ⟨(sessions 7).trans (by decide +kernel),count.trans (by decide +kernel)⟩

end WppGateway.Sessions
