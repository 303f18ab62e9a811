import WppGateway.ApiIsolation
import WppGateway.Ledgers
import WppGateway.Lifecycle

/-! What WhatsApp reports while the API is called, a statement at a time: what becomes of the rows, and to whose
webhook it goes. The statements of one report run between those of others and between the calls. -/
namespace WppGateway.InstanceEvents
open GoJson Domain Table Resources Manager Links Service Accounts TenantView TenantWrites HandlerWrites ApiIsolation
open Ledgers
open Purging (Admitted)

structure MessageInfo where
  id : GoString
  sender : GoString
  chat : GoString
  type : GoString
  timestamp : Int
  isGroup : Bool
  deriving DecidableEq, Repr

inductive ClientEvent where
  | connected (user : Option GoString)
  | disconnected
  | loggedOut
  | message (info : MessageInfo)
  | receipt (ids : List GoString) (read : Bool) (sender : GoString) (timestamp : Int)
  deriving DecidableEq, Repr

inductive Data where
  | instance_ (id : UUID)
  | banned (id : UUID) (reason : String)
  | message (info : MessageInfo)
  | receipt (ids : List GoString) (sender : GoString) (timestamp : Int)
  deriving DecidableEq, Repr

/- A call of Emit with a URL. Whether the channel takes it is the emitter's. -/
structure Emission where
  url : GoString
  secret : GoString
  name : String
  groupId : UUID
  instanceId : UUID
  phone : GoString
  timestamp : String
  data : Data
  deriving DecidableEq, Repr

def statusOf : ClientEvent → Option InstanceStatus
  | .connected _ => some (Lifecycle.eventStatus .connected)
  | .disconnected => some (Lifecycle.eventStatus .disconnected)
  | .loggedOut => some (Lifecycle.eventStatus .loggedOut)
  | _ => none

def eventName : ClientEvent → String
  | .connected _ => "instance.connected"
  | .disconnected => "instance.disconnected"
  | .loggedOut => "instance.banned"
  | .message _ => "message.received"
  | .receipt _ read _ _ => if read then "message.read" else "message.delivered"

def dataOf (id : UUID) : ClientEvent → Data
  | .connected _ => .instance_ id
  | .disconnected => .instance_ id
  | .loggedOut => .banned id "logged_out"
  | .message info => .message info
  | .receipt ids _ sender timestamp => .receipt ids sender timestamp

/- The statements of emitWebhook: it reads the map, and then the group of the connection that it has read. -/
inductive Job where
  | emit (id : UUID) (e : ClientEvent)
  | find (c : Connection) (e : ClientEvent)
  | done
  deriving DecidableEq, Repr

/- The phones are those of the connections, one to every client. -/
structure Desk where
  server : Server
  phones : Nat → GoString
  jobs : List Job
  handed : List Emission

def managed (d : Desk) : Managed := d.server.state.managed
def withState (d : Desk) (s : State) : Desk := {d with server := {d.server with state := s}}

inductive Step where
  | call (c : Call)
  | socket (client : Nat) (online : Bool)
  | event (client : Nat) (e : ClientEvent) (status phone : Bool)
  | lookup (job : Nat)
  | hand (job : Nat) (found : Bool) (timestamp : String)

def noted (phones : Nat → GoString) (client : Nat) : ClientEvent → Nat → GoString
  | .connected (some user) => Function.update phones client user
  | _ => phones

def marked (m : Managed) (phones : Nat → GoString) (id : UUID) (e : ClientEvent) (status phone : Bool) : Rows :=
  let rows := match statusOf e with
    | some new => if status then setStatus m.rows id new else m.rows
    | none => m.rows
  match e with
  | .connected _ => match connectionOf m id with
    | some c => if phones c.client ≠ [] ∧ phone then Lifecycle.setPhone rows id (phones c.client) else rows
    | none => rows
  | _ => rows

def emission (d : Desk) (c : Connection) (e : ClientEvent) (found : Bool) (timestamp : String) : Option Emission := do
  let g ← (if found then groupById (managed d).rows c.groupId else none)
  let url ← g.webhookUrl
  let secret ← g.webhookSecret
  if url = [] then none
  else some ⟨url,secret,eventName e,c.groupId,c.id,d.phones c.client,timestamp,dataOf c.id e⟩

/- A client that was never made has no events, and a job that does not exist or is elsewhere does nothing. -/
def step (d : Desk) : Step → Desk
  | .call c => {d with server := (serve d.server c).1}
  | .socket client online =>
    let clients := (managed d).clients.modify client (fun k => {k with online := online})
    withState d (manage d.server.state {managed d with clients := clients})
  | .event client e status phone => match (managed d).clients[client]? with
    | none => d
    | some k =>
      let phones := noted d.phones client e
      let rows := marked (managed d) phones k.instanceId e status phone
      {withState d (writeRows d.server.state rows) with phones := phones, jobs := d.jobs ++ [.emit k.instanceId e]}
  | .lookup job => match d.jobs[job]? with
    | some (.emit id e) =>
      {d with jobs := d.jobs.set job (match connectionOf (managed d) id with
        | none => .done
        | some c => .find c e)}
    | _ => d
  | .hand job found timestamp => match d.jobs[job]? with
    | some (.find c e) => {d with jobs := d.jobs.set job .done, handed := d.handed ++ (emission d c e found timestamp).toList}
    | _ => d

def after (d : Desk) (steps : List Step) : Desk := steps.foldl step d

def newId : Step → Option UUID
  | .call c => some (idOf c)
  | _ => none

/-! The books: the group that every instance was ever in, and the tenant of every group. -/

structure Books where
  instances : List (UUID × UUID)
  groups : List (UUID × UUID)

structure Grown (b c : Books) : Prop where
  instances : b.instances ⊆ c.instances
  groups : b.groups ⊆ c.groups

structure Bound (used : List UUID) (b : Books) : Prop where
  instances : Distinct Prod.fst b.instances
  groups : Distinct Prod.fst b.groups
  known : ∀ p ∈ b.instances, p.1 ∈ used
  owned : ∀ p ∈ b.groups, p.1 ∈ used

structure Kept (b : Books) (s : State) : Prop where
  rows : ∀ i ∈ s.managed.rows.instances, (i.id,i.groupId) ∈ b.instances
  groups : ∀ g ∈ s.managed.rows.groups, (g.id,g.tenantId) ∈ b.groups
  connections : ∀ c ∈ s.managed.connections, (c.id,c.groupId) ∈ b.instances

def enter (b : Books) : Write → Books
  | .addInstance i => {b with instances := (i.id,i.groupId)::b.instances}
  | .addGroup g => {b with groups := (g.id,g.tenantId)::b.groups}
  | _ => b

def New (b : Books) (key : UUID) : Prop := (∀ p ∈ b.instances, p.1 ≠ key) ∧ ∀ p ∈ b.groups, p.1 ≠ key

section Writes
variable {tenant id : UUID} {new : Option UUID} {used : List UUID} {b c : Books} {s : State} {m : Managed}

theorem grownRefl (b : Books) : Grown b b := ⟨List.Subset.refl _,List.Subset.refl _⟩

theorem grownTrans {d : Books} (first : Grown b c) (later : Grown c d) : Grown b d :=
  ⟨List.Subset.trans first.instances later.instances,List.Subset.trans first.groups later.groups⟩

theorem grownEnter (b : Books) (w : Write) : Grown b (enter b w) := by
  cases w with
  | addInstance i => exact ⟨List.subset_cons_self _ _,List.Subset.refl _⟩
  | addGroup g => exact ⟨List.Subset.refl _,List.subset_cons_self _ _⟩
  | _ => exact grownRefl b

theorem boundEnter {w : Write} (bound : Bound used b) (fresh : ∀ key ∈ added w, New b key ∧ key ∈ used) :
    Bound used (enter b w) := by
  cases w with
  | addInstance i =>
    obtain ⟨unknown,inside⟩ := fresh i.id rfl
    refine ⟨List.nodup_cons.mpr ⟨fun member => ?_,bound.instances⟩,bound.groups,fun p member => ?_,bound.owned⟩
    · obtain ⟨p,there,same⟩ := List.mem_map.mp member
      exact unknown.1 p there same
    · rcases List.mem_cons.mp member with rfl | old
      · exact inside
      · exact bound.known p old
  | addGroup g =>
    obtain ⟨unknown,inside⟩ := fresh g.id rfl
    refine ⟨bound.instances,List.nodup_cons.mpr ⟨fun member => ?_,bound.groups⟩,bound.known,fun p member => ?_⟩
    · obtain ⟨p,there,same⟩ := List.mem_map.mp member
      exact unknown.2 p there same
    · rcases List.mem_cons.mp member with rfl | old
      · exact inside
      · exact bound.owned p old
  | _ => exact bound

theorem keptGrown (kept : Kept b s) (grown : Grown b c) : Kept c s :=
  ⟨fun i member => grown.instances (kept.rows i member),fun g member => grown.groups (kept.groups g member),
    fun k member => grown.instances (kept.connections k member)⟩

theorem keptManage {n : Managed} {status : Option InstanceStatus} {entry : Option (UUID × Bool)} (kept : Kept b s)
    (made : Extends s.managed id n) (rewired : Rewired s.managed id status entry n) : Kept b (manage s n) := by
  refine ⟨fun i member => ?_,fun g member => kept.groups g ?_,fun k member => ?_⟩
  · change i ∈ n.rows.instances at member
    rw [rewired.rows] at member
    obtain ⟨old,inside,rfl⟩ := memUpdate.mp member
    have same := kept.rows old inside
    split <;> exact same
  · change g ∈ n.rows.groups at member
    rw [rewired.rows] at member
    exact member
  · rcases made.connections k member with old | ⟨i,inside,same,group⟩
    · exact kept.connections k old
    · rw [same,group]
      exact kept.rows i inside

theorem keptRows {r : Rows} (kept : Kept b s)
    (rows : ∀ i ∈ r.instances, ∃ old ∈ s.managed.rows.instances, i.id = old.id ∧ i.groupId = old.groupId)
    (groups : ∀ g ∈ r.groups, ∃ old ∈ s.managed.rows.groups, g.id = old.id ∧ g.tenantId = old.tenantId) :
    Kept b (writeRows s r) := by
  refine ⟨fun i member => ?_,fun g member => ?_,kept.connections⟩
  · obtain ⟨old,inside,same,group⟩ := rows i member
    rw [same,group]
    exact kept.rows old inside
  · obtain ⟨old,inside,same,owner⟩ := groups g member
    rw [same,owner]
    exact kept.groups old inside

theorem rowsEdited {f : InstanceRow → InstanceRow} (kept : ∀ i : InstanceRow, (f i).id = i.id ∧ (f i).groupId = i.groupId)
    {rows : List InstanceRow} {i : InstanceRow} (member : i ∈ update (fun i : InstanceRow => i.id) id f rows) :
    ∃ old ∈ rows, i.id = old.id ∧ i.groupId = old.groupId := by
  obtain ⟨old,inside,rfl⟩ := memUpdate.mp member
  refine ⟨old,inside,?_⟩
  split
  · exact kept old
  · exact ⟨rfl,rfl⟩

theorem keptWrite {w : Write} (sound : Sound used s) (kept : Kept b s) (allowed : Allowed tenant s w) :
    Kept (enter b w) (write s w) := by
  have grown := keptGrown kept (grownEnter b w)
  cases w with
  | addGroup g =>
    refine ⟨grown.rows,fun h member => ?_,grown.connections⟩
    rcases List.mem_append.mp member with old | last
    · exact grown.groups h old
    · cases List.mem_singleton.mp last
      exact List.mem_cons_self
  | editGroup key f =>
    refine keptRows kept (fun i member => ⟨i,member,rfl,rfl⟩) (fun g member => ?_)
    obtain ⟨old,inside,rfl⟩ := memUpdate.mp member
    refine ⟨old,inside,?_⟩
    split
    · exact allowed.2 old
    · exact ⟨rfl,rfl⟩
  | dropGroup key =>
    have left := keptRows (r := deleteGroup s.managed.rows key) kept
      (fun i member => ⟨i,(List.mem_filter.mp member).1,rfl,rfl⟩) (fun g member => ⟨g,(List.mem_filter.mp member).1,rfl,rfl⟩)
    exact ⟨left.rows,left.groups,left.connections⟩
  | addInstance i =>
    refine ⟨fun j member => ?_,grown.groups,grown.connections⟩
    rcases List.mem_append.mp member with old | last
    · exact grown.rows j old
    · cases List.mem_singleton.mp last
      exact List.mem_cons_self
  | editInstance key f =>
    exact keptRows kept (fun i member => rowsEdited allowed.2 member) (fun g member => ⟨g,member,rfl,rfl⟩)
  | dropInstance key =>
    have left := keptRows (r := deleteInstance s.managed.rows key) kept
      (fun i member => ⟨i,(List.mem_filter.mp member).1,rfl,rfl⟩) (fun g member => ⟨g,member,rfl,rfl⟩)
    exact ⟨left.rows,left.groups,left.connections⟩
  | start key a =>
    obtain ⟨_,_,rewired⟩ := rewiredStart sound.wired key a
    exact keptManage kept (extendsStart s.managed key a) rewired
  | pair key a =>
    obtain ⟨_,_,rewired⟩ := rewiredPair sound.wired key a
    exact keptManage kept (extendsPair s.managed key a) rewired
  | stop key => exact keptManage kept (extendsStop s.managed key) (stopped sound.wired key)
  | emit e =>
    simp only [write,emit]
    split
    · exact kept
    · split
      · exact ⟨kept.rows,kept.groups,kept.connections⟩
      · exact kept
  | keepStrategy | setPaused | addMessage | editMessage | insert | remove | send =>
    exact ⟨kept.rows,kept.groups,kept.connections⟩

def owners (s : State) : List UUID := clientOwners s.managed

theorem ownersWrite (s : State) (w : Write) : owners s <+: owners (write s w) := by
  cases w with
  | start key a => exact (extendsStart s.managed key a).grows
  | pair key a => exact (extendsPair s.managed key a).grows
  | stop key => exact (extendsStop s.managed key).grows
  | emit e =>
    simp only [write,emit]
    split
    · exact List.prefix_rfl
    · split <;> exact List.prefix_rfl
  | _ => exact List.prefix_rfl

theorem keptWrites {ws : List Write} (sound : Sound used s) (kept : Kept b s) (bound : Bound used b)
    (known : ∀ key ∈ new, key ∈ used) (fresh : ∀ key ∈ new, New b key) (does : Does tenant new s ws) :
    ∃ c, Grown b c ∧ Bound used c ∧ Kept c (writes s ws) ∧ owners s <+: owners (writes s ws) := by
  induction ws generalizing s new b with
  | nil => exact ⟨b,grownRefl b,bound,kept,List.prefix_rfl⟩
  | cons w rest ih =>
    obtain ⟨allowed,adds,later⟩ := does
    have next := soundWrite sound allowed (fun key is => known key (adds key is))
    have entered := boundEnter bound (fun key is => ⟨fresh key (adds key is),known key (adds key is)⟩)
    have unused : ∀ key ∈ unspent new w, New (enter b w) key := by
      intro key left
      have old := leftOf w fresh key left
      cases w with
      | addInstance | addGroup => cases left
      | _ => exact old
    obtain ⟨c,grown,last,whole,grows⟩ := ih next (keptWrite sound kept allowed) entered (leftOf w known) unused later
    exact ⟨c,grownTrans (grownEnter b w) grown,last,whole,(ownersWrite s w).trans grows⟩

end Writes

def owner (d : Desk) (client : Nat) : Option UUID := (owners d.server.state)[client]?

/- The phone is none, or the client had it from an event of its own. -/
def Told (past : List Step) (client : Nat) (phone : GoString) : Prop :=
  phone = [] ∨ ∃ status updated, Step.event client (.connected (some phone)) status updated ∈ past

structure Handed (d : Desk) (past : List Step) (b : Books) (x : Emission) : Prop where
  entry : (x.instanceId,x.groupId) ∈ b.instances
  phone : ∃ client, owner (after d past) client = some x.instanceId ∧ Told past client x.phone
  webhook : ∃ earlier, earlier <+: past ∧ ∃ g ∈ (managed (after d earlier)).rows.groups, g.id = x.groupId ∧
    g.webhookUrl = some x.url ∧ g.webhookSecret = some x.secret ∧ (g.id,g.tenantId) ∈ b.groups

structure Settled (d : Desk) (used : List UUID) (b : Books) (past : List Step) : Prop where
  sound : Sound used (after d past).server.state
  bound : Bound used b
  kept : Kept b (after d past).server.state
  phones : ∀ client, Told past client ((after d past).phones client)
  jobs : ∀ c e, Job.find c e ∈ (after d past).jobs → (c.id,c.groupId) ∈ b.instances ∧ owner (after d past) c.client = some c.id
  handed : ∀ x ∈ (after d past).handed, Handed d past b x

structure Idle (d : Desk) : Prop where
  connections : (managed d).connections = []
  phones : ∀ client, d.phones client = []
  jobs : d.jobs = []
  handed : d.handed = []

def FreshStep (used : List UUID) (e : Step) : Prop := ∀ id ∈ newId e, id ∉ used
def growStep (used : List UUID) (e : Step) : List UUID := (newId e).toList ++ used

section Runs
variable {d : Desk} {used : List UUID} {b : Books} {past : List Step} {x : Emission}

theorem afterLast (d : Desk) (past : List Step) (e : Step) : after d (past ++ [e]) = step (after d past) e :=
  List.foldl_append ..

theorem toldMore {client : Nat} {phone : GoString} (told : Told past client phone) (e : Step) :
    Told (past ++ [e]) client phone := by
  rcases told with none_ | ⟨status,updated,member⟩
  · exact .inl none_
  · exact .inr ⟨status,updated,List.mem_append_left _ member⟩

theorem handedMore {c : Books} {e : Step} (handed : Handed d past b x) (grown : Grown b c)
    (grows : owners (after d past).server.state <+: owners (after d (past ++ [e])).server.state) :
    Handed d (past ++ [e]) c x := by
  obtain ⟨client,own,told⟩ := handed.phone
  obtain ⟨earlier,before,g,member,here,url,secret,entry⟩ := handed.webhook
  exact ⟨grown.instances handed.entry,⟨client,ownerKept grows own,toldMore told e⟩,
    ⟨earlier,before.trans (List.prefix_append _ _),g,member,here,url,secret,grown.groups entry⟩⟩

theorem settledQuiet {c : Books} {e : Step} {later : List UUID} (settled : Settled d used b past) (grown : Grown b c)
    (sound : Sound later (after d (past ++ [e])).server.state) (bound : Bound later c)
    (kept : Kept c (after d (past ++ [e])).server.state)
    (grows : owners (after d past).server.state <+: owners (after d (past ++ [e])).server.state)
    (phones : ∀ client, Told (past ++ [e]) client ((after d (past ++ [e])).phones client))
    (jobs : ∀ k f, Job.find k f ∈ (after d (past ++ [e])).jobs → Job.find k f ∈ (after d past).jobs)
    (handed : (after d (past ++ [e])).handed = (after d past).handed) : Settled d later c (past ++ [e]) := by
  refine ⟨sound,bound,kept,phones,fun k f member => ?_,fun x member => handedMore (settled.handed x (handed ▸ member)) grown grows⟩
  obtain ⟨entry,own⟩ := settled.jobs k f (jobs k f member)
  exact ⟨grown.instances entry,ownerKept grows own⟩

def Edited (id : UUID) (r u : Rows) : Prop :=
  ∃ f : InstanceRow → InstanceRow, (∀ i : InstanceRow, (f i).id = i.id ∧ (f i).groupId = i.groupId) ∧
    u = {r with instances := update (fun i : InstanceRow => i.id) id f r.instances}

theorem editedRefl (id : UUID) (r : Rows) : Edited id r r :=
  ⟨touched none,fun _ => ⟨rfl,rfl⟩,by rw [untouched]⟩

theorem editedTrans {id : UUID} {r u v : Rows} (first : Edited id r u) (later : Edited id u v) : Edited id r v := by
  obtain ⟨f,keeps,rfl⟩ := first
  obtain ⟨g,also,rfl⟩ := later
  refine ⟨fun i => g (f i),fun i => ⟨(also _).1.trans (keeps i).1,(also _).2.trans (keeps i).2⟩,?_⟩
  simp only [Table.update,List.map_map]
  congr 1
  refine List.map_congr_left (fun i _ => ?_)
  by_cases here : i.id = id
  · simp [here,(keeps i).1]
  · simp [here]

theorem editedStatus (r : Rows) (id : UUID) (status : InstanceStatus) : Edited id r (setStatus r id status) :=
  ⟨fun i => {i with status := status},fun _ => ⟨rfl,rfl⟩,rfl⟩

theorem editedPhone (r : Rows) (id : UUID) (phone : GoString) : Edited id r (Lifecycle.setPhone r id phone) := by
  unfold Lifecycle.setPhone
  split
  · exact editedRefl id r
  · next phone _ => exact ⟨fun i => {i with phoneNumber := some phone},fun _ => ⟨rfl,rfl⟩,rfl⟩

theorem editedMarked (m : Managed) (phones : Nat → GoString) (id : UUID) (e : ClientEvent) (status phone : Bool) :
    Edited id m.rows (marked m phones id e status phone) := by
  have first : Edited id m.rows (match statusOf e with
      | some new => if status then setStatus m.rows id new else m.rows
      | none => m.rows) := by
    split
    · split
      · exact editedStatus ..
      · exact editedRefl ..
    · exact editedRefl ..
  unfold marked
  dsimp only
  split
  · split
    · split
      · exact editedTrans first (editedPhone ..)
      · exact first
    · exact first
  · exact first

theorem soundEdited {s : State} {id : UUID} {f : InstanceRow → InstanceRow} (sound : Sound used s)
    (kept : ∀ i : InstanceRow, (f i).id = i.id ∧ (f i).groupId = i.groupId) :
    Sound used (write s (.editInstance id f)) := by
  by_cases inside : ∃ i ∈ s.managed.rows.instances, i.id = id
  · obtain ⟨i,member,here⟩ := inside
    obtain ⟨g,there,same⟩ := sound.references i member
    have allowed : Allowed g.tenantId s (.editInstance id f) :=
      ⟨ownsInstanceIff.mpr ⟨i,member,ownsIff.mpr ⟨g,there,rfl,same⟩,here⟩,kept⟩
    exact soundWrite sound allowed (fun _ is => (by cases is))
  · have same : update (fun i : InstanceRow => i.id) id f s.managed.rows.instances = s.managed.rows.instances :=
      updateAbsent (fun i member here => inside ⟨i,member,here⟩)
    simp only [write,writeRows,same]
    exact sound

theorem settledNothing {e : Step} (settled : Settled d used b past) (same : after d (past ++ [e]) = after d past) :
    Settled d used b (past ++ [e]) := by
  refine settledQuiet settled (grownRefl b) (same ▸ settled.sound) settled.bound (same ▸ settled.kept)
    (same ▸ List.prefix_rfl) ?_ ?_ ?_ <;> rw [same]
  · exact fun client => toldMore (settled.phones client) e
  · exact fun _ _ member => member

theorem settledCall {call : Call} (settled : Settled d used b past) (fresh : idOf call ∉ used) :
    ∃ c, Grown b c ∧ Settled d (idOf call::used) c (past ++ [.call call]) := by
  obtain ⟨tenant,ws,made,does⟩ := serveDoes settled.sound fresh
  have more := soundMore settled.sound (idOf call)
  have unused : ∀ key ∈ some (idOf call), New b key := by
    intro key is
    cases is
    exact ⟨fun p member same => fresh (same ▸ settled.bound.known p member),
      fun p member same => fresh (same ▸ settled.bound.owned p member)⟩
  have bound : Bound (idOf call::used) b := {settled.bound with
    known := fun p member => List.mem_cons_of_mem _ (settled.bound.known p member)
    owned := fun p member => List.mem_cons_of_mem _ (settled.bound.owned p member)}
  obtain ⟨c,grown,entered,kept,grows⟩ := keptWrites more settled.kept bound (newKnown _ _) unused does
  refine ⟨c,grown,settledQuiet settled grown ?_ entered ?_ ?_ ?_ ?_ ?_⟩ <;> simp only [afterLast,step,made]
  · exact soundWrites more (newKnown _ _) does
  · exact kept
  · exact grows
  · exact fun client => toldMore (settled.phones client) _
  · exact fun _ _ member => member

theorem settledSocket {client : Nat} {online : Bool} (settled : Settled d used b past) :
    Settled d used b (past ++ [.socket client online]) := by
  have sound := settled.sound
  have wired := wiredModify sound.wired client (f := fun k => {k with online := online}) (fun _ => rfl)
  have clients := ownersModify (after d past).server.state.managed.clients client
    (f := fun k => {k with online := online}) (fun _ => rfl)
  refine settledQuiet settled (grownRefl b) ?_ settled.bound ?_ ?_ ?_ ?_ ?_ <;> simp only [afterLast,step]
  · exact {sound with wired := wired, known := fun id new => {sound.known id new with}}
  · exact ⟨settled.kept.rows,settled.kept.groups,settled.kept.connections⟩
  · exact ⟨[],(List.append_nil _).trans clients.symm⟩
  · exact fun other => toldMore (settled.phones other) _
  · exact fun _ _ member => member
  · rfl

theorem toldNoted {client : Nat} {e : ClientEvent} {status phone : Bool} (settled : Settled d used b past) (other : Nat) :
    Told (past ++ [.event client e status phone]) other (noted (after d past).phones client e other) := by
  have old := toldMore (settled.phones other) (.event client e status phone)
  unfold noted
  split
  · next user =>
    by_cases here : other = client
    · subst here
      rw [Function.update_self]
      exact .inr ⟨status,phone,List.mem_append_right _ (List.mem_singleton_self _)⟩
    · rw [Function.update_of_ne here]
      exact old
  · exact old

theorem settledEvent {client : Nat} {e : ClientEvent} {status phone : Bool} (settled : Settled d used b past) :
    Settled d used b (past ++ [.event client e status phone]) := by
  cases made : (managed (after d past)).clients[client]? with
  | none => exact settledNothing settled (by simp only [afterLast,step,made])
  | some k =>
    obtain ⟨f,keeps,edited⟩ :=
      editedMarked (managed (after d past)) (noted (after d past).phones client e) k.instanceId e status phone
    refine settledQuiet settled (grownRefl b) ?_ settled.bound ?_ ?_ ?_ ?_ ?_ <;> simp only [afterLast,step,made,edited]
    · exact soundEdited settled.sound keeps
    · exact keptRows settled.kept (fun i member => rowsEdited keeps member) (fun g member => ⟨g,member,rfl,rfl⟩)
    · exact List.prefix_rfl
    · exact toldNoted settled
    · intro c f member
      rcases List.mem_append.mp member with old | new
      · exact old
      · cases List.mem_singleton.mp new
    · rfl

theorem jobSet {jobs : List Job} {n : Nat} {job next : Job} (member : job ∈ jobs.set n next) : job ∈ jobs ∨ job = next :=
  (List.mem_or_eq_of_mem_set member)

theorem settledLookup {job : Nat} (settled : Settled d used b past) : Settled d used b (past ++ [.lookup job]) := by
  have nothing (same : step (after d past) (.lookup job) = after d past) : Settled d used b (past ++ [.lookup job]) :=
    settledNothing settled ((afterLast d past _).trans same)
  cases stage : (after d past).jobs[job]? with
  | none => exact nothing (by simp only [step,stage])
  | some at_ =>
    cases at_ with
    | find c e => exact nothing (by simp only [step,stage])
    | done => exact nothing (by simp only [step,stage])
    | emit id e =>
      refine ⟨?_,settled.bound,?_,?_,?_,?_⟩
      · simp only [afterLast,step,stage]; exact settled.sound
      · simp only [afterLast,step,stage]; exact settled.kept
      · simp only [afterLast,step,stage]; exact fun client => toldMore (settled.phones client) _
      · simp only [afterLast,step,stage]
        intro c f member
        rcases jobSet member with old | new
        · exact settled.jobs c f old
        · cases found : connectionOf (managed (after d past)) id with
          | none => rw [found] at new; cases new
          | some k =>
            rw [found] at new
            cases new
            obtain ⟨inside,_⟩ := findMember found
            refine ⟨settled.kept.connections c inside,?_⟩
            rw [owner,owners,clientOwners,List.getElem?_map]
            exact settled.sound.wired.clients c inside
      · intro x member
        have grows : owners (after d past).server.state <+: owners (after d (past ++ [.lookup job])).server.state := by
          simp only [afterLast,step,stage]; exact List.prefix_rfl
        refine handedMore (settled.handed x ?_) (grownRefl b) grows
        simpa only [afterLast,step,stage] using member

theorem emissionHanded {c : Connection} {e : ClientEvent} {found : Bool} {timestamp : String} (settled : Settled d used b past)
    (entry : (c.id,c.groupId) ∈ b.instances) (own : owner (after d past) c.client = some c.id)
    (handed : emission (after d past) c e found timestamp = some x) : Handed d past b x := by
  simp only [emission,bind,Option.bind_eq_some_iff] at handed
  obtain ⟨g,row,url,webhook,secret,signed,last⟩ := handed
  split at last
  · cases last
  cases last
  split at row
  · obtain ⟨member,here⟩ := findMember row
    exact ⟨entry,⟨c.client,own,settled.phones c.client⟩,past,List.prefix_rfl,g,member,here,webhook,signed,
      settled.kept.groups g member⟩
  · cases row

theorem settledHand {job : Nat} {found : Bool} {timestamp : String} (settled : Settled d used b past) :
    Settled d used b (past ++ [.hand job found timestamp]) := by
  have nothing (same : step (after d past) (.hand job found timestamp) = after d past) :
      Settled d used b (past ++ [.hand job found timestamp]) := settledNothing settled ((afterLast d past _).trans same)
  cases stage : (after d past).jobs[job]? with
  | none => exact nothing (by simp only [step,stage])
  | some at_ =>
    cases at_ with
    | emit id e => exact nothing (by simp only [step,stage])
    | done => exact nothing (by simp only [step,stage])
    | find c e =>
      obtain ⟨entry,own⟩ := settled.jobs c e (List.mem_of_getElem? stage)
      have grows : owners (after d past).server.state <+:
          owners (after d (past ++ [.hand job found timestamp])).server.state := by
        simp only [afterLast,step,stage]; exact List.prefix_rfl
      refine ⟨?_,settled.bound,?_,?_,?_,?_⟩
      · simp only [afterLast,step,stage]; exact settled.sound
      · simp only [afterLast,step,stage]; exact settled.kept
      · simp only [afterLast,step,stage]; exact fun client => toldMore (settled.phones client) _
      · simp only [afterLast,step,stage]
        intro k f member
        rcases jobSet member with old | new
        · exact settled.jobs k f old
        · cases new
      · intro x member
        have either : x ∈ (after d past).handed ++ (emission (after d past) c e found timestamp).toList := by
          simpa only [afterLast,step,stage] using member
        rcases List.mem_append.mp either with old | new
        · exact handedMore (settled.handed x old) (grownRefl b) grows
        · exact handedMore (emissionHanded settled entry own (Option.mem_toList.mp new)) (grownRefl b) grows

theorem settledStep {e : Step} (settled : Settled d used b past) (fresh : FreshStep used e) :
    ∃ c, Grown b c ∧ Settled d (growStep used e) c (past ++ [e]) := by
  cases e with
  | call call => exact settledCall settled (fresh _ rfl)
  | socket client online => exact ⟨b,grownRefl b,settledSocket settled⟩
  | event client e status phone => exact ⟨b,grownRefl b,settledEvent settled⟩
  | lookup job => exact ⟨b,grownRefl b,settledLookup settled⟩
  | hand job found timestamp => exact ⟨b,grownRefl b,settledHand settled⟩

theorem settledStart (sound : Sound used d.server.state) (idle : Idle d) : ∃ b, Settled d used b [] := by
  have inside {id : UUID} (rows : ¬ Unknown d.server.state id) : id ∈ used := not_not.mp (fun new => rows (sound.known id new))
  refine ⟨⟨(managed d).rows.instances.map (fun i => (i.id,i.groupId)),(managed d).rows.groups.map (fun g => (g.id,g.tenantId))⟩,
    sound,⟨?_,?_,?_,?_⟩,⟨?_,?_,?_⟩,fun client => .inl (idle.phones client),?_,?_⟩
  · rw [Distinct,List.map_map]; exact sound.instances
  · rw [Distinct,List.map_map]; exact sound.groups
  · intro p member
    obtain ⟨i,there,rfl⟩ := List.mem_map.mp member
    exact inside (fun unknown => unknown.instances i there rfl)
  · intro p member
    obtain ⟨g,there,rfl⟩ := List.mem_map.mp member
    exact inside (fun unknown => unknown.groups g there rfl)
  · exact fun i member => List.mem_map_of_mem (f := fun i : InstanceRow => (i.id,i.groupId)) member
  · exact fun g member => List.mem_map_of_mem (f := fun g : GroupRow => (g.id,g.tenantId)) member
  · intro c member
    change c ∈ (managed d).connections at member
    rw [idle.connections] at member
    cases member
  · intro c e member
    change Job.find c e ∈ d.jobs at member
    rw [idle.jobs] at member
    cases member
  · intro x member
    change x ∈ d.handed at member
    rw [idle.handed] at member
    cases member

structure Home (d : Desk) (first second : List Step) (x : Emission) : Prop where
  group : ∀ i ∈ (managed (after d second)).rows.instances, i.id = x.instanceId → i.groupId = x.groupId
  webhook : ∃ earlier, earlier <+: first ∧ ∃ g ∈ (managed (after d earlier)).rows.groups, g.id = x.groupId ∧
    g.webhookUrl = some x.url ∧ g.webhookSecret = some x.secret ∧
      ∀ h ∈ (managed (after d second)).rows.groups, h.id = x.groupId → h.tenantId = g.tenantId
  phone : ∃ client, owner (after d first) client = some x.instanceId ∧ Told first client x.phone

theorem homeUnder {c top : Books} {more most : List UUID} {first second : List Step} (bound : Bound most top)
    (settled : Settled d used b first) (also : Settled d more c second) (left : Grown b top) (right : Grown c top)
    (member : x ∈ (after d first).handed) : Home d first second x := by
  obtain ⟨entry,phone,earlier,before,g,inside,here,url,secret,owner⟩ := settled.handed x member
  refine ⟨fun i row same => ?_,⟨earlier,before,g,inside,here,url,secret,fun h row same => ?_⟩,phone⟩
  · have both := sameRow bound.instances (right.instances (also.kept.rows i row)) (left.instances entry) same
    exact (Prod.mk.inj both).2
  · have both := sameRow bound.groups (right.groups (also.kept.groups h row)) (left.groups owner) (same.trans here.symm)
    exact (Prod.mk.inj both).2

/-- Whatever is called and reported, and in whatever order its statements run: what is handed over for an instance goes
to the webhook of the one group that the instance is ever in, with that group's secret, and the group has one tenant.
A phone in it is one that a client of the instance was connected as. -/
theorem emissionsHome {steps first second : List Step} (sound : Sound used d.server.state) (idle : Idle d)
    (admitted : Admitted FreshStep growStep used steps) (one : first <+: steps) (other : second <+: steps)
    (member : x ∈ (after d first).handed) : Home d first second x := by
  obtain ⟨b,start⟩ := settledStart sound idle
  have grows : Grows FreshStep growStep Grown (Settled d) :=
    ⟨grownRefl,fun _ _ _ => grownTrans,fun _ _ _ _ settled fresh => settledStep settled fresh⟩
  obtain ⟨_,_,_,⟨_,settled⟩,⟨_,also⟩,⟨_,_,top⟩,left,right⟩ := shared grows start admitted one other
  exact homeUnder top.bound settled also left right member

end Runs

def webhookRow : GroupRow := {groupRow 1 100 with webhookUrl := some (text "https://a")}

def starting : Desk :=
  ⟨⟨[account 100 (text "wpp_1")],serving ⟨[webhookRow],[instanceRow 11 1]⟩⟩,fun _ => [],[],[]⟩

def calling (e : ResourceHandlers.Endpoint) (id : UUID) : Step :=
  .call (.v1 (text "wpp_1") true (.resource e) (asking (tenantOf (account 100 (text "wpp_1"))) 1 11) {answering with id := id})

def reported : List Step :=
  [calling .instanceConnect 50,.event 0 (.connected (some (text "5511"))) true true,.lookup 0,calling .instanceDelete 51,
    .hand 0 true "2026-01-01T00:00:00Z"]

def connectedReport : Emission :=
  ⟨text "https://a",text "segredo","instance.connected",1,11,text "5511","2026-01-01T00:00:00Z",.instance_ 11⟩

theorem startingSound : Sound [1,11] starting.server.state := by
  refine ⟨List.nodup_singleton _,List.nodup_singleton _,List.nodup_nil,?_,?_,⟨List.nodup_nil,?_⟩,fun id new => ?_⟩
  · intro i member
    cases List.mem_singleton.mp member
    exact ⟨webhookRow,List.mem_singleton_self _,rfl⟩
  · intro m member
    cases member
  · intro c member
    cases member
  · simp only [List.mem_cons,List.not_mem_nil,or_false,not_or] at new
    refine ⟨fun g member => ?_,fun i member => ?_,fun _ member => (by cases member),fun _ member => (by cases member),
      fun _ member => (by cases member),rfl,rfl⟩
    · cases List.mem_singleton.mp member; exact Ne.symm new.1
    · cases List.mem_singleton.mp member; exact Ne.symm new.2

theorem emissionsHomeDeleted : connectedReport ∈ (after starting reported).handed ∧
    Home starting reported (reported.take 1) connectedReport := by
  have member : connectedReport ∈ (after starting reported).handed := by decide +kernel
  have admitted : Admitted FreshStep growStep [1,11] reported := by
    refine ⟨fun id is => ?_,fun id is => (by cases is),fun id is => (by cases is),fun id is => ?_,
      fun id is => (by cases is),trivial⟩
    · cases is; decide
    · cases is; decide
  exact ⟨member,emissionsHome startingSound ⟨rfl,fun _ => rfl,rfl,rfl⟩ admitted List.prefix_rfl (List.take_prefix _ _) member⟩

end WppGateway.InstanceEvents
