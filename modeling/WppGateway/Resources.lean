import WppGateway.Http
import WppGateway.Store
import Mathlib.Algebra.Order.Ring.Int

/-! The rows of groups and instances with every column that a handler shows or sets,
the bodies of the requests about them, and their repositories. -/
namespace WppGateway.Resources
open GoJson Domain Store Table

structure Tenant where
  id : UUID
  maxGroups : Int
  maxInstances : Int
  deriving DecidableEq, Repr

structure GroupRow extends Group where
  name : GoString
  config : Json
  webhookUrl : Option GoString
  webhookSecret : Option GoString
  webhookEvents : Option (List GoString)
  isActive : Bool

structure InstanceRow extends Instance where
  displayName : Option GoString
  createdAt : Int
  deriving DecidableEq, Repr

structure Rows where
  groups : List GroupRow
  instances : List InstanceRow

structure CreateGroupInput where
  name : GoString
  strategy : GoString
  config : Option Json
  webhookUrl : Option GoString
  webhookEvents : Option (List GoString)

structure UpdateGroupInput where
  name : Option GoString
  strategy : Option GoString
  config : Option Json
  webhookUrl : Option GoString
  webhookEvents : Option (List GoString)

structure CreateInstanceInput where
  displayName : Option GoString
  priority : Int
  dailyBudget : Int
  hourlyBudget : Int
  deriving DecidableEq, Repr

structure UpdateInstanceInput where
  displayName : Option GoString
  priority : Option Int
  dailyBudget : Option Int
  hourlyBudget : Option Int
  deriving DecidableEq, Repr

/-! The bodies. A pointer is nil for null and is set even where its value has the wrong type. -/

def digits (s : GoString) : Option Int :=
  if s ≠ [] ∧ s.all decimal = true then some (s.foldl (fun n b => n * 10 + (b.toNat - 48)) (0 : Nat)) else none

def parseInt (s : GoString) : Option Int :=
  let n := match s with
    | 45::rest => (digits rest).map (fun n => -n)
    | _ => digits s
  n.filter (fun n => -2^63 ≤ n && n < 2^63)

def decodeInt (current : Int) : Json → Decoded Int
  | .null => ⟨current,.ok⟩
  | .num literal => match parseInt literal with
    | some n => ⟨n,.ok⟩
    | none => ⟨current,.wrongType⟩
  | _ => ⟨current,.wrongType⟩

def decodePointer {α : Type} (zero : α) (element : α → Json → Decoded α) (current : Option α) : Json → Decoded (Option α)
  | .null => ⟨none,.ok⟩
  | value =>
    let next := element (current.getD zero) value
    ⟨some next.value,next.outcome⟩

def decodeSlice (current : Option (List GoString)) : Json → Decoded (Option (List GoString))
  | .null => ⟨none,.ok⟩
  | value =>
    let next := decodeStrings (current.getD []) value
    ⟨match value with | .arr _ => some next.value | _ => current,next.outcome⟩

def createGroupField (c : CreateGroupInput) (key : GoString) (value : Json) : Decoded CreateGroupInput :=
  if named key "name" then
    let next := decodeString c.name value
    ⟨{c with name := next.value},next.outcome⟩
  else if named key "strategy" then
    let next := decodeString c.strategy value
    ⟨{c with strategy := next.value},next.outcome⟩
  else if named key "config" then ⟨{c with config := some value},.ok⟩
  else if named key "webhook_url" then
    let next := decodePointer [] decodeString c.webhookUrl value
    ⟨{c with webhookUrl := next.value},next.outcome⟩
  else if named key "webhook_events" then
    let next := decodeSlice c.webhookEvents value
    ⟨{c with webhookEvents := next.value},next.outcome⟩
  else ⟨c,.ok⟩

def decodeCreateGroupInput : Json → Decoded CreateGroupInput := decodeStruct createGroupField ⟨[],[],none,none,none⟩

def updateGroupField (c : UpdateGroupInput) (key : GoString) (value : Json) : Decoded UpdateGroupInput :=
  if named key "name" then
    let next := decodePointer [] decodeString c.name value
    ⟨{c with name := next.value},next.outcome⟩
  else if named key "strategy" then
    let next := decodePointer [] decodeString c.strategy value
    ⟨{c with strategy := next.value},next.outcome⟩
  else if named key "config" then ⟨{c with config := match value with | .null => none | _ => some value},.ok⟩
  else if named key "webhook_url" then
    let next := decodePointer [] decodeString c.webhookUrl value
    ⟨{c with webhookUrl := next.value},next.outcome⟩
  else if named key "webhook_events" then
    let next := decodePointer [] decodeStrings c.webhookEvents value
    ⟨{c with webhookEvents := next.value},next.outcome⟩
  else ⟨c,.ok⟩

def decodeUpdateGroupInput : Json → Decoded UpdateGroupInput :=
  decodeStruct updateGroupField ⟨none,none,none,none,none⟩

def createInstanceField (c : CreateInstanceInput) (key : GoString) (value : Json) : Decoded CreateInstanceInput :=
  if named key "display_name" then
    let next := decodePointer [] decodeString c.displayName value
    ⟨{c with displayName := next.value},next.outcome⟩
  else if named key "priority" then
    let next := decodeInt c.priority value
    ⟨{c with priority := next.value},next.outcome⟩
  else if named key "daily_budget" then
    let next := decodeInt c.dailyBudget value
    ⟨{c with dailyBudget := next.value},next.outcome⟩
  else if named key "hourly_budget" then
    let next := decodeInt c.hourlyBudget value
    ⟨{c with hourlyBudget := next.value},next.outcome⟩
  else ⟨c,.ok⟩

def decodeCreateInstanceInput : Json → Decoded CreateInstanceInput := decodeStruct createInstanceField ⟨none,0,0,0⟩

def updateInstanceField (c : UpdateInstanceInput) (key : GoString) (value : Json) : Decoded UpdateInstanceInput :=
  if named key "display_name" then
    let next := decodePointer [] decodeString c.displayName value
    ⟨{c with displayName := next.value},next.outcome⟩
  else if named key "priority" then
    let next := decodePointer 0 decodeInt c.priority value
    ⟨{c with priority := next.value},next.outcome⟩
  else if named key "daily_budget" then
    let next := decodePointer 0 decodeInt c.dailyBudget value
    ⟨{c with dailyBudget := next.value},next.outcome⟩
  else if named key "hourly_budget" then
    let next := decodePointer 0 decodeInt c.hourlyBudget value
    ⟨{c with hourlyBudget := next.value},next.outcome⟩
  else ⟨c,.ok⟩

def decodeUpdateInstanceInput : Json → Decoded UpdateInstanceInput :=
  decodeStruct updateInstanceField ⟨none,none,none,none⟩

/-! What the columns accept: VARCHAR as in the other tables, TEXT without NUL, INT of 32 bits. -/

def textColumn (s : GoString) : Option GoString := if s.contains 0 then none else some s

def int4 (n : Int) : Option Int := if -2^31 ≤ n ∧ n < 2^31 then some n else none

def strategyColumn (s : GoString) : Option Strategy :=
  if s = text "failover" then some .failover
  else if s = text "rotation" then some .rotation
  else if s = text "hybrid" then some .hybrid
  else none

def nullable {α β : Type} (column : α → Option β) : Option α → Option (Option β)
  | none => some none
  | some a => (column a).map some

/-! GroupRepo. The argument `jsonb` is what the JSONB type makes of a document. -/

def groupById (r : Rows) (id : UUID) : Option GroupRow := r.groups.find? (fun g => g.id == id)

def createGroup (jsonb : Json → Option Json) (r : Rows) (id : UUID) (secret : GoString) (tenantId : UUID)
    (input : CreateGroupInput) : Option (Rows × GroupRow) := do
  let name ← varchar 255 input.name
  let strategy ← strategyColumn input.strategy
  let config ← jsonb (input.config.getD (.obj []))
  let url ← nullable textColumn input.webhookUrl
  let events ← nullable (List.mapM textColumn) input.webhookEvents
  if (groupById r id).isSome then none
  else
    let g : GroupRow := ⟨⟨id,tenantId,strategy⟩,name,config,url,some secret,events,true⟩
    some ({r with groups := r.groups ++ [g]},g)

/- COALESCE keeps the column where the parameter is null. -/
def updateGroup (jsonb : Json → Option Json) (r : Rows) (id : UUID) (input : UpdateGroupInput) :
    Option (Rows × Option GroupRow) := do
  let name ← nullable (varchar 255) input.name
  let strategy ← nullable strategyColumn input.strategy
  let config ← nullable jsonb input.config
  let url ← nullable textColumn input.webhookUrl
  let events ← nullable (List.mapM textColumn) input.webhookEvents
  let set_ (g : GroupRow) : GroupRow :=
    {g with
      name := name.getD g.name, strategy := strategy.getD g.strategy, config := config.getD g.config
      webhookUrl := url.orElse (fun _ => g.webhookUrl), webhookEvents := events.orElse (fun _ => g.webhookEvents)}
  some ({r with groups := update (fun g : GroupRow => g.id) id set_ r.groups},(groupById r id).map set_)

/- The foreign key of the instances deletes with the group. -/
def deleteGroup (r : Rows) (id : UUID) : Rows :=
  ⟨r.groups.filter (fun g => g.id != id),r.instances.filter (fun i => i.groupId != id)⟩

def countGroups (r : Rows) (tenantId : UUID) : Nat := r.groups.countP (fun g => g.tenantId == tenantId)

/-! InstanceRepo. -/

def instanceById (r : Rows) (id : UUID) : Option InstanceRow := r.instances.find? (fun i => i.id == id)

/- By priority, then by age. -/
def instancesOf (r : Rows) (groupId : UUID) : List InstanceRow :=
  (r.instances.filter (fun i => i.groupId == groupId)).insertionSort
    (fun a b => b.priority < a.priority ∨ (a.priority = b.priority ∧ a.createdAt ≤ b.createdAt))

/- The other columns have their defaults: disconnected, no message, a delivery rate of one. -/
def createInstance (r : Rows) (id : UUID) (createdAt : Int) (groupId : UUID) (input : CreateInstanceInput) :
    Option (Rows × InstanceRow) := do
  let name ← nullable (varchar 255) input.displayName
  let priority ← int4 input.priority
  let daily ← int4 input.dailyBudget
  let hourly ← int4 input.hourlyBudget
  if (instanceById r id).isSome ∨ (groupById r groupId).isSome = false then none
  else
    let i : InstanceRow := ⟨⟨id,groupId,none,.disconnected,priority,daily,hourly,0,0,1⟩,name,createdAt⟩
    some ({r with instances := r.instances ++ [i]},i)

def updateInstance (r : Rows) (id : UUID) (input : UpdateInstanceInput) : Option (Rows × Option InstanceRow) := do
  let name ← nullable (varchar 255) input.displayName
  let priority ← nullable int4 input.priority
  let daily ← nullable int4 input.dailyBudget
  let hourly ← nullable int4 input.hourlyBudget
  let set_ (i : InstanceRow) : InstanceRow :=
    {i with
      displayName := name.orElse (fun _ => i.displayName), priority := priority.getD i.priority
      dailyBudget := daily.getD i.dailyBudget, hourlyBudget := hourly.getD i.hourlyBudget}
  some ({r with instances := update (fun i : InstanceRow => i.id) id set_ r.instances},(instanceById r id).map set_)

def setStatus (r : Rows) (id : UUID) (status : InstanceStatus) : Rows :=
  {r with instances := update (fun i : InstanceRow => i.id) id (fun i => {i with status := status}) r.instances}

def deleteInstance (r : Rows) (id : UUID) : Rows := {r with instances := r.instances.filter (fun i => i.id != id)}

def countInstances (r : Rows) (tenantId : UUID) : Nat :=
  r.instances.countP (fun i => r.groups.any (fun g => g.id == i.groupId && g.tenantId == tenantId))

theorem createGroupAdds {jsonb : Json → Option Json} {r t : Rows} {id tenantId : UUID} {secret : GoString}
    {input : CreateGroupInput} {g : GroupRow} (made : createGroup jsonb r id secret tenantId input = some (t,g)) :
    t = {r with groups := r.groups ++ [g]} ∧ g.id = id ∧ g.tenantId = tenantId ∧ groupById r id = none := by
  simp only [createGroup,bind,Option.bind_eq_some_iff] at made
  obtain ⟨_,_,_,_,_,_,_,_,_,_,made⟩ := made
  split at made <;> cases made
  next absent => exact ⟨rfl,rfl,rfl,by simpa using absent⟩

theorem createInstanceAdds {r t : Rows} {id groupId : UUID} {createdAt : Int} {input : CreateInstanceInput}
    {i : InstanceRow} (made : createInstance r id createdAt groupId input = some (t,i)) :
    t = {r with instances := r.instances ++ [i]} ∧ i.id = id ∧ i.groupId = groupId ∧
      (groupById r groupId).isSome = true ∧ i.status = .disconnected := by
  simp only [createInstance,bind,Option.bind_eq_some_iff] at made
  obtain ⟨_,_,_,_,_,_,_,_,made⟩ := made
  split at made <;> cases made
  next sound =>
    simp only [not_or,Bool.not_eq_false] at sound
    exact ⟨rfl,rfl,rfl,sound.2,rfl⟩

theorem createInstanceNew {r t : Rows} {id groupId : UUID} {createdAt : Int} {input : CreateInstanceInput}
    {i : InstanceRow} (made : createInstance r id createdAt groupId input = some (t,i)) :
    id ∉ r.instances.map (fun i => i.id) := by
  simp only [createInstance,bind,Option.bind_eq_some_iff] at made
  obtain ⟨_,_,_,_,_,_,_,_,made⟩ := made
  split at made <;> cases made
  next sound =>
    simp only [not_or,Option.not_isSome_iff_eq_none] at sound
    intro member
    obtain ⟨row,inside,same⟩ := List.mem_map.mp member
    exact List.find?_eq_none.mp sound.1 row inside (by simpa using same)

def References (r : Rows) : Prop := ∀ i ∈ r.instances, ∃ g ∈ r.groups, g.id = i.groupId

instance (r : Rows) : Decidable (References r) := inferInstanceAs (Decidable (∀ i ∈ r.instances, ∃ g ∈ r.groups, _))

theorem referencesGroup {r : Rows} (g : GroupRow) (references : References r) :
    References {r with groups := r.groups ++ [g]} := by
  intro i member
  obtain ⟨owner,inside,same⟩ := references i member
  exact ⟨owner,List.mem_append_left _ inside,same⟩

theorem referencesInstance {r : Rows} {i : InstanceRow} (references : References r)
    (known : (groupById r i.groupId).isSome = true) : References {r with instances := r.instances ++ [i]} := by
  intro j member
  rcases List.mem_append.mp member with old | new
  · exact references j old
  · cases List.mem_singleton.mp new
    obtain ⟨g,found⟩ := Option.isSome_iff_exists.mp known
    exact ⟨g,findMember found⟩

theorem countNewGroup {r : Rows} {g : GroupRow} (references : References r) (new : groupById r g.id = none)
    (tenantId : UUID) : countInstances {r with groups := r.groups ++ [g]} tenantId = countInstances r tenantId := by
  apply List.countP_congr
  intro i member
  have other : g.id ≠ i.groupId := by
    intro same
    obtain ⟨owner,inside,here⟩ := references i member
    have absent := List.find?_eq_none.mp new owner inside
    rw [here,same] at absent
    simp at absent
  simp [other]

def groupRow (id tenantId : UUID) : GroupRow :=
  ⟨⟨id,tenantId,.rotation⟩,text "vendas",.obj [],none,some (text "segredo"),none,true⟩

def instanceRow (id groupId : UUID) : InstanceRow := ⟨⟨id,groupId,none,.disconnected,0,200,30,0,0,1⟩,none,0⟩

def sampleRows : Rows := ⟨[groupRow 1 100],[instanceRow 11 1]⟩

end WppGateway.Resources
