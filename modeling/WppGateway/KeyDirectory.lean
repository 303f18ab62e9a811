import WppGateway.Accounts
import WppGateway.Hex
import WppGateway.Purging

/-! API keys. The table keeps hashes; beside it stands the directory that it would be with the keys themselves, as it was
before they were hashed. As long as no two keys in use have one hash, the middleware lets through exactly whom the
directory knows. -/
namespace WppGateway.KeyDirectory
open GoJson Domain Store Resources Service Accounts
open ResourceHandlers (parseBody)

structure PlainTenant where
  id : UUID
  name : GoString
  apiKey : GoString
  plan : GoString
  maxGroups : Int
  maxInstances : Int
  isActive : Bool
  createdAt : Int
  deriving DecidableEq, Repr

def hashed (t : PlainTenant) : TenantRow :=
  ⟨t.id,t.name,hashAPIKey t.apiKey,t.plan,t.maxGroups,t.maxInstances,t.isActive,t.createdAt⟩

/- The constraint on the new column fails where two hashes are equal. -/
def migrate (rows : List PlainTenant) : Option (List TenantRow) :=
  if Table.Distinct TenantRow.apiKeyHash (rows.map hashed) then some (rows.map hashed) else none

def find (rows : List PlainTenant) (apiKey : GoString) : Option PlainTenant := rows.find? (fun t => t.apiKey == apiKey)

def create (rows : List PlainTenant) (id : UUID) (createdAt : Int) (name apiKey : GoString) : List PlainTenant :=
  match varchar 255 name with
  | none => rows
  | some name =>
    if rows.any (fun t => t.id == id || t.apiKey == apiKey) then rows
    else rows ++ [⟨id,name,apiKey,text "basic",5,20,true,createdAt⟩]

def rename (rows : List PlainTenant) (id : UUID) (name : Option GoString) : List PlainTenant :=
  match nullable (varchar 255) name with
  | none => rows
  | some name => Table.update PlainTenant.id id (fun t => {t with name := name.getD t.name}) rows

def auth (rows : List PlainTenant) (apiKey : GoString) (found : Bool) : Except Reply PlainTenant :=
  if apiKey = [] then .error (errUnauthorized "Missing X-API-Key header")
  else if found = false then .error (errInternal "Failed to validate API key")
  else match find rows apiKey with
    | none => .error (errUnauthorized "Invalid API key")
    | some t => if t.isActive = false then .error (errForbidden "Account is deactivated") else .ok t

/-! What happens to the tenants: calls of the API, and rows that somebody deletes, blocks or opens in the database. -/

inductive Event where
  | call (c : Call)
  | delete (id : UUID)
  | setActive (id : UUID) (active : Bool)

def setActive (id : UUID) (active : Bool) (rows : List TenantRow) : List TenantRow :=
  Table.update TenantRow.id id (fun t => {t with isActive := active}) rows

def step (s : Server) : Event → Server
  | .call c => (serve s c).1
  | .delete id => {s with tenants := Accounts.delete s.tenants id}
  | .setActive id active => {s with tenants := setActive id active s.tenants}

def issued : Event → Option GoString
  | .call (.register _ a) => a.random.map generateAPIKey
  | _ => none

def presented : Event → Option GoString
  | .call (.v1 apiKey _ _ _ _) => some apiKey
  | _ => none

def register (rows : List PlainTenant) (body : Option Json) (a : Registering) : List PlainTenant :=
  match parsed decodeCreateTenantInput body with
  | none => rows
  | some name =>
    if name = [] then rows
    else match a.random with
      | none => rows
      | some random => if a.write then create rows a.id a.createdAt name (generateAPIKey random) else rows

def renamed (rows : List PlainTenant) (t : PlainTenant) (q : Req) (a : Answers) : List PlainTenant :=
  match parseBody decodeUpdateTenantInput q with
  | none => rows
  | some name => if a.write then rename rows t.id name else rows

def plainStep (rows : List PlainTenant) : Event → List PlainTenant
  | .call (.register body a) => register rows body a
  | .call (.v1 apiKey found route q a) => match auth rows apiKey found with
    | .error _ => rows
    | .ok t => match route with
      | .updateAccount => renamed rows t q a
      | _ => rows
  | .delete id => rows.filter (fun t => t.id != id)
  | .setActive id active => Table.update PlainTenant.id id (fun t => {t with isActive := active}) rows

def Apart (keys : List GoString) : Prop := ∀ x ∈ keys, ∀ y ∈ keys, Sha256.sum256 x = Sha256.sum256 y → x = y

instance (keys : List GoString) : Decidable (Apart keys) :=
  inferInstanceAs (Decidable (∀ x ∈ keys, ∀ y ∈ keys, Sha256.sum256 x = Sha256.sum256 y → x = y))

def keysOf (e : Event) : List GoString := (issued e).toList ++ (presented e).toList

section Directory
variable {rows : List PlainTenant} {keys : List GoString}

theorem hashEqual (apart : Apart keys) {x y : GoString} (left : x ∈ keys) (right : y ∈ keys) :
    (hashAPIKey x == hashAPIKey y) = (x == y) := by
  rw [Bool.eq_iff_iff,beq_iff_eq,beq_iff_eq]
  exact ⟨fun same => apart x left y right (Hex.encodeInjective same),congrArg hashAPIKey⟩

theorem hashFits (apiKey : GoString) : varchar 64 (hashAPIKey apiKey) = some (hashAPIKey apiKey) := by
  have kept : ∀ (n : Nat) (s : GoString), s.length ≤ n → takeChars n s = s := by
    intro n s
    induction s generalizing n with
    | nil => intro _; cases n <;> rfl
    | cons b rest ih =>
      intro fits
      cases n with
      | zero => simp at fits
      | succ n =>
        simp only [List.length_cons,Nat.add_le_add_iff_right] at fits
        simp only [takeChars]
        split
        · rw [ih (n + 1) (by omega)]
        · rw [ih n fits]
  have length : (hashAPIKey apiKey).length = 64 := (Hex.encodeLength _).trans rfl
  have plain : 0 ∉ hashAPIKey apiKey := fun zero => (Hex.encodePlain 0 zero).1 rfl
  simp [varchar,kept 64 _ (Nat.le_of_eq length),plain]

theorem findHashed (apart : Apart keys) (known : ∀ t ∈ rows, t.apiKey ∈ keys) {apiKey : GoString} (inUse : apiKey ∈ keys) :
    findByAPIKey (rows.map hashed) apiKey = (find rows apiKey).map hashed := by
  rw [findByAPIKey,find]
  induction rows with
  | nil => rfl
  | cons t rest ih =>
    have here : ((hashed t).apiKeyHash == hashAPIKey apiKey) = (t.apiKey == apiKey) :=
      hashEqual apart (known t List.mem_cons_self) inUse
    rw [List.map_cons,List.find?_cons,List.find?_cons,here,ih (fun t member => known t (List.mem_cons_of_mem _ member))]
    cases t.apiKey == apiKey <;> rfl

theorem authHashed (apart : Apart keys) (known : ∀ t ∈ rows, t.apiKey ∈ keys) {apiKey : GoString} (inUse : apiKey ∈ keys)
    (found : Bool) : Accounts.auth (rows.map hashed) apiKey found = (auth rows apiKey found).map hashed := by
  rw [Accounts.auth,auth,findHashed apart known inUse]
  split
  · rfl
  split
  · rfl
  cases find rows apiKey with
  | none => rfl
  | some t =>
    simp only [Option.map_some]
    change (if t.isActive = false then _ else _) = _
    split <;> rfl

theorem takenHashed (apart : Apart keys) (known : ∀ t ∈ rows, t.apiKey ∈ keys) {apiKey : GoString} (inUse : apiKey ∈ keys)
    (id : UUID) : (rows.map hashed).any (fun t => t.id == id || t.apiKeyHash == hashAPIKey apiKey) =
      rows.any (fun t => t.id == id || t.apiKey == apiKey) := by
  induction rows with
  | nil => rfl
  | cons t rest ih =>
    have here : ((hashed t).apiKeyHash == hashAPIKey apiKey) = (t.apiKey == apiKey) :=
      hashEqual apart (known t List.mem_cons_self) inUse
    rw [List.map_cons,List.any_cons,List.any_cons,here,ih (fun t member => known t (List.mem_cons_of_mem _ member))]
    rfl

theorem createHashed (apart : Apart keys) (known : ∀ t ∈ rows, t.apiKey ∈ keys) {apiKey : GoString} (inUse : apiKey ∈ keys)
    (id : UUID) (createdAt : Int) (name : GoString) :
    ((Accounts.create (rows.map hashed) id createdAt name apiKey).map Prod.fst).getD (rows.map hashed) =
      (create rows id createdAt name apiKey).map hashed := by
  simp only [Accounts.create,create,hashFits,bind,Option.bind]
  cases varchar 255 name with
  | none => rfl
  | some name =>
    dsimp only
    rw [takenHashed apart known inUse]
    split
    · rfl
    · simp only [Option.map_some,Option.getD_some,List.map_append]
      rfl

theorem updateHashed (id : UUID) (f : PlainTenant → PlainTenant) (g : TenantRow → TenantRow)
    (same : ∀ t : PlainTenant, hashed (f t) = g (hashed t)) :
    Table.update TenantRow.id id g (rows.map hashed) = (Table.update PlainTenant.id id f rows).map hashed := by
  rw [Table.update,Table.update,List.map_map,List.map_map]
  refine List.map_congr_left (fun t _ => ?_)
  simp only [Function.comp_apply]
  by_cases here : t.id = id
  · rw [if_pos here,if_pos (show (hashed t).id = id from here),same]
  · rw [if_neg here,if_neg (show ¬ (hashed t).id = id from here)]

theorem registerHashed (apart : Apart keys) (known : ∀ t ∈ rows, t.apiKey ∈ keys) {body : Option Json} {a : Registering}
    (inUse : ∀ apiKey ∈ a.random.map generateAPIKey, apiKey ∈ keys) :
    (createTenant (rows.map hashed) body a).1 = (register rows body a).map hashed := by
  unfold createTenant register
  cases parsed decodeCreateTenantInput body with
  | none => rfl
  | some name =>
    by_cases empty : name = []
    · simp only [if_pos empty]
    · simp only [if_neg empty]
      cases drawn : a.random with
      | none => rfl
      | some random =>
        have made := createHashed apart known (inUse (generateAPIKey random) (by rw [drawn]; rfl)) a.id a.createdAt name
        cases a.write with
        | false => rfl
        | true =>
          simp only [if_true]
          rw [← made]
          cases Accounts.create (rows.map hashed) a.id a.createdAt name (generateAPIKey random) <;> rfl

theorem renamedHashed (t : PlainTenant) (q : Req) (a : Answers) :
    (updateAccount (rows.map hashed) (hashed t) q a).1 = (renamed rows t q a).map hashed := by
  unfold updateAccount renamed
  cases parseBody decodeUpdateTenantInput q with
  | none => rfl
  | some name =>
    cases a.write with
    | false => rfl
    | true =>
      simp only [if_true,Accounts.update,rename,bind]
      cases nullable (varchar 255) name with
      | none => rfl
      | some kept => exact updateHashed t.id _ _ (fun _ => rfl)

theorem stepHashed {s : Server} {e : Event} (apart : Apart keys) (known : ∀ t ∈ rows, t.apiKey ∈ keys)
    (inUse : ∀ apiKey ∈ keysOf e, apiKey ∈ keys) (same : s.tenants = rows.map hashed) :
    (step s e).tenants = (plainStep rows e).map hashed := by
  cases e with
  | call c =>
    cases c with
    | register body a =>
      change (createTenant s.tenants body a).1 = _
      rw [same]
      exact registerHashed apart known (fun apiKey here => inUse apiKey (List.mem_append_left _ (by simpa [issued] using here)))
    | v1 apiKey found route q a =>
      have passed := authHashed apart known (inUse apiKey (by simp [keysOf,presented,issued])) found
      rw [← same] at passed
      simp only [step,serve,plainStep,passed]
      cases auth rows apiKey found with
      | error reply => exact same
      | ok t =>
        cases route with
        | updateAccount =>
          change (updateAccount s.tenants (hashed t) q a).1 = _
          rw [same]
          exact renamedHashed t q a
        | _ => exact same
  | delete id =>
    change s.tenants.filter _ = _
    rw [same,List.filter_map]
    rfl
  | setActive id active =>
    change Table.update TenantRow.id id _ s.tenants = _
    rw [same]
    exact updateHashed id _ _ (fun _ => rfl)

inductive Rekeyed (rows : List PlainTenant) (new : Option GoString) (later : List PlainTenant) : Prop where
  | kept (sub : (later.map PlainTenant.apiKey).Sublist (rows.map PlainTenant.apiKey))
  | added (apiKey : GoString) (given : new = some apiKey) (free : apiKey ∉ rows.map PlainTenant.apiKey)
      (keys : later.map PlainTenant.apiKey = rows.map PlainTenant.apiKey ++ [apiKey])

theorem rekeyedUpdate {new : Option GoString} (id : UUID) (f : PlainTenant → PlainTenant)
    (same : ∀ t : PlainTenant, (f t).apiKey = t.apiKey) : Rekeyed rows new (Table.update PlainTenant.id id f rows) := by
  have keys : (Table.update PlainTenant.id id f rows).map PlainTenant.apiKey = rows.map PlainTenant.apiKey := by
    rw [Table.update,List.map_map]
    refine List.map_congr_left (fun t _ => ?_)
    simp only [Function.comp_apply]
    split
    · exact same t
    · rfl
  exact .kept (by rw [keys])

theorem plainRekeyed (rows : List PlainTenant) (e : Event) : Rekeyed rows (issued e) (plainStep rows e) := by
  have still : Rekeyed rows (issued e) rows := .kept (List.Sublist.refl _)
  cases e with
  | call c =>
    cases c with
    | register body a =>
      simp only [plainStep,register]
      split
      · exact still
      split
      · exact still
      split
      · exact still
      next random drawn =>
      split
      · simp only [create]
        split
        · exact still
        split
        · exact still
        next free =>
        refine .added (generateAPIKey random) (by simp [issued,drawn]) (fun member => free ?_) (by simp)
        obtain ⟨t,inside,here⟩ := List.mem_map.mp member
        exact List.any_eq_true.mpr ⟨t,inside,by simp [here]⟩
      · exact still
    | v1 apiKey found route q a =>
      simp only [plainStep]
      split
      · exact still
      split
      · simp only [renamed]
        split
        · exact still
        split
        · simp only [rename]
          split
          · exact still
          · exact rekeyedUpdate _ _ (fun _ => rfl)
        · exact still
      · exact still
  | delete id => exact .kept ((List.filter_sublist).map _)
  | setActive id active => exact rekeyedUpdate _ _ (fun _ => rfl)

structure Kept (keys : List GoString) (s : Server) (rows : List PlainTenant) : Prop where
  same : s.tenants = rows.map hashed
  known : ∀ t ∈ rows, t.apiKey ∈ keys
  unique : Table.Distinct PlainTenant.apiKey rows

theorem keptStep {s : Server} {e : Event} (apart : Apart keys) (kept : Kept keys s rows)
    (inUse : ∀ apiKey ∈ keysOf e, apiKey ∈ keys) : Kept keys (step s e) (plainStep rows e) := by
  refine ⟨stepHashed apart kept.known inUse kept.same,?_,?_⟩
  · have known : ∀ apiKey ∈ (plainStep rows e).map PlainTenant.apiKey, apiKey ∈ keys := by
      have old : ∀ apiKey ∈ rows.map PlainTenant.apiKey, apiKey ∈ keys := by
        intro apiKey member
        obtain ⟨t,inside,rfl⟩ := List.mem_map.mp member
        exact kept.known t inside
      cases plainRekeyed rows e with
      | kept sub => exact fun apiKey member => old apiKey (sub.subset member)
      | added apiKey given free added =>
        intro other member
        rw [added] at member
        rcases List.mem_append.mp member with before | last
        · exact old other before
        · cases List.mem_singleton.mp last
          exact inUse apiKey (List.mem_append_left _ (by simp [given]))
    exact fun t member => known _ (List.mem_map_of_mem member)
  · cases plainRekeyed rows e with
    | kept sub => exact kept.unique.sublist sub
    | added apiKey given free added =>
      rw [Table.Distinct,added,List.nodup_append]
      refine ⟨kept.unique,List.nodup_singleton _,fun x before y last same => ?_⟩
      cases List.mem_singleton.mp last
      exact free (same ▸ before)

theorem keptRun {s : Server} {events : List Event} (apart : Apart keys) (kept : Kept keys s rows)
    (inUse : ∀ apiKey ∈ events.flatMap keysOf, apiKey ∈ keys) : Kept keys (events.foldl step s) (events.foldl plainStep rows) := by
  induction events generalizing s rows with
  | nil => exact kept
  | cons e rest ih =>
    simp only [List.flatMap_cons,List.mem_append] at inUse
    exact ih (keptStep apart kept (fun apiKey here => inUse apiKey (.inl here))) (fun apiKey here => inUse apiKey (.inr here))

/-- Old keys survive the migration and new ones are as good: whoever registers, is renamed, blocked or deleted, a key lets
its bearer in, or is turned away with the same answer, as if the keys themselves were still in the table. -/
theorem keysExact {rows : List PlainTenant} {state : State} {events : List Event} {apiKey : GoString}
    (unique : Table.Distinct PlainTenant.apiKey rows)
    (apart : Apart (apiKey::rows.map PlainTenant.apiKey ++ events.flatMap keysOf)) : ∃ tenants, migrate rows = some tenants ∧
      Table.Distinct PlainTenant.apiKey (events.foldl plainStep rows) ∧ ∀ found,
        Accounts.auth (events.foldl step ⟨tenants,state⟩).tenants apiKey found =
          (auth (events.foldl plainStep rows) apiKey found).map hashed := by
  have known : ∀ t ∈ rows, t.apiKey ∈ apiKey::rows.map PlainTenant.apiKey ++ events.flatMap keysOf := fun t member =>
    List.mem_append_left _ (List.mem_cons_of_mem _ (List.mem_map_of_mem member))
  have hashes : Table.Distinct TenantRow.apiKeyHash (rows.map hashed) := by
    rw [Table.Distinct,List.map_map]
    have mapped : (rows.map (TenantRow.apiKeyHash ∘ hashed)) = (rows.map PlainTenant.apiKey).map hashAPIKey := by
      rw [List.map_map]; rfl
    rw [mapped]
    refine List.Nodup.map_on (fun x left y right same => ?_) unique
    refine apart x ?_ y ?_ (Hex.encodeInjective same)
    · exact List.mem_append_left _ (List.mem_cons_of_mem _ left)
    · exact List.mem_append_left _ (List.mem_cons_of_mem _ right)
  have start : Kept (apiKey::rows.map PlainTenant.apiKey ++ events.flatMap keysOf) ⟨rows.map hashed,state⟩ rows :=
    ⟨rfl,known,unique⟩
  have kept := keptRun apart start (fun apiKey here => List.mem_append_right _ here)
  refine ⟨rows.map hashed,if_pos hashes,kept.unique,fun found => ?_⟩
  rw [kept.same]
  exact authHashed apart kept.known (List.mem_append_left _ List.mem_cons_self) found

end Directory

def oldTenant : PlainTenant := ⟨1,text "antigo",text "wpp_antigo",text "basic",5,20,true,0⟩

def registering : Event :=
  .call (.register (some (.obj [(text "name",.str (text "novo"))])) ⟨some ⟨List.replicate 32 7,rfl⟩,true,2,1⟩)

theorem keysExactBlocked : ∃ tenants, migrate [oldTenant] = some tenants ∧
    Table.Distinct PlainTenant.apiKey ([registering,.setActive 1 false].foldl plainStep [oldTenant]) ∧ ∀ found,
      Accounts.auth ([registering,.setActive 1 false].foldl step ⟨tenants,serving ⟨[],[]⟩⟩).tenants (text "wpp_antigo") found =
        (auth ([registering,.setActive 1 false].foldl plainStep [oldTenant]) (text "wpp_antigo") found).map hashed :=
  keysExact (by decide) (by decide +kernel)

end WppGateway.KeyDirectory
