import WppGateway.Accounts
import WppGateway.HandlerWrites
import WppGateway.Purging

/-! The API as one tenant sees it: what it is answered, what it sends and what it has are the same as if nobody else
had called, and as if nobody else had anything. -/
namespace WppGateway.ApiIsolation
open GoJson Domain Resources Table Service ResourceHandlers Accounts TenantView TenantWrites HandlerWrites Purging

def observe (s : Server) (c : Call) : Server × Answer × List (UUID × GoString × GoString) :=
  ((serve s c).1,(serve s c).2,(serve s c).1.state.sends.drop s.state.sends.length)

def calledWith (hash : GoString) : Call → Bool
  | .register _ _ => false
  | .v1 apiKey _ _ _ _ => hashAPIKey apiKey == hash

def idOf : Call → UUID
  | .register _ a => a.id
  | .v1 _ _ _ _ a => a.id

def looked : Call → Bool
  | .register _ _ => true
  | .v1 _ _ _ _ a => a.group

/- Ids are new, and the tenant's own calls get an answer about groups: without one an instance of somebody else is
told from one that is not there. -/
def Fits (hash : GoString) (used : List UUID) (c : Call) : Prop :=
  idOf c ∉ used ∧ (calledWith hash c = true → looked c = true)

def grow (used : List UUID) (c : Call) : List UUID := idOf c::used

structure Registered (used : List UUID) (account : TenantRow) (rows : List TenantRow) : Prop where
  ids : Distinct TenantRow.id rows
  hashes : Distinct TenantRow.apiKeyHash rows
  member : account ∈ rows
  known : ∀ t ∈ rows, t.id ∈ used

structure Alike (tenant : UUID) (hash : GoString) (used : List UUID) (s t : Server) : Prop where
  same : SameFor tenant s.state t.state
  left : Sound used s.state
  right : Sound used t.state
  account : ∃ row : TenantRow, row.id = tenant ∧ row.apiKeyHash = hash ∧ Registered used row s.tenants ∧
    Registered used row t.tenants

section Tenants
variable {used : List UUID} {account : TenantRow} {rows : List TenantRow} {id : UUID}

theorem registeredMore (registered : Registered used account rows) (id : UUID) : Registered (id::used) account rows :=
  {registered with known := fun t member => List.mem_cons_of_mem _ (registered.known t member)}

theorem registeredFound (registered : Registered used account rows) {apiKey : GoString}
    (mine : hashAPIKey apiKey = account.apiKeyHash) : findByAPIKey rows apiKey = some account := by
  have equal : (fun t : TenantRow => t.apiKeyHash == account.apiKeyHash) =
      (fun t => decide (t.apiKeyHash = account.apiKeyHash)) := by
    funext t
    rw [Bool.eq_iff_iff,beq_iff_eq,decide_eq_true_iff]
  rw [findByAPIKey,mine,equal]
  exact findKey registered.hashes registered.member

theorem registeredCreate (registered : Registered used account rows) {createdAt : Int}
    {name apiKey : GoString} {later : List TenantRow} {t : TenantRow}
    (made : create rows id createdAt name apiKey = some (later,t)) : Registered (id::used) account later := by
  simp only [create,bind,Option.bind_eq_some_iff] at made
  obtain ⟨_,_,hash,_,made⟩ := made
  split at made
  · cases made
  next free =>
  cases made
  simp only [List.any_eq_true,Bool.or_eq_true,beq_iff_eq,not_exists,not_and,not_or] at free
  refine ⟨distinctAppend registered.ids (List.nodup_singleton _) (fun a last b old same => ?_),
    distinctAppend registered.hashes (List.nodup_singleton _) (fun a last b old same => ?_),
    List.mem_append_left _ registered.member,fun t inside => ?_⟩
  · cases List.mem_singleton.mp last
    exact (free b old).1 same
  · cases List.mem_singleton.mp last
    exact (free b old).2 same
  · rcases List.mem_append.mp inside with old | last
    · exact List.mem_cons_of_mem _ (registered.known t old)
    · cases List.mem_singleton.mp last
      exact List.mem_cons_self

theorem createTenantRows (rows : List TenantRow) (body : Option Json) (a : Registering) :
    (createTenant rows body a).1 = rows ∨
      ∃ name apiKey t, create rows a.id a.createdAt name apiKey = some ((createTenant rows body a).1,t) := by
  unfold createTenant
  split
  · exact .inl rfl
  split
  · exact .inl rfl
  split
  · exact .inl rfl
  next random _ =>
  cases a.write with
  | false => exact .inl rfl
  | true =>
    split
    · exact .inl rfl
    · next name _ _ _ _ _ later t made => exact .inr ⟨name,generateAPIKey random,t,made⟩

theorem registeredEdit (registered : Registered used account rows) (name : Option GoString) (id : UUID) :
    Registered used (if account.id = id then rename name account else account)
      (Table.update TenantRow.id id (rename name) rows) := by
  have hashes : (Table.update TenantRow.id id (rename name) rows).map TenantRow.apiKeyHash = rows.map TenantRow.apiKeyHash := by
    rw [Table.update,List.map_map]
    refine List.map_congr_left (fun t _ => ?_)
    simp only [Function.comp_apply]
    split <;> rfl
  refine ⟨distinctUpdate (fun _ => rfl) registered.ids,?_,memUpdate.mpr ⟨account,registered.member,rfl⟩,fun t inside => ?_⟩
  · rw [Distinct,hashes]
    exact registered.hashes
  obtain ⟨old,before,rfl⟩ := memUpdate.mp inside
  split
  · exact registered.known old before
  · exact registered.known old before

theorem updateMade (name : Option GoString) : (∀ (rows : List TenantRow) (id : UUID), Accounts.update rows id name = none) ∨
    ∃ kept, ∀ (rows : List TenantRow) (id : UUID), Accounts.update rows id name =
      some (Table.update TenantRow.id id (rename kept) rows,(rows.find? (fun t => t.id == id)).map (rename kept)) := by
  simp only [Accounts.update,bind]
  cases Resources.nullable (Store.varchar 255) name with
  | none => exact .inl (fun _ _ => rfl)
  | some kept => exact .inr ⟨kept,fun _ _ => rfl⟩

end Tenants

theorem authMember {rows : List TenantRow} {apiKey : GoString} {found : Bool} {t : TenantRow}
    (passed : auth rows apiKey found = .ok t) : t ∈ rows ∧ t.apiKeyHash = hashAPIKey apiKey := by
  unfold auth at passed
  split at passed
  · cases passed
  split at passed
  · cases passed
  cases row : findByAPIKey rows apiKey with
  | none => rw [row] at passed; cases passed
  | some other =>
    simp only [row] at passed
    split at passed <;> cases passed
    exact ⟨List.mem_of_find?_eq_some row,by simpa using List.find?_some row⟩

theorem serveDoes {s : Server} {used : List UUID} {c : Call} (sound : Sound used s.state) (fresh : idOf c ∉ used) :
    ∃ tenant ws, (serve s c).1.state = writes s.state ws ∧ Does tenant (some (idOf c)) s.state ws := by
  cases c with
  | register body a => exact ⟨0,[],rfl,trivial⟩
  | v1 apiKey found route q a =>
    cases passed : auth s.tenants apiKey found with
    | error reply => exact ⟨0,[],by simp only [serve,passed]; rfl,trivial⟩
    | ok t =>
      simp only [serve,passed]
      cases route with
      | resource e =>
        have pair : Pair t.id a.id used s.state s.state := ⟨sameRefl t.id s.state,sound,sound,fresh⟩
        have own : ∀ row : Tenant, some (tenantOf t) = some row → row.id = t.id := fun row is => (by cases is; rfl)
        obtain ⟨_,ws,made,_,does,_⟩ := handleAgrees (q := {q with tenant := some (tenantOf t)}) pair own (.inr rfl) e
        exact ⟨t.id,ws,made,does⟩
      | _ => exact ⟨0,[],rfl,trivial⟩

def Fresh (used : List UUID) (c : Call) : Prop := idOf c ∉ used

section Kept
variable {Inv : State → Prop} {used : List UUID}
  (kept : ∀ tenant s w, Sound used s → Allowed tenant s w → Inv s → Inv (write s w))
include kept

theorem writesKeep {tenant : UUID} {new : Option UUID} {s : State} {ws : List Write} (sound : Sound used s)
    (known : ∀ key ∈ new, key ∈ used) (does : Does tenant new s ws) (inv : Inv s) : Inv (writes s ws) := by
  induction ws generalizing s new with
  | nil => exact inv
  | cons w rest ih =>
    obtain ⟨allowed,adds,later⟩ := does
    have next := soundWrite sound allowed (fun key is => known key (adds key is))
    exact ih next (leftOf w known) later (kept tenant s w sound allowed inv)

end Kept

theorem callsKeep {Inv : State → Prop} {used : List UUID} {s : Server} {calls : List Call}
    (kept : ∀ used tenant s w, Sound used s → Allowed tenant s w → Inv s → Inv (write s w)) (sound : Sound used s.state)
    (admitted : Admitted Fresh grow used calls) (inv : Inv s.state) :
    Sound (calls.foldl grow used) (final observe s calls).state ∧ Inv (final observe s calls).state := by
  induction calls generalizing s used with
  | nil => exact ⟨sound,inv⟩
  | cons c rest ih =>
    obtain ⟨fresh,later⟩ := admitted
    obtain ⟨tenant,ws,made,does⟩ := serveDoes sound fresh
    have more := soundMore sound (idOf c)
    have next : Sound (grow used c) (serve s c).1.state := by
      rw [made]
      exact soundWrites more (newKnown _ _) does
    have still : Inv (serve s c).1.state := by
      rw [made]
      exact writesKeep (kept _) more (newKnown _ _) does inv
    exact ih next later still

section Step
variable {tenant : UUID} {hash : GoString} {used : List UUID} {s t : Server}

theorem alikeTenants (alike : Alike tenant hash used s t) {rows others : List TenantRow} {id : UUID}
    (account : ∃ row : TenantRow, row.id = tenant ∧ row.apiKeyHash = hash ∧ Registered (id::used) row rows ∧
      Registered (id::used) row others) :
    Alike tenant hash (id::used) {s with tenants := rows} {t with tenants := others} :=
  ⟨alike.same,soundMore alike.left id,soundMore alike.right id,account⟩

theorem alikeMore (alike : Alike tenant hash used s t) (id : UUID) : Alike tenant hash (id::used) s t := by
  obtain ⟨row,here,key,left,right⟩ := alike.account
  exact ⟨alike.same,soundMore alike.left id,soundMore alike.right id,row,here,key,registeredMore left id,registeredMore right id⟩

theorem foreignRoute (alike : Alike tenant hash used s t) {other : TenantRow} {route : Route} {q : Req} {a : Answers}
    (apart : other.id ≠ tenant) (new : a.id ∉ used) : Alike tenant hash (a.id::used) (serveRoute s other q a route).1 t := by
  have more := alikeMore alike a.id
  cases route with
  | resource e =>
    have pair : Pair other.id a.id used s.state s.state := ⟨sameRefl other.id s.state,alike.left,alike.left,new⟩
    have own : ∀ row : Tenant, some (tenantOf other) = some row → row.id = other.id := fun row is => (by cases is; rfl)
    obtain ⟨_,ws,made,_,does,_⟩ := handleAgrees (q := {q with tenant := some (tenantOf other)}) pair own (.inr rfl) e
    have sound := soundMore alike.left a.id
    have framed := frameWrites sound (newKnown _ _) does apart.symm
    have later : Alike tenant hash (a.id::used) {s with state := writes s.state ws} t :=
      {more with same := sameTrans (sameSymm framed) alike.same, left := soundWrites sound (newKnown _ _) does}
    rw [← made] at later
    exact later
  | groupList => exact more
  | getAccount => exact more
  | getUsage => exact more
  | updateAccount =>
    obtain ⟨row,here,key,left,right⟩ := more.account
    have kept (name : Option GoString) :
        Alike tenant hash (a.id::used) {s with tenants := Table.update TenantRow.id other.id (rename name) s.tenants} t := by
      have edited := registeredEdit left name other.id
      rw [if_neg (fun same => apart (same.symm.trans here))] at edited
      exact alikeTenants alike ⟨row,here,key,edited,right⟩
    simp only [serveRoute,updateAccount]
    split
    · exact more
    next name _ =>
    cases a.write with
    | false => exact more
    | true =>
      rcases updateMade name with none_ | ⟨value,made⟩
      · simp only [none_]
        exact more
      · simp only [made,if_true]
        exact kept value

def SameReply (s t : Server) (x y : Server × Answer) : Prop :=
  x.2 = y.2 ∧ x.1.state.sends.drop s.state.sends.length = y.1.state.sends.drop t.state.sends.length

theorem sameReply {rows others : List TenantRow} {x : Answer} :
    SameReply s t ({s with tenants := rows},x) ({t with tenants := others},x) :=
  ⟨rfl,List.drop_length.trans List.drop_length.symm⟩

theorem ownRoute (alike : Alike tenant hash used s t) {row : TenantRow} {route : Route} {q : Req} {a : Answers}
    (here : row.id = tenant) (key : row.apiKeyHash = hash) (left : Registered used row s.tenants)
    (right : Registered used row t.tenants) (new : a.id ∉ used) (group : a.group = true) :
    SameReply s t (serveRoute s row q a route) (serveRoute t row q a route) ∧
      Alike tenant hash (a.id::used) (serveRoute s row q a route).1 (serveRoute t row q a route).1 := by
  have more := alikeMore alike a.id
  subst here
  cases route with
  | resource e =>
    have pair : Pair row.id a.id used s.state t.state := ⟨alike.same,alike.left,alike.right,new⟩
    have own : ∀ r : Tenant, some (tenantOf row) = some r → r.id = row.id := fun r is => (by cases is; rfl)
    obtain ⟨answered,ws,first,second,does,also⟩ :=
      handleAgrees (q := {q with tenant := some (tenantOf row)}) pair own (.inl group) e
    have soundLeft := soundMore alike.left a.id
    have soundRight := soundMore alike.right a.id
    have later : Alike row.id hash (a.id::used) {s with state := writes s.state ws} {t with state := writes t.state ws} :=
      {more with same := bothWrites alike.same soundLeft soundRight (newKnown _ _) does also,
                 left := soundWrites soundLeft (newKnown _ _) does,
                 right := soundWrites soundRight (newKnown _ _) also}
    refine ⟨⟨congrArg answer answered.symm,?_⟩,?_⟩
    · change (handle e s.state {q with tenant := some (tenantOf row)} a).1.sends.drop s.state.sends.length =
        (handle e t.state {q with tenant := some (tenantOf row)} a).1.sends.drop t.state.sends.length
      rw [first,second,writesSends,writesSends,List.drop_left,List.drop_left]
    · rw [← first,← second] at later
      exact later
  | groupList =>
    have listed : groupList t.state row a = groupList s.state row a := by
      have same : groupsOf t.state.managed.rows row.id = groupsOf s.state.managed.rows row.id :=
        congrArg List.reverse alike.same.groups
      rw [groupList,groupList,same]
    simp only [serveRoute,listed]
    exact ⟨sameReply,more⟩
  | getAccount => exact ⟨sameReply,more⟩
  | getUsage =>
    have counted : getUsage t.state row a = getUsage s.state row a := by
      rw [getUsage,getUsage,countGroupsOwn,countGroupsOwn,countInstancesOwn,countInstancesOwn,alike.same.groups,
        alike.same.instances]
    simp only [serveRoute,counted]
    exact ⟨sameReply,more⟩
  | updateAccount =>
    have found {rows : List TenantRow} (registered : Registered used row rows) :
        rows.find? (fun r => r.id == row.id) = some row := findKey registered.ids registered.member
    simp only [serveRoute,updateAccount]
    split
    · exact ⟨sameReply,more⟩
    next name _ =>
    cases a.write with
    | false => exact ⟨sameReply,more⟩
    | true =>
      rcases updateMade name with none_ | ⟨value,made⟩
      · simp only [none_]
        exact ⟨sameReply,more⟩
      · simp only [made,if_true,found left,found right]
        have editedLeft := registeredEdit (registeredMore left a.id) value row.id
        have editedRight := registeredEdit (registeredMore right a.id) value row.id
        rw [if_pos rfl] at editedLeft editedRight
        exact ⟨sameReply,alikeTenants alike ⟨rename value row,rfl,key,editedLeft,editedRight⟩⟩

theorem foreignCall (alike : Alike tenant hash used s t) {c : Call} (fits : Fits hash used c)
    (foreign : calledWith hash c = false) : Alike tenant hash (grow used c) (serve s c).1 t := by
  have more := alikeMore alike (idOf c)
  obtain ⟨row,here,key,left,right⟩ := alike.account
  cases c with
  | register body a =>
    have later : Registered (a.id::used) row (createTenant s.tenants body a).1 := by
      rcases createTenantRows s.tenants body a with same | ⟨_,_,_,made⟩
      · rw [same]
        exact registeredMore left a.id
      · exact registeredCreate left made
    exact alikeTenants alike ⟨row,here,key,later,registeredMore right a.id⟩
  | v1 apiKey found route q a =>
    cases passed : auth s.tenants apiKey found with
    | error reply => simp only [serve,passed]; exact more
    | ok other =>
      simp only [serve,passed]
      refine foreignRoute alike (fun same => ?_) fits.1
      obtain ⟨inside,hashed⟩ := authMember passed
      cases sameRow left.ids inside left.member (same.trans here.symm)
      rw [calledWith,beq_eq_false_iff_ne] at foreign
      exact foreign (hashed.symm.trans key)

theorem ownCall (alike : Alike tenant hash used s t) {c : Call} (fits : Fits hash used c)
    (mine : calledWith hash c = true) : (observe s c).2 = (observe t c).2 ∧
      Alike tenant hash (grow used c) (serve s c).1 (serve t c).1 := by
  have more := alikeMore alike (idOf c)
  obtain ⟨row,here,key,left,right⟩ := alike.account
  cases c with
  | register body a => cases mine
  | v1 apiKey found route q a =>
    have hashed : hashAPIKey apiKey = row.apiKeyHash := (eq_of_beq mine).trans key.symm
    have same : auth t.tenants apiKey found = auth s.tenants apiKey found := by
      rw [auth,auth,registeredFound left hashed,registeredFound right hashed]
    cases passed : auth s.tenants apiKey found with
    | error reply =>
      simp only [observe,serve,same,passed,List.drop_length]
      exact ⟨trivial,more⟩
    | ok other =>
      obtain ⟨inside,also⟩ := authMember passed
      cases sameRow left.hashes inside left.member (also.trans hashed)
      have both : SameReply s t (serveRoute s row q a route) (serveRoute t row q a route) ∧ _ :=
        ownRoute alike here key left right fits.1 (fits.2 mine)
      simp only [observe,serve,same,passed]
      exact ⟨Prod.ext both.1.1 both.1.2,both.2⟩

theorem unwinds (tenant : UUID) (hash : GoString) :
    Unwinds observe (calledWith hash) (Fits hash) grow (Alike tenant hash) :=
  ⟨fun _ _ _ _ alike fits foreign => foreignCall alike fits foreign,
    fun _ _ _ _ alike fits mine => ownCall alike fits mine⟩

end Step

/-- Whatever everybody calls, in any order, what a tenant is answered, what it hands to WhatsApp and what it has are what
they would be if only its own calls were made, and to a server on which the others may have nothing. -/
theorem callsPurged {tenant : UUID} {hash : GoString} {used : List UUID} {s t : Server} {calls : List Call}
    (alike : Alike tenant hash used s t) (admitted : Admitted (Fits hash) grow used calls) :
    replies observe (calledWith hash) s calls = replies observe (calledWith hash) t (calls.filter (calledWith hash)) ∧
      Alike tenant hash (calls.foldl grow used) (final observe s calls) (final observe t (calls.filter (calledWith hash))) :=
  purged (unwinds tenant hash) alike admitted

def account (id : UUID) (apiKey : GoString) : TenantRow := ⟨id,[],hashAPIKey apiKey,text "basic",5,20,true,0⟩

theorem soundEmpty (used : List UUID) : Sound used (serving ⟨[],[]⟩) :=
  ⟨List.nodup_nil,List.nodup_nil,List.nodup_nil,fun _ member => (by cases member),fun _ member => (by cases member),
    ⟨List.nodup_nil,fun _ member => (by cases member)⟩,
    fun _ _ => ⟨fun _ member => (by cases member),fun _ member => (by cases member),fun _ member => (by cases member),
      fun _ member => (by cases member),fun _ member => (by cases member),rfl,rfl⟩⟩

def creating (apiKey : GoString) (id : UUID) : Call :=
  .v1 apiKey true (.resource .groupCreate)
    {asking (tenantOf (account 0 apiKey)) 0 0 with body := some (.obj [(text "name",.str (text "main"))])}
    {answering with id := id}

theorem callsPurgedBetween :
    replies observe (calledWith (hashAPIKey (text "wpp_1")))
        ⟨[account 1 (text "wpp_1"),account 2 (text "wpp_2")],serving ⟨[],[]⟩⟩
        [creating (text "wpp_1") 3,creating (text "wpp_2") 4,creating (text "wpp_1") 5] =
      replies observe (calledWith (hashAPIKey (text "wpp_1"))) ⟨[account 1 (text "wpp_1")],serving ⟨[],[]⟩⟩
        [creating (text "wpp_1") 3,creating (text "wpp_1") 5] := by
  have apart : (hashAPIKey (text "wpp_2") == hashAPIKey (text "wpp_1")) = false := by decide +kernel
  have alike : Alike 1 (hashAPIKey (text "wpp_1")) [1,2] ⟨[account 1 (text "wpp_1"),account 2 (text "wpp_2")],serving ⟨[],[]⟩⟩
      ⟨[account 1 (text "wpp_1")],serving ⟨[],[]⟩⟩ :=
    ⟨sameRefl _ _,soundEmpty _,soundEmpty _,account 1 (text "wpp_1"),rfl,rfl,
      ⟨by decide,by decide +kernel,List.mem_cons_self,by decide +kernel⟩,
      ⟨by decide,List.nodup_singleton _,List.mem_cons_self,by decide +kernel⟩⟩
  have admitted : Admitted (Fits (hashAPIKey (text "wpp_1"))) grow [1,2]
      [creating (text "wpp_1") 3,creating (text "wpp_2") 4,creating (text "wpp_1") 5] :=
    ⟨⟨by decide,fun _ => rfl⟩,⟨by decide,fun _ => rfl⟩,⟨by decide,fun _ => rfl⟩,trivial⟩
  have purged := (callsPurged alike admitted).1
  have filtered {p : Call → Bool} {a b c : Call} (first : p a = true) (other : p b = false) (last : p c = true) :
      [a,b,c].filter p = [a,c] := by simp [first,other,last]
  have mine : calledWith (hashAPIKey (text "wpp_1")) (creating (text "wpp_1") 3) = true := beq_self_eq_true _
  have theirs : calledWith (hashAPIKey (text "wpp_1")) (creating (text "wpp_2") 4) = false := apart
  have again : calledWith (hashAPIKey (text "wpp_1")) (creating (text "wpp_1") 5) = true := beq_self_eq_true _
  exact purged.trans (congrArg _ (filtered mine theirs again))

end WppGateway.ApiIsolation
