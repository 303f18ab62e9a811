import WppGateway.ApiIsolation
import Mathlib.Data.List.Basic

/-! A list that is read page by page, newest first, while it grows at the front. No program is named here. -/
namespace WppGateway.Paging
variable {α β : Type}

def page (rows : List α) (limit number : Nat) : List α := (rows.drop (number * limit)).take limit

/- Pages from a number on, each of the list as it is then, up to one that is not full. -/
inductive Reading (limit : Nat) : Nat → List α → List (List α) → Prop where
  | last (number rows) (short : (page rows limit number).length < limit) : Reading limit number rows [page rows limit number]
  | next (number) {rows later : List α} {pages : List (List α)} (grown : rows <:+ later)
      (rest : Reading limit (number + 1) later pages) : Reading limit number rows (page rows limit number::pages)

theorem pageMap (f : α → β) (rows : List α) (limit number : Nat) :
    (page rows limit number).map f = page (rows.map f) limit number := by
  rw [page,page,List.map_take,List.map_drop]

theorem dropPage (rows : List α) (limit number : Nat) :
    rows.drop (number * limit) = page rows limit number ++ rows.drop ((number + 1) * limit) := by
  rw [page,Nat.succ_mul,← List.drop_drop,List.take_append_drop]

theorem dropGrown {rows later : List α} (grown : rows <:+ later) (n : Nat) : rows.drop n <:+ later.drop n := by
  obtain ⟨new,rfl⟩ := grown
  rcases Nat.le_total n new.length with inside | beyond
  · rw [List.drop_append_of_le_length inside]
    exact (List.drop_suffix n rows).trans (List.suffix_append _ _)
  · have here : (new ++ rows).drop n = rows.drop (n - new.length) := by
      rw [List.drop_append,List.drop_of_length_le beyond,List.nil_append]
    have same : rows.drop n = (rows.drop (n - new.length)).drop new.length := by
      rw [List.drop_drop]
      congr 1
      omega
    rw [here,same]
    exact List.drop_suffix _ _

/-- Nothing is skipped: what was there at the first page is on one of them. -/
theorem covered {limit number : Nat} {rows : List α} {pages : List (List α)} (reading : Reading limit number rows pages) :
    rows.drop (number * limit) ⊆ pages.flatten := by
  induction reading with
  | last number rows short =>
    have all : page rows limit number = rows.drop (number * limit) := by
      rw [page,List.length_take] at short
      rw [page,List.take_of_length_le (by omega)]
    rw [all,List.flatten_singleton]
    exact List.Subset.refl _
  | @next number rows later pages grown rest ih =>
    intro x member
    rw [dropPage] at member
    rcases List.mem_append.mp member with here | behind
    · exact List.mem_append_left _ here
    · exact List.mem_append_right _ (ih ((dropGrown grown _).subset behind))

end WppGateway.Paging

/-! The messages of a group read page by page over the API, while everybody goes on calling it. -/
namespace WppGateway.MessagePages
open GoJson Domain Resources Table Service ResourceHandlers Accounts TenantView TenantWrites HandlerWrites ApiIsolation
open Purging Paging

def listing (id : UUID) (s : State) : List MessageLog := (s.messages.filter (fun m => m.groupId == some id)).reverse

def listed (id : UUID) (s : State) : List UUID := (listing id s).map MessageLog.id

def Present (id : UUID) (s : State) : Prop := ∃ g ∈ s.managed.rows.groups, g.id = id

section Writes
variable {tenant id : UUID} {new : Option UUID} {used : List UUID} {s t : State}

theorem listedSame (messages : t.messages = s.messages) : listed id t = listed id s := by
  rw [listed,listing,messages]
  rfl

theorem listedMap {f : MessageLog → MessageLog} (messages : t.messages = s.messages.map f)
    (kept : ∀ m : MessageLog, (f m).id = m.id ∧ ((f m).groupId = some id ↔ m.groupId = some id)) : listed id t = listed id s := by
  rw [listed,listing,messages,List.filter_map,← List.map_reverse,List.map_map]
  have passes : (fun m : MessageLog => m.groupId == some id) ∘ f = fun m => m.groupId == some id := by
    funext m
    rw [Bool.eq_iff_iff,Function.comp_apply,beq_iff_eq,beq_iff_eq]
    exact (kept m).2
  rw [passes]
  exact List.map_congr_left (fun m _ => (kept m).1)

theorem managedGroups {key : UUID} {m : Manager.Managed} {status : Option InstanceStatus} {entry : Option (UUID × Bool)}
    (rewired : Links.Rewired s.managed key status entry m) (present : Present id (manage s m)) : Present id s := by
  obtain ⟨g,member,here⟩ := present
  change g ∈ m.rows.groups at member
  rw [rewired.rows] at member
  exact ⟨g,member,here⟩

theorem grownWrite {w : Write} (sound : Sound used s) (allowed : Allowed tenant s w) (other : ∀ key ∈ added w, key ≠ id)
    (present : Present id (write s w)) : Present id s ∧ listed id s <:+ listed id (write s w) := by
  have same {t : State} (messages : t.messages = s.messages) : listed id s <:+ listed id t := by
    exact listedSame messages ▸ List.suffix_refl _
  obtain ⟨g,member,here⟩ := present
  cases w with
  | addGroup row =>
    refine ⟨?_,same rfl⟩
    rcases List.mem_append.mp member with old | last
    · exact ⟨g,old,here⟩
    · cases List.mem_singleton.mp last
      exact absurd here (other _ rfl)
  | editGroup key f =>
    refine ⟨?_,same rfl⟩
    obtain ⟨old,inside,rfl⟩ := memUpdate.mp member
    refine ⟨old,inside,?_⟩
    split at here
    · exact ((allowed.2 old).1).symm.trans here
    · exact here
  | dropGroup key =>
    obtain ⟨inside,kept⟩ := List.mem_filter.mp member
    have apart : id ≠ key := by
      rw [← here]
      simpa using kept
    refine ⟨⟨g,inside,here⟩,?_⟩
    have listed_ : listed id (write s (.dropGroup key)) = listed id s :=
      listedMap (f := detached s key) rfl (fun m => ⟨rfl,by simp only [detached,Option.filter_eq_some_iff]; simp [apart]⟩)
    exact listed_ ▸ List.suffix_refl _
  | dropInstance key =>
    refine ⟨⟨g,member,here⟩,?_⟩
    have listed_ : listed id (write s (.dropInstance key)) = listed id s :=
      listedMap (f := fun m => {m with instanceId := m.instanceId.filter (· != key)}) rfl (fun m => ⟨rfl,Iff.rfl⟩)
    exact listed_ ▸ List.suffix_refl _
  | addMessage m =>
    refine ⟨⟨g,member,here⟩,?_⟩
    change listed id s <:+ ((s.messages ++ [m]).filter _).reverse.map _
    rw [List.filter_append,List.reverse_append,List.map_append]
    exact List.suffix_append _ _
  | editMessage key f =>
    refine ⟨⟨g,member,here⟩,?_⟩
    have listed_ : listed id (write s (.editMessage key f)) = listed id s := by
      refine listedMap (f := fun m => if m.id = key then f m else m) rfl (fun m => ?_)
      split
      · exact ⟨(allowed.2 m).1,by rw [(allowed.2 m).2.1]⟩
      · exact ⟨rfl,Iff.rfl⟩
    exact listed_ ▸ List.suffix_refl _
  | start key a =>
    obtain ⟨_,_,rewired⟩ := Links.rewiredStart sound.wired key a
    exact ⟨managedGroups rewired ⟨g,member,here⟩,same rfl⟩
  | pair key a =>
    obtain ⟨_,_,rewired⟩ := Links.rewiredPair sound.wired key a
    exact ⟨managedGroups rewired ⟨g,member,here⟩,same rfl⟩
  | stop key => exact ⟨managedGroups (Links.stopped sound.wired key) ⟨g,member,here⟩,same rfl⟩
  | emit e =>
    have beside : (write s (.emit e)).managed = s.managed ∧ (write s (.emit e)).messages = s.messages := by
      simp only [write,emit]
      split
      · exact ⟨rfl,rfl⟩
      · split <;> exact ⟨rfl,rfl⟩
    rw [beside.1] at member
    exact ⟨⟨g,member,here⟩,same beside.2⟩
  | addInstance | editInstance | keepStrategy | setPaused | insert | remove | send => exact ⟨⟨g,member,here⟩,same rfl⟩

theorem grownWrites {ws : List Write} (sound : Sound used s) (known : ∀ key ∈ new, key ∈ used) (apart : ∀ key ∈ new, key ≠ id)
    (does : Does tenant new s ws) (present : Present id (writes s ws)) :
    Present id s ∧ listed id s <:+ listed id (writes s ws) := by
  induction ws generalizing s new with
  | nil => exact ⟨present,List.suffix_refl _⟩
  | cons w rest ih =>
    obtain ⟨allowed,adds,later⟩ := does
    have next := soundWrite sound allowed (fun key is => known key (adds key is))
    obtain ⟨there,grown⟩ := ih next (leftOf w known) (leftOf w apart) later present
    obtain ⟨before,first⟩ := grownWrite sound allowed (fun key is => apart key (adds key is)) there
    exact ⟨before,first.trans grown⟩

end Writes

section Calls
variable {id : UUID} {used : List UUID} {s : Server}

theorem grownCall {c : Call} (sound : Sound used s.state) (fresh : Fresh used c) :
    Sound (grow used c) (serve s c).1.state ∧ (id ∈ used → Present id (serve s c).1.state →
      Present id s.state ∧ listed id s.state <:+ listed id (serve s c).1.state) := by
  obtain ⟨tenant,ws,made,does⟩ := serveDoes sound fresh
  have more := soundMore sound (idOf c)
  rw [made]
  exact ⟨soundWrites more (newKnown _ _) does,
    fun inside => grownWrites more (newKnown _ _) (fun key is same => fresh (Option.some.inj is ▸ same ▸ inside)) does⟩

theorem grownCalls {calls : List Call} (sound : Sound used s.state) (admitted : Admitted Fresh grow used calls) :
    Sound (calls.foldl grow used) (final observe s calls).state ∧
      (id ∈ used → Present id (final observe s calls).state →
        Present id s.state ∧ listed id s.state <:+ listed id (final observe s calls).state) := by
  induction calls generalizing s used with
  | nil => exact ⟨sound,fun _ present => ⟨present,List.suffix_refl _⟩⟩
  | cons c rest ih =>
    obtain ⟨fresh,later⟩ := admitted
    obtain ⟨next,step⟩ := @grownCall id _ _ _ sound fresh
    obtain ⟨after,tail⟩ := ih next later
    refine ⟨after,fun known present => ?_⟩
    obtain ⟨there,grown⟩ := tail (List.mem_cons_of_mem _ known) present
    obtain ⟨before,first⟩ := step known there
    exact ⟨before,first.trans grown⟩

end Calls

/- How many rows a page has: the handler allows 200 and the repository makes 50 of what is not positive. -/
def pageSize (limit : Option Int) : Nat :=
  let limit := min (limit.getD 50) 200
  (if limit ≤ 0 then 50 else limit).toNat

def pageCall (apiKey : GoString) (q : Req) (a : Answers) (number : Nat) : Call :=
  .v1 apiKey true (.resource .messageListByGroup)
    {q with offset := some (number * pageSize q.limit : Nat), status := none, recipient := none, instanceFilter := none} a

def rowsOf (x : Answer) : Option (List MessageLog) :=
  match x.shown with
  | some (.content (.messages rows _)) => some rows
  | _ => none

/- Pages that are asked for until one is not full. Between two of them anybody calls. -/
inductive Browsed (apiKey : GoString) (q : Req) : List UUID → Nat → Server → List (List MessageLog) → Prop where
  | last (used number s a rows) (fresh : a.id ∉ used)
      (answered : rowsOf (serve s (pageCall apiKey q a number)).2 = some rows) (short : rows.length < pageSize q.limit) :
      Browsed apiKey q used number s [rows]
  | next (used number s a rows) (calls : List Call) {pages : List (List MessageLog)} (fresh : a.id ∉ used)
      (answered : rowsOf (serve s (pageCall apiKey q a number)).2 = some rows)
      (admitted : Admitted Fresh grow (a.id::used) calls)
      (rest : Browsed apiKey q (calls.foldl grow (a.id::used)) (number + 1)
        (final observe (serve s (pageCall apiKey q a number)).1 calls) pages) :
      Browsed apiKey q used number s (rows::pages)

section Pages
variable {apiKey : GoString} {q : Req} {id : UUID} {used : List UUID} {s : Server} {number : Nat}

theorem authRefuses {rows : List TenantRow} {found : Bool} {reply : Reply} (refused : auth rows apiKey found = .error reply) :
    rowsOf (answer reply) = none := by
  unfold auth at refused
  split at refused
  · cases refused; rfl
  split at refused
  · cases refused; rfl
  split at refused
  · cases refused; rfl
  · split at refused <;> cases refused
    rfl

theorem foundUnfiltered (s : State) (key : UUID) {q : Req} (limit : Option Int) (number : Nat) (status : q.status = none)
    (recipient : q.recipient = none) (instances : q.instanceFilter = none) :
    findMessages s key q (min (limit.getD 50) 200) (number * pageSize limit : Nat) =
      some (page (listing key s) (pageSize limit) number,((listing key s).length : Int)) := by
  have whole : (s.messages.filter (fun m => m.groupId == some key && true && true && true)) =
      s.messages.filter (fun m => m.groupId == some key) := by simp only [Bool.and_true]
  have positive : ¬ ((number * pageSize limit : Nat) : Int) < 0 := by omega
  simp only [findMessages,status,recipient,instances,Option.all_none,whole,if_neg positive,listing,List.length_reverse]
  rfl

theorem pageAnswered {a : Answers} {rows : List MessageLog} (parsed : q.group.parsed = some id)
    (answered : rowsOf (serve s (pageCall apiKey q a number)).2 = some rows) :
    Present id s.state ∧ rows = page (listing id s.state) (pageSize q.limit) number ∧
      (serve s (pageCall apiKey q a number)).1 = s := by
  unfold pageCall at answered ⊢
  simp only [serve] at answered ⊢
  cases passed : auth s.tenants apiKey true with
  | error reply => rw [passed] at answered; simp only [authRefuses passed] at answered; cases answered
  | ok t =>
    simp only [passed,serveRoute,handle,messageListByGroup,withGroup,parsed] at answered ⊢
    cases group : a.group with
    | false => simp only [group] at answered; cases answered
    | true =>
      cases found : groupById s.state.managed.rows id with
      | none => simp only [group,found] at answered; cases answered
      | some g =>
        obtain ⟨member,here⟩ := findMember found
        by_cases foreign : g.tenantId ≠ (tenantOf t).id
        · simp only [group,found,if_pos foreign] at answered; cases answered
        · refine ⟨⟨g,member,here⟩,?_⟩
          simp only [group,found,if_neg foreign,Option.getD_some] at answered ⊢
          rw [here] at answered ⊢
          cases read : a.read with
          | false => simp only [read] at answered; cases answered
          | true =>
            rw [foundUnfiltered _ _ q.limit number rfl rfl rfl] at answered ⊢
            simp only [read,if_true] at answered ⊢
            exact ⟨(Option.some.inj answered).symm,rfl⟩

theorem browsedReading {pages : List (List MessageLog)} (sound : Sound used s.state) (parsed : q.group.parsed = some id)
    (browsed : Browsed apiKey q used number s pages) : Present id s.state ∧
      Reading (pageSize q.limit) number (listed id s.state) (pages.map (List.map MessageLog.id)) := by
  induction browsed with
  | last used number s a rows fresh answered short =>
    obtain ⟨present,rfl,_⟩ := pageAnswered parsed answered
    refine ⟨present,?_⟩
    have same : (page (listing id s.state) (pageSize q.limit) number).map MessageLog.id =
      page (listed id s.state) (pageSize q.limit) number := pageMap ..
    rw [List.map_singleton,same]
    refine .last number _ ?_
    rw [← same,List.length_map]
    exact short
  | next used number s a rows calls fresh answered admitted rest ih =>
    obtain ⟨present,rfl,kept⟩ := pageAnswered parsed answered
    rw [kept] at rest ih
    obtain ⟨after,tail⟩ := @grownCalls id _ _ _ (soundMore sound a.id) admitted
    obtain ⟨there,reading⟩ := ih after
    have known : id ∈ used := by
      by_contra new
      obtain ⟨g,member,here⟩ := present
      exact (sound.known id new).groups g member here
    obtain ⟨_,grown⟩ := tail (List.mem_cons_of_mem _ known) there
    refine ⟨present,?_⟩
    rw [List.map_cons,pageMap]
    exact .next number grown reading

/-- Whoever calls in between, and whatever it does, every message that the group had at the first page is on one of the
pages. -/
theorem pagesCover {pages : List (List MessageLog)} (sound : Sound used s.state) (parsed : q.group.parsed = some id)
    (browsed : Browsed apiKey q used 0 s pages) :
    ∀ m ∈ s.state.messages, m.groupId = some id → ∃ rows ∈ pages, ∃ shown ∈ rows, shown.id = m.id := by
  intro m member inGroup
  have all := covered (browsedReading sound parsed browsed).2
  rw [Nat.zero_mul,List.drop_zero] at all
  have mine : m.id ∈ listed id s.state :=
    List.mem_map_of_mem (List.mem_reverse.mpr (List.mem_filter.mpr ⟨member,by simpa using inGroup⟩))
  obtain ⟨ids,inside,here⟩ := List.mem_flatten.mp (all mine)
  obtain ⟨rows,among,rfl⟩ := List.mem_map.mp inside
  obtain ⟨shown,there,same⟩ := List.mem_map.mp here
  exact ⟨rows,among,shown,there,same⟩

end Pages

def logged (id : UUID) : MessageLog := ⟨id,some 1,some 11,text "5511999999999",text "text",.sent,none,0⟩

def stocked : Server := ⟨[account 100 (text "wpp_1")],
  {serving sampleRows with
    managed := ⟨{sampleRows with instances := [{instanceRow 11 1 with status := .available}]},[⟨11,1,0⟩],[⟨11,true,true⟩]⟩
    messages := [logged 31,logged 32]}⟩

def request : Req := {asking (tenantOf (account 100 (text "wpp_1"))) 1 11 with limit := some 1}

def sending (id : UUID) : Call := .v1 (text "wpp_1") true (.resource .messageSend)
  {request with body := some (Gateway.sampleBody "5511999999999" "text" Gateway.sampleContent)} {answering with id := id}

theorem stockedSound : Sound [1,11,31,32] stocked.state := by
  refine ⟨List.nodup_singleton _,List.nodup_singleton _,by decide,?_,?_,⟨List.nodup_singleton _,?_⟩,fun id new => ?_⟩
  · intro i member
    cases List.mem_singleton.mp member
    exact ⟨groupRow 1 100,List.mem_singleton_self _,rfl⟩
  · intro m member i inside _
    cases List.mem_singleton.mp inside
    rcases List.mem_pair.mp member with rfl | rfl <;> rfl
  · intro c member
    cases List.mem_singleton.mp member
    rfl
  · simp only [List.mem_cons,List.not_mem_nil,or_false,not_or] at new
    obtain ⟨one,eleven,first,second⟩ := new
    refine ⟨fun g member => ?_,fun i member => ?_,fun m member => ?_,fun _ member => (by cases member),fun c member => ?_,rfl,rfl⟩
    · cases List.mem_singleton.mp member; exact Ne.symm one
    · cases List.mem_singleton.mp member; exact Ne.symm eleven
    · rcases List.mem_pair.mp member with rfl | rfl
      · exact ⟨Ne.symm first,fun same => one (Option.some.inj same).symm,fun same => eleven (Option.some.inj same).symm⟩
      · exact ⟨Ne.symm second,fun same => one (Option.some.inj same).symm,fun same => eleven (Option.some.inj same).symm⟩
    · cases List.mem_singleton.mp member; exact Ne.symm eleven

theorem pagesCoverSent : ∃ pages, Browsed (text "wpp_1") request [1,11,31,32] 0 stocked pages ∧
    ∀ m ∈ stocked.state.messages, m.groupId = some 1 → ∃ rows ∈ pages, ∃ shown ∈ rows, shown.id = m.id := by
  have browsed : Browsed (text "wpp_1") request [1,11,31,32] 0 stocked [[logged 32],[logged 32],[logged 31],[]] :=
    .next _ 0 _ {answering with id := 50} _ [sending 42] (by decide) (by decide +kernel) ⟨by unfold Fresh; decide,trivial⟩
      (.next _ 1 _ {answering with id := 51} _ [] (by decide) (by decide +kernel) trivial
        (.next _ 2 _ {answering with id := 52} _ [] (by decide) (by decide +kernel) trivial
          (.last _ 3 _ {answering with id := 53} _ (by decide) (by decide +kernel) (by decide))))
  exact ⟨_,browsed,pagesCover stockedSound rfl browsed⟩

end WppGateway.MessagePages
