import WppGateway.Manager
import WppGateway.Processes
import WppGateway.Runs
import Mathlib.Algebra.Order.Ring.Rat

/-! The requests about an instance, the events of its clients and the health checks, a
statement at a time. The manager's map has a lock; the status column has none. -/
namespace WppGateway.Lifecycle
open GoJson Domain Store Table Resources Manager Processes Runs

inductive Op where
  | connect | pair | disconnect | restart | delete
  deriving DecidableEq, Repr

inductive ClientEvent where
  | connected | disconnected | loggedOut
  deriving DecidableEq, Repr

/- The next statement of a process. A start that follows the stop of a restart is one `again`. -/
inductive Process where
  | verify (op : Op) (tenant id : UUID)
  | verifyGroup (op : Op) (tenant id groupId : UUID)
  | startLock (again : Bool) (id : UUID)
  | startFind (again : Bool) (id : UUID)
  | startDevice (again : Bool) (id groupId : UUID)
  | startConnecting (id : UUID) (client : Nat)
  | startConnect (id : UUID) (client : Nat)
  | startUndo (id : UUID)
  | pairLock (id : UUID)
  | pairFind (id : UUID)
  | pairDevice (id groupId : UUID)
  | pairConnect (id : UUID) (client : Nat)
  | pairCode (id : UUID)
  | stopLock (op : Op) (id : UUID)
  | disconnect (id : UUID)
  | deleteRow (id : UUID)
  | handleEvent (id : UUID) (event : ClientEvent)
  | eventRead (id : UUID) (event : ClientEvent)
  | updatePhone (id : UUID) (phone : GoString)
  | checkAll
  | checkInstance (todo : List (UUID × Nat))
  | checkSocket (inst : InstanceRow) (client : Nat) (todo : List (UUID × Nat))
  | checkWrite (id : UUID) (status : InstanceStatus) (todo : List (UUID × Nat))
  | done
  deriving DecidableEq, Repr

inductive Writer where
  | insert | manager | request | event | health
  deriving DecidableEq, Repr

structure Write where
  id : UUID
  status : InstanceStatus
  writer : Writer
  deriving DecidableEq, Repr

/- The holder of the manager's lock, and every status that was written, the latest first. -/
structure Shared where
  managed : Managed
  holder : Option Nat
  writes : List Write

structure Gateway where
  shared : Shared
  processes : List Process

/- What the rest of the world answers to one statement, and the entry that a map gives next. -/
structure Answer where
  ok : Bool
  phone : GoString
  entry : Nat
  deriving DecidableEq, Repr

inductive Effect where
  | none
  | register (id groupId : UUID)
  | goLive (client : Nat)
  | unregister (id : UUID)
  | stop (id : UUID)
  | write (w : Write)
  | delete (id : UUID)
  | phone (id : UUID) (phone : GoString)
  deriving DecidableEq, Repr

inductive Lock where
  | keep | acquire | release
  deriving DecidableEq, Repr

def begin_ (id : UUID) : Op → Process
  | .connect => .startLock false id
  | .pair => .pairLock id
  | op => .stopLock op id

def afterStop (id : UUID) : Op → Process
  | .restart => .startLock true id
  | .delete => .deleteRow id
  | _ => .disconnect id

def eventStatus : ClientEvent → InstanceStatus
  | .connected => .available
  | .disconnected => .disconnected
  | .loggedOut => .banned

/- The float64 numbers that 0.85 and 0.80 stand for. -/
def degradedRate : Rat := 7656119366529843/9007199254740992
def criticalRate : Rat := 3602879701896397/4503599627370496

def verdict (i : InstanceRow) (connected : Bool) : Option InstanceStatus :=
  if connected = false then some .suspect
  else if i.deliveryRate < degradedRate ∧ 10 < i.messagesToday then
    if i.deliveryRate < criticalRate then some .suspect else none
  else if i.dailyBudget ≤ i.messagesToday ∧ i.status = .available then some .resting
  else none

def written (ok : Bool) (id : UUID) (status : InstanceStatus) (writer : Writer) : Effect :=
  if ok then .write ⟨id,status,writer⟩ else .none

def free (s : Shared) (step : Process × Effect × Lock) : Option (Process × Effect × Lock) :=
  if s.holder = none then some step else none

/- One statement, what it does, and the lock that it takes or gives back. The map is read under the lock too. -/
def advance (s : Shared) (a : Answer) : Process → Option (Process × Effect × Lock)
  | .verify op tenant id => some (match (if a.ok then instanceById s.managed.rows id else none) with
    | none => (.done,.none,.keep)
    | some inst => (.verifyGroup op tenant id inst.groupId,.none,.keep))
  | .verifyGroup op tenant id groupId =>
    some (if a.ok ∧ (groupById s.managed.rows groupId).any (fun g => g.tenantId == tenant) then (begin_ id op,.none,.keep)
      else (.done,.none,.keep))
  | .startLock again id =>
    free s (if (connectionOf s.managed id).any (isConnected s.managed) then (.done,.none,.keep)
      else (.startFind again id,.none,.acquire))
  | .startFind again id => some (match (if a.ok then instanceById s.managed.rows id else none) with
    | none => (.done,.none,.release)
    | some inst => (.startDevice again id inst.groupId,.none,.keep))
  | .startDevice _ id groupId =>
    some (if a.ok then (.startConnecting id s.managed.clients.length,.register id groupId,.keep)
      else (.done,.none,.release))
  | .startConnecting id client => some (.startConnect id client,written a.ok id .connecting .manager,.keep)
  | .startConnect id client =>
    some (if a.ok then (.done,.goLive client,.release) else (.startUndo id,.unregister id,.keep))
  | .startUndo id => some (.done,written a.ok id .disconnected .manager,.release)
  | .pairLock id => free s (.pairFind id,.none,.acquire)
  | .pairFind id => some (match (if a.ok then instanceById s.managed.rows id else none) with
    | none => (.done,.none,.release)
    | some inst => (.pairDevice id inst.groupId,.none,.keep))
  | .pairDevice id groupId =>
    some (if a.ok then (.pairConnect id s.managed.clients.length,.register id groupId,.keep)
      else (.done,.none,.release))
  | .pairConnect id client =>
    some (if a.ok then (.pairCode id,.goLive client,.keep) else (.done,.unregister id,.release))
  | .pairCode id => some (.done,if a.ok then .none else .unregister id,.release)
  | .stopLock op id => free s (afterStop id op,.stop id,.keep)
  | .disconnect id => some (.done,written a.ok id .disconnected .request,.keep)
  | .deleteRow id => some (.done,if a.ok then .delete id else .none,.keep)
  | .handleEvent id event => some (.eventRead id event,written a.ok id (eventStatus event) .event,.keep)
  | .eventRead id event =>
    free s (if event = .connected ∧ (connectionOf s.managed id).isSome ∧ a.phone ≠ [] then
      (.updatePhone id a.phone,.none,.keep) else (.done,.none,.keep))
  | .updatePhone id phone => some (.done,if a.ok then .phone id phone else .none,.keep)
  | .checkAll => free s (.checkInstance (s.managed.connections.map (fun c => (c.id,c.client))),.none,.keep)
  | .checkInstance [] => some (.done,.none,.keep)
  | .checkInstance todo => do
    let (id,client) ← todo[a.entry]?
    let rest := todo.eraseIdx a.entry
    some (match (if a.ok then instanceById s.managed.rows id else none) with
    | none => (.checkInstance rest,.none,.keep)
    | some inst =>
      if inst.status = .banned ∨ inst.status = .disconnected then (.checkInstance rest,.none,.keep)
      else (.checkSocket inst client rest,.none,.keep))
  | .checkSocket inst client rest =>
    some (match verdict inst (isConnected s.managed ⟨inst.id,inst.groupId,client⟩) with
      | none => (.checkInstance rest,.none,.keep)
      | some status => (.checkWrite inst.id status rest,.none,.keep))
  | .checkWrite id status rest => some (.checkInstance rest,written a.ok id status .health,.keep)
  | .done => none

def setPhone (r : Rows) (id : UUID) (phone : GoString) : Rows :=
  match varchar 20 phone with
  | none => r
  | some phone =>
    {r with instances := update (fun i : InstanceRow => i.id) id (fun i => {i with phoneNumber := some phone}) r.instances}

def perform (m : Managed) : Effect → Managed
  | .none => m
  | .register id groupId => register m id groupId
  | .goLive client => goLive m client
  | .unregister id => unregister m id
  | .stop id => stopInstance m id
  | .write w => updateStatus m w.id w.status true
  | .delete id => {m with rows := deleteInstance m.rows id}
  | .phone id phone => {m with rows := setPhone m.rows id phone}

def logged (writes : List Write) : Effect → List Write
  | .write w => w::writes
  | _ => writes

def held (k : Nat) (holder : Option Nat) : Lock → Option Nat
  | .keep => holder
  | .acquire => some k
  | .release => none

/- A request comes with its path checked; the INSERT of a new instance is its last statement. Only a client that was
made for an instance reports events of it. -/
inductive Event where
  | create (id : UUID) (createdAt : Int) (groupId : UUID) (input : CreateInstanceInput)
  | request (op : Op) (tenant id : UUID)
  | happened (id : UUID) (event : ClientEvent)
  | check
  | socket (client : Nat) (online : Bool)
  | serve (k : Nat) (a : Answer)

def join (g : Gateway) (p : Process) : Gateway := {g with processes := g.processes ++ [p]}

def step (g : Gateway) : Event → Option Gateway
  | .create id createdAt groupId input => do
    let (rows,_) ← createInstance g.shared.managed.rows id createdAt groupId input
    some {g with shared := ⟨{g.shared.managed with rows := rows},g.shared.holder,
      ⟨id,.disconnected,.insert⟩::g.shared.writes⟩}
  | .request op tenant id => some (join g (.verify op tenant id))
  | .happened id event =>
    if g.shared.managed.clients.any (fun c => c.instanceId == id) then some (join g (.handleEvent id event)) else none
  | .check => some (join g .checkAll)
  | .socket client online =>
    some {g with shared := {g.shared with managed := {g.shared.managed with
      clients := g.shared.managed.clients.modify client (fun c => {c with online := online})}}}
  | .serve k a => do
    let p ← g.processes[k]?
    let (next,effect,lock) ← advance g.shared a p
    some ⟨⟨perform g.shared.managed effect,held k g.shared.holder lock,logged g.shared.writes effect⟩,
      g.processes.set k next⟩

def Serves (P : Nat → Answer → Process → Prop) (g : Gateway) : Event → Prop
  | .serve k a => ∀ p ∈ g.processes[k]?, P k a p
  | _ => True

instance (P : Nat → Answer → Process → Prop) [∀ k a p, Decidable (P k a p)] (g : Gateway) : ∀ e, Decidable (Serves P g e)
  | .serve k a => inferInstanceAs (Decidable (∀ p ∈ g.processes[k]?, P k a p))
  | .create _ _ _ _ | .request _ _ _ | .happened _ _ | .check | .socket _ _ => .isTrue trivial

theorem rowSource {m : Managed} {effect : Effect} {i : InstanceRow} (member : i ∈ (perform m effect).rows.instances) :
    ∃ old ∈ m.rows.instances, old.id = i.id ∧
      ((∃ w, effect = .write w ∧ w.id = i.id ∧ w.status = i.status) ∨
        (old.status = i.status ∧ ∀ w, effect = .write w → w.id ≠ i.id)) := by
  cases effect with
  | none | register _ _ | goLive _ | unregister _ => exact ⟨i,member,rfl,.inr ⟨rfl,nofun⟩⟩
  | stop stopped =>
    rw [perform,stopRows] at member
    exact ⟨i,member,rfl,.inr ⟨rfl,nofun⟩⟩
  | write w =>
    obtain ⟨old,inside,same⟩ := memUpdate.mp member
    split at same
    · next here => subst same; exact ⟨old,inside,rfl,.inl ⟨w,rfl,here.symm,rfl⟩⟩
    · next apart =>
      subst same
      exact ⟨i,inside,rfl,.inr ⟨rfl,fun v written own => apart (by cases written; exact own.symm)⟩⟩
  | delete gone => exact ⟨i,(List.mem_filter.mp member).1,rfl,.inr ⟨rfl,nofun⟩⟩
  | phone called number =>
    simp only [perform,setPhone] at member
    split at member
    · exact ⟨i,member,rfl,.inr ⟨rfl,nofun⟩⟩
    · obtain ⟨old,inside,same⟩ := memUpdate.mp member
      split at same
      · subst same; exact ⟨old,inside,rfl,.inr ⟨rfl,nofun⟩⟩
      · subst same; exact ⟨i,inside,rfl,.inr ⟨rfl,nofun⟩⟩

/-! What one statement can do. -/

section Advanced
variable {s : Shared} {a : Answer}

inductive Advanced (s : Shared) (a : Answer) : Process → Process → Effect → Lock → Prop where
  | verified (op tenant id groupId) :
      Advanced s a (.verify op tenant id) (.verifyGroup op tenant id groupId) .none .keep
  | unknown (op tenant id) : Advanced s a (.verify op tenant id) .done .none .keep
  | owned (op tenant id groupId) : Advanced s a (.verifyGroup op tenant id groupId) (begin_ id op) .none .keep
  | foreign (op tenant id groupId) : Advanced s a (.verifyGroup op tenant id groupId) .done .none .keep
  | startNeedless (again id) (open_ : s.holder = none)
      (connected : (connectionOf s.managed id).any (isConnected s.managed) = true) :
      Advanced s a (.startLock again id) .done .none .keep
  | startLocked (again id) (open_ : s.holder = none) :
      Advanced s a (.startLock again id) (.startFind again id) .none .acquire
  | startFound (again id groupId) : Advanced s a (.startFind again id) (.startDevice again id groupId) .none .keep
  | startMissing (again id) (missing : (if a.ok then instanceById s.managed.rows id else none) = none) :
      Advanced s a (.startFind again id) .done .none .release
  | startRegistered (again id groupId) (ok : a.ok = true) : Advanced s a (.startDevice again id groupId)
      (.startConnecting id s.managed.clients.length) (.register id groupId) .keep
  | startNoDevice (again id groupId) (failed : a.ok = false) :
      Advanced s a (.startDevice again id groupId) .done .none .release
  | startMarked (id client) : Advanced s a (.startConnecting id client) (.startConnect id client)
      (written a.ok id .connecting .manager) .keep
  | startConnected (id client) (ok : a.ok = true) :
      Advanced s a (.startConnect id client) .done (.goLive client) .release
  | startFailed (id client) (failed : a.ok = false) :
      Advanced s a (.startConnect id client) (.startUndo id) (.unregister id) .keep
  | startUndone (id) : Advanced s a (.startUndo id) .done (written a.ok id .disconnected .manager) .release
  | pairLocked (id) (open_ : s.holder = none) : Advanced s a (.pairLock id) (.pairFind id) .none .acquire
  | pairFound (id groupId) : Advanced s a (.pairFind id) (.pairDevice id groupId) .none .keep
  | pairMissing (id) : Advanced s a (.pairFind id) .done .none .release
  | pairRegistered (id groupId) (ok : a.ok = true) : Advanced s a (.pairDevice id groupId)
      (.pairConnect id s.managed.clients.length) (.register id groupId) .keep
  | pairNoDevice (id groupId) (failed : a.ok = false) : Advanced s a (.pairDevice id groupId) .done .none .release
  | pairConnected (id client) (ok : a.ok = true) :
      Advanced s a (.pairConnect id client) (.pairCode id) (.goLive client) .keep
  | pairFailed (id client) (failed : a.ok = false) :
      Advanced s a (.pairConnect id client) .done (.unregister id) .release
  | pairDone (id) (ok : a.ok = true) : Advanced s a (.pairCode id) .done .none .release
  | pairNoCode (id) (failed : a.ok = false) : Advanced s a (.pairCode id) .done (.unregister id) .release
  | stopped (op id) (open_ : s.holder = none) : Advanced s a (.stopLock op id) (afterStop id op) (.stop id) .keep
  | disconnected (id) : Advanced s a (.disconnect id) .done (written a.ok id .disconnected .request) .keep
  | deleted (id) (ok : a.ok = true) : Advanced s a (.deleteRow id) .done (.delete id) .keep
  | deleteFailed (id) (failed : a.ok = false) : Advanced s a (.deleteRow id) .done .none .keep
  | handled (id event) : Advanced s a (.handleEvent id event) (.eventRead id event)
      (written a.ok id (eventStatus event) .event) .keep
  | phoneRead (id event) (open_ : s.holder = none) :
      Advanced s a (.eventRead id event) (.updatePhone id a.phone) .none .keep
  | eventRead (id event) (open_ : s.holder = none) : Advanced s a (.eventRead id event) .done .none .keep
  | phoneWritten (id phone) (ok : a.ok = true) : Advanced s a (.updatePhone id phone) .done (.phone id phone) .keep
  | phoneFailed (id phone) (failed : a.ok = false) : Advanced s a (.updatePhone id phone) .done .none .keep
  | checkListed (todo) (open_ : s.holder = none) : Advanced s a .checkAll (.checkInstance todo) .none .keep
  | checkEnd : Advanced s a (.checkInstance []) .done .none .keep
  | checkSkip (todo rest) : Advanced s a (.checkInstance todo) (.checkInstance rest) .none .keep
  | checkRead (inst client todo rest) (found : instanceById s.managed.rows inst.id = some inst)
      (unmarked : ¬ (inst.status = .banned ∨ inst.status = .disconnected)) :
      Advanced s a (.checkInstance todo) (.checkSocket inst client rest) .none .keep
  | checkPassed (inst client rest) : Advanced s a (.checkSocket inst client rest) (.checkInstance rest) .none .keep
  | checkJudged (inst client rest status connected) (judged : verdict inst connected = some status) :
      Advanced s a (.checkSocket inst client rest) (.checkWrite inst.id status rest) .none .keep
  | checkWritten (id status rest) :
      Advanced s a (.checkWrite id status rest) (.checkInstance rest) (written a.ok id status .health) .keep

theorem freeSome {turn t : Process × Effect × Lock} (does : free s turn = some t) : s.holder = none ∧ turn = t := by
  unfold free at does
  split at does
  · next open_ => exact ⟨open_,Option.some.inj does⟩
  · cases does

theorem advanceSource {p next : Process} {effect : Effect} {lock : Lock}
    (does : advance s a p = some (next,effect,lock)) : Advanced s a p next effect lock := by
  cases p with
  | verify op tenant id =>
    simp only [advance,Option.some.injEq] at does
    split at does <;> cases does
    · exact .unknown op tenant id
    · exact .verified op tenant id _
  | verifyGroup op tenant id groupId =>
    simp only [advance,Option.some.injEq] at does
    split at does <;> cases does
    · exact .owned op tenant id groupId
    · exact .foreign op tenant id groupId
  | startLock again id =>
    obtain ⟨open_,same⟩ := freeSome does
    split at same <;> cases same
    · exact .startNeedless again id open_ ‹_›
    · exact .startLocked again id open_
  | startFind again id =>
    simp only [advance,Option.some.injEq] at does
    split at does <;> cases does
    · exact .startMissing again id ‹_›
    · exact .startFound again id _
  | startDevice again id groupId =>
    simp only [advance] at does
    cases answered : a.ok <;> rw [answered] at does <;> cases does
    · exact .startNoDevice again id groupId answered
    · exact .startRegistered again id groupId answered
  | startConnecting id client => cases does; exact .startMarked id client
  | startConnect id client =>
    simp only [advance] at does
    cases answered : a.ok <;> rw [answered] at does <;> cases does
    · exact .startFailed id client answered
    · exact .startConnected id client answered
  | startUndo id => cases does; exact .startUndone id
  | pairLock id =>
    obtain ⟨open_,same⟩ := freeSome does
    cases same
    exact .pairLocked id open_
  | pairFind id =>
    simp only [advance,Option.some.injEq] at does
    split at does <;> cases does
    · exact .pairMissing id
    · exact .pairFound id _
  | pairDevice id groupId =>
    simp only [advance] at does
    cases answered : a.ok <;> rw [answered] at does <;> cases does
    · exact .pairNoDevice id groupId answered
    · exact .pairRegistered id groupId answered
  | pairConnect id client =>
    simp only [advance] at does
    cases answered : a.ok <;> rw [answered] at does <;> cases does
    · exact .pairFailed id client answered
    · exact .pairConnected id client answered
  | pairCode id =>
    simp only [advance] at does
    cases answered : a.ok <;> rw [answered] at does <;> cases does
    · exact .pairNoCode id answered
    · exact .pairDone id answered
  | stopLock op id =>
    obtain ⟨open_,same⟩ := freeSome does
    cases same
    exact .stopped op id open_
  | disconnect id => cases does; exact .disconnected id
  | deleteRow id =>
    simp only [advance] at does
    cases answered : a.ok <;> rw [answered] at does <;> cases does
    · exact .deleteFailed id answered
    · exact .deleted id answered
  | handleEvent id event => cases does; exact .handled id event
  | eventRead id event =>
    obtain ⟨open_,same⟩ := freeSome does
    split at same <;> cases same
    · exact .phoneRead id event open_
    · exact .eventRead id event open_
  | updatePhone id phone =>
    simp only [advance] at does
    cases answered : a.ok <;> rw [answered] at does <;> cases does
    · exact .phoneFailed id phone answered
    · exact .phoneWritten id phone answered
  | checkAll =>
    obtain ⟨open_,same⟩ := freeSome does
    cases same
    exact .checkListed _ open_
  | checkInstance todo =>
    cases todo with
    | nil => cases does; exact .checkEnd
    | cons head rest =>
      simp only [advance,bind,Option.bind_eq_some_iff,Option.some.injEq] at does
      obtain ⟨entry,_,does⟩ := does
      split at does
      · cases does; exact .checkSkip _ _
      next inst read =>
        split at does <;> cases does
        · exact .checkSkip _ _
        next unmarked =>
          split at read
          · have same : inst.id = entry.1 := (findMember read).2
            exact .checkRead inst entry.2 _ _ (same ▸ read) unmarked
          · cases read
  | checkSocket inst client todo =>
    simp only [advance,Option.some.injEq] at does
    split at does <;> cases does
    · exact .checkPassed inst client todo
    · exact .checkJudged inst client todo _ _ ‹_›
  | checkWrite id status todo => cases does; exact .checkWritten id status todo
  | done => cases does

end Advanced

def checked : Process → Option UUID
  | .checkSocket inst _ _ => some inst.id
  | .checkWrite id _ _ => some id
  | _ => none

def checks (p : Process) (id : UUID) : Prop := checked p = some id

instance (p : Process) (id : UUID) : Decidable (checks p id) := by unfold checks; infer_instance

inductive CheckTurn (s : Shared) (p next : Process) : Prop where
  | reads (inst : InstanceRow) (client : Nat) (todo : List (UUID × Nat))
      (found : instanceById s.managed.rows inst.id = some inst)
      (unmarked : ¬ (inst.status = .banned ∨ inst.status = .disconnected)) (same : next = .checkSocket inst client todo)
  | decides (inst : InstanceRow) (client : Nat) (todo : List (UUID × Nat)) (status : InstanceStatus) (connected : Bool)
      (before : p = .checkSocket inst client todo) (judged : verdict inst connected = some status)
      (same : next = .checkWrite inst.id status todo)
  | apart (none_ : checked next = none)

theorem checkTurn {s : Shared} {a : Answer} {p next : Process} {effect : Effect} {lock : Lock}
    (does : advance s a p = some (next,effect,lock)) : CheckTurn s p next := by
  cases advanceSource does with
  | checkRead inst client todo rest found unmarked => exact .reads inst client rest found unmarked rfl
  | checkJudged inst client rest status connected judged => exact .decides inst client rest status connected rfl judged rfl
  | owned op tenant id groupId | stopped op id open_ => exact .apart (by cases op <;> rfl)
  | _ => exact .apart rfl

/-! The operations of the manager as runs in which nobody else takes a step. -/

section Alone
variable {m n : Managed} {p q next : Process} {h : Option Nat} {id : UUID}

def Alone (h : Option Nat) (m : Managed) (p : Process) (n : Managed) (q : Process) : Prop :=
  ∀ writes, ∃ (answers : List Answer) (later : List Write),
    run step ⟨⟨m,h,writes⟩,[p]⟩ (answers.map (.serve 0)) = some ⟨⟨n,none,later⟩,[q]⟩

theorem aloneHere (m : Managed) (p : Process) : Alone none m p m p := fun writes => ⟨[],writes,rfl⟩

theorem aloneServed {effect : Effect} {lock : Lock} (a : Answer)
    (does : ∀ writes, advance ⟨m,h,writes⟩ a p = some (next,effect,lock))
    (later : Alone (held 0 h lock) (perform m effect) next n q) : Alone h m p n q := by
  intro writes
  obtain ⟨answers,after,ran⟩ := later (logged writes effect)
  have moved : step ⟨⟨m,h,writes⟩,[p]⟩ (.serve 0 a) =
      some ⟨⟨perform m effect,held 0 h lock,logged writes effect⟩,[next]⟩ := by
    simp only [step,bind,Option.bind,List.getElem?_cons_zero,does writes,List.set_cons_zero]
  exact ⟨a::answers,after,by simp only [List.map_cons,run,moved,bind,Option.bind]; exact ran⟩

theorem performWritten (m : Managed) (ok : Bool) (id : UUID) (status : InstanceStatus) (writer : Writer) :
    perform m (written ok id status writer) = updateStatus m id status ok := by
  cases ok <;> rfl

def answers (ok : Bool) : Answer := ⟨ok,[],0⟩

section Device
variable {a : Attempt} {find : Process} (device_ : UUID → Process)
  (finds : ∀ ok writes, advance ⟨m,some 0,writes⟩ (answers ok) find =
    some (match (if ok then instanceById m.rows id else none) with
      | none => (.done,.none,.release)
      | some inst => (device_ inst.groupId,.none,.keep)))
  (fails : ∀ groupId writes, advance ⟨m,some 0,writes⟩ (answers false) (device_ groupId) = some (.done,.none,.release))
include finds

theorem deviceFound {inst : InstanceRow} (found : device m id a = .ok inst)
    (later : Alone (some 0) m (device_ inst.groupId) n q) : Alone (some 0) m find n q := by
  have here := deviceRow found
  have read : ∀ writes, advance ⟨m,some 0,writes⟩ (answers true) find = some (device_ inst.groupId,.none,.keep) := by
    intro writes
    rw [finds true,if_pos rfl,here]
  exact aloneServed (answers true) read later

include fails

theorem deviceFailed {error : String} (failed : device m id a = .error error) : Alone (some 0) m find m .done := by
  unfold device at failed
  split at failed
  · exact aloneServed (answers false) (finds false) (aloneHere m .done)
  split at failed
  · next absent =>
    have read : ∀ writes, advance ⟨m,some 0,writes⟩ (answers true) find = some (.done,.none,.release) := by
      intro writes
      rw [finds true,if_pos rfl,absent]
    exact aloneServed (answers true) read (aloneHere m .done)
  next row here =>
  have read : ∀ writes, advance ⟨m,some 0,writes⟩ (answers true) find = some (device_ row.groupId,.none,.keep) := by
    intro writes
    rw [finds true,if_pos rfl,here]
  exact aloneServed (answers true) read (aloneServed (answers false) (fails row.groupId) (aloneHere m .done))

end Device

theorem startAlone (m : Managed) (again : Bool) (id : UUID) (a : Attempt) :
    Alone none m (.startLock again id) (startInstance m id a).1 .done := by
  unfold startInstance
  split
  · next connected =>
    have refused : ∀ writes, advance ⟨m,none,writes⟩ (answers true) (.startLock again id) = some (.done,.none,.keep) :=
      fun writes => by simp [advance,free,connected]
    exact aloneServed (answers true) refused (aloneHere m .done)
  next apart =>
  have locked : ∀ writes, advance ⟨m,none,writes⟩ (answers true) (.startLock again id) =
      some (.startFind again id,.none,.acquire) := fun writes => by simp [advance,free,apart]
  refine aloneServed (answers true) locked ?_
  split
  · next failed =>
    exact deviceFailed (.startDevice again id) (fun _ _ => rfl) (fun _ _ => rfl) failed
  next inst found =>
  refine deviceFound (.startDevice again id) (fun _ _ => rfl) found ?_
  have registers : ∀ writes, advance ⟨m,some 0,writes⟩ (answers true) (.startDevice again id inst.groupId) =
      some (.startConnecting id m.clients.length,.register id inst.groupId,.keep) := fun _ => rfl
  refine aloneServed (answers true) registers ?_
  have marks : ∀ writes, advance ⟨register m id inst.groupId,some 0,writes⟩ (answers a.connecting)
      (.startConnecting id m.clients.length) =
      some (.startConnect id m.clients.length,written a.connecting id .connecting .manager,.keep) := fun _ => rfl
  refine aloneServed (answers a.connecting) marks ?_
  rw [performWritten]
  dsimp only [perform]
  generalize updateStatus (register m id inst.groupId) id .connecting a.connecting = registered
  split
  · have drops : ∀ writes, advance ⟨registered,some 0,writes⟩ (answers false) (.startConnect id m.clients.length) =
        some (.startUndo id,.unregister id,.keep) := fun _ => rfl
    refine aloneServed (answers false) drops ?_
    have undoes : ∀ writes, advance ⟨unregister registered id,some 0,writes⟩ (answers a.disconnected) (.startUndo id) =
        some (.done,written a.disconnected id .disconnected .manager,.release) := fun _ => rfl
    refine aloneServed (answers a.disconnected) undoes ?_
    rw [performWritten]
    exact aloneHere _ .done
  · have connects : ∀ writes, advance ⟨registered,some 0,writes⟩ (answers true) (.startConnect id m.clients.length) =
        some (.done,.goLive m.clients.length,.release) := fun _ => rfl
    exact aloneServed (answers true) connects (aloneHere _ .done)

theorem pairAlone (m : Managed) (id : UUID) (a : Attempt) :
    Alone none m (.pairLock id) (pairPhone m id a).1 .done := by
  refine aloneServed (answers true) (fun _ => rfl) ?_
  unfold pairPhone
  split
  · next failed =>
    exact deviceFailed (.pairDevice id) (fun _ _ => rfl) (fun _ _ => rfl) failed
  next inst found =>
  refine deviceFound (.pairDevice id) (fun _ _ => rfl) found ?_
  have registers : ∀ writes, advance ⟨m,some 0,writes⟩ (answers true) (.pairDevice id inst.groupId) =
      some (.pairConnect id m.clients.length,.register id inst.groupId,.keep) := fun _ => rfl
  refine aloneServed (answers true) registers ?_
  dsimp only [perform]
  generalize register m id inst.groupId = registered
  split
  · have drops : ∀ writes, advance ⟨registered,some 0,writes⟩ (answers false) (.pairConnect id m.clients.length) =
        some (.done,.unregister id,.release) := fun _ => rfl
    exact aloneServed (answers false) drops (aloneHere _ .done)
  have connects : ∀ writes, advance ⟨registered,some 0,writes⟩ (answers true) (.pairConnect id m.clients.length) =
      some (.pairCode id,.goLive m.clients.length,.keep) := fun _ => rfl
  refine aloneServed (answers true) connects ?_
  split
  · have drops : ∀ writes, advance ⟨goLive registered m.clients.length,some 0,writes⟩ (answers false) (.pairCode id) =
        some (.done,.unregister id,.release) := fun _ => rfl
    exact aloneServed (answers false) drops (aloneHere _ .done)
  · have returns : ∀ writes, advance ⟨goLive registered m.clients.length,some 0,writes⟩ (answers true) (.pairCode id) =
        some (.done,.none,.release) := fun _ => rfl
    exact aloneServed (answers true) returns (aloneHere _ .done)

theorem stopAlone (m : Managed) (op : Op) (id : UUID) :
    Alone none m (.stopLock op id) (stopInstance m id) (afterStop id op) :=
  aloneServed (answers true) (fun _ => rfl) (aloneHere _ _)

theorem aloneTrans {o : Managed} {r : Process} (first : Alone h m p n q) (later : Alone none n q o r) : Alone h m p o r := by
  intro writes
  obtain ⟨answers,between,ran⟩ := first writes
  obtain ⟨more,after,rest⟩ := later between
  exact ⟨answers ++ more,after,by rw [List.map_append,runAppend ran]; exact rest⟩

theorem restartAlone (m : Managed) (id : UUID) (a : Attempt) :
    Alone none m (.stopLock .restart id) (restartInstance m id a).1 .done :=
  aloneTrans (stopAlone m .restart id) (startAlone (stopInstance m id) true id a)

end Alone
end WppGateway.Lifecycle
