import WppGateway.Lifecycle

/-! A row whose status says that the instance is connected or connecting, and the entry
of the map that should back it. -/
namespace WppGateway.Backing
open Domain Table Resources Manager Processes Lifecycle Runs

def active : InstanceStatus → Bool
  | .available | .connecting => true
  | _ => false

def HasEntry (m : Managed) (id : UUID) : Prop := (connectionOf m id).isSome = true

instance (m : Managed) (id : UUID) : Decidable (HasEntry m id) := by unfold HasEntry; infer_instance

def Idle (m : Managed) (id : UUID) : Prop := ∀ i ∈ m.rows.instances, i.id = id → active i.status = false

instance (m : Managed) (id : UUID) : Decidable (Idle m id) := by unfold Idle; infer_instance

def Backed (m : Managed) (id : UUID) : Prop := Idle m id ∨ HasEntry m id

instance (m : Managed) (id : UUID) : Decidable (Backed m id) := by unfold Backed; infer_instance

def StatusBacked (g : Gateway) : Prop :=
  (∀ p ∈ g.processes, p = .done) →
    ∀ i ∈ g.shared.managed.rows.instances, active i.status = true → HasEntry g.shared.managed i.id

/- A statement is still to come that makes the row inactive, deletes it or registers a connection. -/
def owing : Process → Option UUID
  | .startLock again id | .startFind again id | .startDevice again id _ => if again then some id else none
  | .startUndo id | .disconnect id | .deleteRow id => some id
  | _ => none

def owes (p : Process) (id : UUID) : Prop := owing p = some id

instance (p : Process) (id : UUID) : Decidable (owes p id) := by unfold owes; infer_instance

def Owed (g : Gateway) (k : Nat) (id : UUID) : Prop := ∃ q ∈ g.processes.eraseIdx k, owes q id

instance (g : Gateway) (k : Nat) (id : UUID) : Decidable (Owed g k id) := by unfold Owed; infer_instance

def writesStatus : Process → Bool
  | .startConnecting _ _ | .startUndo _ | .disconnect _ | .handleEvent _ _ | .checkWrite _ _ _ => true
  | _ => false

def UpdatesSucceed (g : Gateway) : Event → Prop := Serves (fun _ a p => writesStatus p = true → a.ok = true) g

instance (g : Gateway) (e : Event) : Decidable (UpdatesSucceed g e) := by unfold UpdatesSucceed; infer_instance

def reportsConnected : Process → Option UUID
  | .handleEvent id event => if event = .connected then some id else none
  | _ => none

def pairing : Process → Option UUID
  | .pairConnect id _ | .pairCode id => some id
  | _ => none

def stopped : Process → Option UUID
  | .startFind again id | .startDevice again id _ => if again then some id else none
  | .deleteRow id => some id
  | _ => none

/- A Connected event finds an entry; a pairing that fails finds the row inactive; the start of a restart gives up, and
a DELETE fails, only on a row that is backed. Each may also leave the row to another process that owes. -/
structure Supports (g : Gateway) (k : Nat) (a : Answer) (p : Process) : Prop where
  connected : ∀ id ∈ reportsConnected p, HasEntry g.shared.managed id ∨ Owed g k id
  paired : a.ok = false → ∀ id ∈ pairing p, Idle g.shared.managed id ∨ Owed g k id
  resumed : a.ok = false → ∀ id ∈ stopped p, Backed g.shared.managed id ∨ Owed g k id

instance (g : Gateway) (k : Nat) (a : Answer) (p : Process) : Decidable (Supports g k a p) :=
  decidable_of_iff (_ ∧ _ ∧ _) ⟨fun h => ⟨h.1,h.2.1,h.2.2⟩,fun h => ⟨h.1,h.2,h.3⟩⟩

def Supported (g : Gateway) : Event → Prop := Serves (Supports g) g

instance (g : Gateway) (e : Event) : Decidable (Supported g e) := by unfold Supported; infer_instance

def inside : Process → Bool
  | .startFind _ _ | .startDevice _ _ _ | .startConnecting _ _ | .startConnect _ _ | .startUndo _ | .pairFind _
  | .pairDevice _ _ | .pairConnect _ _ | .pairCode _ => true
  | _ => false

def registered : Process → Option UUID
  | .startConnecting id _ | .startConnect id _ | .pairConnect id _ | .pairCode id => some id
  | _ => none

def judges : Process → InstanceStatus → Prop
  | .checkWrite _ status _,other => status = other
  | _,_ => False

structure Orderly (g : Gateway) : Prop where
  judged : Upheld judges (fun status => active status = false) g.processes
  exclusive : Exclusive inside g.shared.holder g.processes
  entered : Upheld (fun p id => registered p = some id) (HasEntry g.shared.managed) g.processes
  covered : Covered owes (Backed g.shared.managed) g.processes

section Effects
variable {m : Managed} {id : UUID} {effect : Effect}

def removes : Effect → Option UUID
  | .unregister id | .stop id => some id
  | _ => none

theorem entryKept (entry : HasEntry m id) (other : removes effect ≠ some id) : HasEntry (perform m effect) id := by
  unfold HasEntry at *
  cases effect with
  | none | goLive client | delete own | phone own number => exact entry
  | register own groupId =>
    rw [perform,connectionRegister]
    split
    · rfl
    · exact entry
  | unregister own =>
    have apart : id ≠ own := fun same => other (congrArg some same.symm)
    rw [perform,connectionUnregister,if_neg apart]
    exact entry
  | stop own =>
    have apart : id ≠ own := fun same => other (congrArg some same.symm)
    rw [perform]
    unfold stopInstance
    split
    · exact entry
    · exact (congrArg Option.isSome ((connectionUnregister m own id).trans (if_neg apart))).trans entry
  | write w => rw [perform,connectionUpdateStatus]; exact entry

theorem idleKept (idle : Idle m id) (other : ∀ w, effect = .write w → w.id = id → active w.status = false) :
    Idle (perform m effect) id := by
  intro i member own
  obtain ⟨old,inside,same,⟨w,effect_,here,status⟩ | ⟨status,_⟩⟩ := rowSource member
  · rw [← status]
    exact other w effect_ (here.trans own)
  · rw [← status]
    exact idle old inside (same.trans own)

end Effects

section Turns
variable {s : Shared} {a : Answer} {p next : Process} {effect : Effect} {lock : Lock}

inductive LockTurn (s : Shared) (p next : Process) : Lock → Prop where
  | keeps (stays : inside next = true → inside p = true) : LockTurn s p next .keep
  | takes (free_ : s.holder = none) : LockTurn s p next .acquire
  | gives (within : inside p = true) (leaves : inside next = false) : LockTurn s p next .release

theorem outsideBegin (id : UUID) (op : Op) : inside (begin_ id op) = false := by cases op <;> rfl

theorem outsideAfterStop (id : UUID) (op : Op) : inside (afterStop id op) = false := by cases op <;> rfl

theorem lockOutside (outside : inside next = false) : LockTurn s p next .keep :=
  .keeps (fun within => by rw [outside] at within; cases within)

theorem lockTurn (does : advance s a p = some (next,effect,lock)) : LockTurn s p next lock := by
  cases advanceSource does with
  | owned op tenant id groupId => exact lockOutside (outsideBegin id op)
  | stopped op id open_ => exact lockOutside (outsideAfterStop id op)
  | startLocked again id open_ | pairLocked id open_ => exact .takes open_
  | startFound | startRegistered | startMarked | startFailed | pairFound | pairRegistered | pairConnected =>
    exact .keeps (fun _ => rfl)
  | startMissing | startNoDevice | startConnected | startUndone | pairMissing | pairNoDevice | pairFailed | pairDone
  | pairNoCode => exact .gives rfl rfl
  | _ => exact lockOutside rfl

end Turns

section Steps
variable {g : Gateway} {k : Nat} {a : Answer} {p next : Process} {effect : Effect} {lock : Lock}

inductive Turn (g : Gateway) (k : Nat) (p next : Process) : Effect → Prop where
  | quiet (effect : Effect) (removed : removes effect = none) (unwritten : ∀ w, effect ≠ .write w)
      (pays : ∀ id, owes p id → owes next id ∨ Backed g.shared.managed id ∨ Owed g k id)
      (enters : ∀ id, registered next = some id → registered p = some id) : Turn g k p next effect
  | registers (id groupId : UUID) (pays : ∀ key, owes p key → key = id)
      (enters : ∀ key, registered next = some key → key = id) : Turn g k p next (.register id groupId)
  | drops (id : UUID) (within : inside p = true) (free_ : owing p = none)
      (hands : owes next id ∨ Idle g.shared.managed id ∨ Owed g k id) (leaves : registered next = none) :
      Turn g k p next (.unregister id)
  | stops (id : UUID) (open_ : g.shared.holder = none) (free_ : owing p = none) (takes : owes next id)
      (leaves : registered next = none) : Turn g k p next (.stop id)
  | marks (w : Write) (free_ : owing p = none) (backed : HasEntry g.shared.managed w.id ∨ Owed g k w.id)
      (enters : ∀ id, registered next = some id → registered p = some id) : Turn g k p next (.write w)
  | clears (w : Write) (inactive : active w.status = false) (pays : ∀ key, owes p key → key = w.id)
      (leaves : registered next = none) : Turn g k p next (.write w)
  | deletes (id : UUID) (pays : ∀ key, owes p key → key = id) (leaves : registered next = none) :
      Turn g k p next (.delete id)

theorem owesNone {key : UUID} (none_ : owing p = none) : ¬ owes p key := by
  rw [owes,none_]
  nofun

theorem owesAgain {again : Bool} {id key : UUID} :
    (if again = true then some id else none) = some key ↔ again = true ∧ id = key := by
  cases again <;> simp

theorem beginOwes (id : UUID) (op : Op) : owing (begin_ id op) = none ∧ registered (begin_ id op) = none := by
  cases op <;> exact ⟨rfl,rfl⟩

theorem afterStopOwes (id : UUID) (op : Op) : owes (afterStop id op) id ∧ registered (afterStop id op) = none := by
  cases op <;> exact ⟨rfl,rfl⟩

theorem heldNone {id : UUID} (leaves : registered next = none) (has : registered next = some id) : registered p = some id := by
  rw [leaves] at has
  cases has

theorem quietTurn (pays : ∀ id, owes p id → owes next id ∨ Backed g.shared.managed id ∨ Owed g k id)
    (leaves : registered next = none) : Turn g k p next .none :=
  .quiet .none rfl nofun pays (fun _ => heldNone leaves)

theorem plainTurn (removed : removes effect = none) (unwritten : ∀ w, effect ≠ .write w) (free_ : owing p = none)
    (leaves : registered next = none) : Turn g k p next effect :=
  .quiet effect removed unwritten (fun _ owed => absurd owed (owesNone free_)) (fun _ => heldNone leaves)

theorem idleTurn (free_ : owing p = none) (leaves : registered next = none) : Turn g k p next .none :=
  plainTurn rfl nofun free_ leaves

theorem rowAbsent {m : Managed} {id : UUID} (absent : instanceById m.rows id = none) : Backed m id := by
  refine .inl (fun i member own => ?_)
  have none_ := List.find?_eq_none.mp absent i member
  exact absurd (by simpa using own) none_

theorem foundBacked {id : UUID} {ok : Bool}
    (missing : (if ok then instanceById g.shared.managed.rows id else none) = none)
    (gives : ok = false → Backed g.shared.managed id ∨ Owed g k id) : Backed g.shared.managed id ∨ Owed g k id := by
  cases ok with
  | false => exact gives rfl
  | true => exact .inl (rowAbsent missing)

theorem writtenTurn {id : UUID} {status : InstanceStatus} {writer : Writer} {ok : Bool} (succeeds : ok = true)
    (turn : Turn g k p next (.write ⟨id,status,writer⟩)) : Turn g k p next (written ok id status writer) := by
  subst succeeds
  exact turn

theorem turnSource (orderly : Orderly g) (found : g.processes[k]? = some p) (supported : Supports g k a p)
    (succeeds : writesStatus p = true → a.ok = true) (does : advance g.shared a p = some (next,effect,lock)) :
    Turn g k p next effect := by
  cases advanceSource does with
  | owned op tenant id groupId => exact idleTurn rfl (beginOwes id op).2
  | startNeedless again id open_ connected =>
    refine quietTurn (fun key owed => .inr (.inl (.inr ?_))) rfl
    obtain ⟨_,rfl⟩ := owesAgain.mp owed
    cases entry : connectionOf g.shared.managed id with
    | none => rw [entry] at connected; cases connected
    | some c => exact congrArg Option.isSome entry
  | startLocked again id open_ | startFound again id groupId => exact quietTurn (fun key owed => .inl owed) rfl
  | startMissing again id missing =>
    refine quietTurn (fun key owed => .inr ?_) rfl
    obtain ⟨again_,rfl⟩ := owesAgain.mp owed
    exact foundBacked missing (fun failed => supported.resumed failed id owed)
  | startRegistered again id groupId ok =>
    exact .registers id groupId (fun key owed => (owesAgain.mp owed).2.symm) (fun key same => (Option.some.inj same).symm)
  | startNoDevice again id groupId failed =>
    refine quietTurn (fun key owed => .inr ?_) rfl
    obtain ⟨again_,rfl⟩ := owesAgain.mp owed
    exact supported.resumed failed id owed
  | startMarked id client =>
    refine writtenTurn (succeeds rfl) (.marks _ rfl (.inl ?_) (fun key same => same))
    exact orderly.entered _ (List.mem_of_getElem? found) id rfl
  | startConnected id client ok => exact plainTurn rfl (fun _ same => (by cases same)) rfl rfl
  | startFailed id client failed => exact .drops id rfl rfl (.inl rfl) rfl
  | startUndone id | disconnected id =>
    exact writtenTurn (succeeds rfl) (.clears _ rfl (fun key owed => (Option.some.inj owed).symm) rfl)
  | pairRegistered id groupId ok =>
    exact .registers id groupId (fun key owed => absurd owed (owesNone rfl)) (fun key same => (Option.some.inj same).symm)
  | pairConnected id client ok =>
    exact .quiet _ rfl (fun _ same => (by cases same)) (fun _ owed => absurd owed (owesNone rfl)) (fun key same => same)
  | pairFailed id client failed => exact .drops id rfl rfl (.inr (supported.paired failed id rfl)) rfl
  | pairNoCode id failed => exact .drops id rfl rfl (.inr (supported.paired failed id rfl)) rfl
  | stopped op id open_ => exact .stops id open_ rfl (afterStopOwes id op).1 (afterStopOwes id op).2
  | deleted id ok => exact .deletes id (fun key owed => (Option.some.inj owed).symm) rfl
  | deleteFailed id failed =>
    refine quietTurn (fun key owed => .inr ?_) rfl
    have same : id = key := Option.some.inj owed
    exact same ▸ supported.resumed failed id rfl
  | handled id event =>
    refine writtenTurn (succeeds rfl) ?_
    cases event with
    | connected => exact .marks _ rfl (supported.connected id rfl) (fun _ has => (by cases has))
    | disconnected | loggedOut => exact .clears _ rfl (fun _ owed => absurd owed (owesNone rfl)) rfl
  | phoneWritten id phone ok => exact plainTurn rfl (fun _ same => (by cases same)) rfl rfl
  | checkWritten id status rest =>
    have inactive := orderly.judged _ (List.mem_of_getElem? found) status rfl
    exact writtenTurn (succeeds rfl) (.clears _ inactive (fun _ owed => absurd owed (owesNone rfl)) rfl)
  | _ => exact idleTurn rfl rfl

/-! The invariant along a step of one process. -/

theorem backedKept {m : Managed} {id : UUID} (backed : Backed m id) (other : removes effect ≠ some id)
    (inactive : ∀ w, effect = .write w → w.id = id → active w.status = false) : Backed (perform m effect) id := by
  rcases backed with idle | entry
  · exact .inl (idleKept idle inactive)
  · exact .inr (entryKept entry other)

theorem entryRegistered (m : Managed) (id groupId : UUID) : HasEntry (perform m (.register id groupId)) id := by
  simp [HasEntry,perform]

theorem idleWritten {m : Managed} {w : Write} (inactive : active w.status = false) : Idle (perform m (.write w)) w.id := by
  intro i member own
  obtain ⟨old,_,same⟩ := memUpdate.mp member
  split at same
  · subst same; exact inactive
  · next other => subst same; exact absurd own other

theorem idleDeleted (m : Managed) (id : UUID) : Idle (perform m (.delete id)) id := by
  intro i member own
  have other := (List.mem_filter.mp member).2
  simp [own] at other

theorem coveredTurn (orderly : Orderly g) (found : g.processes[k]? = some p) (turn : Turn g k p next effect) :
    Covered owes (Backed (perform g.shared.managed effect)) (g.processes.set k next) := by
  refine coveredMoves orderly.covered found (fun key due => ?_)
  cases turn with
  | quiet effect removed unwritten pays enters =>
    have kept : Backed g.shared.managed key → Backed (perform g.shared.managed effect) key :=
      fun backed => backedKept backed (by rw [removed]; nofun) (fun w same => absurd same (unwritten w))
    rcases due with backed | owed
    · exact .inl (kept backed)
    · rcases pays key owed with mine | backed | others
      · exact .inr (.inl mine)
      · exact .inl (kept backed)
      · exact .inr (.inr others)
  | registers id groupId pays enters =>
    rcases due with backed | owed
    · exact .inl (backedKept backed nofun nofun)
    · rw [pays key owed]
      exact .inl (.inr (entryRegistered _ id groupId))
  | drops id within free_ hands leaves =>
    have backed := due.resolve_right (owesNone free_)
    by_cases same : key = id
    · subst same
      rcases hands with mine | idle | others
      · exact .inr (.inl mine)
      · exact .inl (.inl (idleKept idle nofun))
      · exact .inr (.inr others)
    · exact .inl (backedKept backed (fun here => same (Option.some.inj here).symm) nofun)
  | stops id open_ free_ takes leaves =>
    have backed := due.resolve_right (owesNone free_)
    by_cases same : key = id
    · exact .inr (.inl (same ▸ takes))
    · exact .inl (backedKept backed (fun here => same (Option.some.inj here).symm) nofun)
  | marks w free_ entry enters =>
    have backed := due.resolve_right (owesNone free_)
    by_cases same : w.id = key
    · subst same
      rcases entry with here | others
      · exact .inl (.inr (entryKept here nofun))
      · exact .inr (.inr others)
    · exact .inl (backedKept backed nofun (fun v written here => absurd (by cases written; exact here) same))
  | clears w inactive pays leaves =>
    by_cases same : w.id = key
    · exact .inl (.inl (same ▸ idleWritten inactive))
    · have backed := due.resolve_right (fun owed => same (pays key owed).symm)
      exact .inl (backedKept backed nofun (fun v written here => absurd (by cases written; exact here) same))
  | deletes id pays leaves =>
    by_cases same : id = key
    · exact .inl (.inl (same ▸ idleDeleted _ id))
    · have backed := due.resolve_right (fun owed => same (pays key owed).symm)
      exact .inl (backedKept backed nofun nofun)

theorem registeredInside {id : UUID} (has : registered p = some id) : inside p = true := by
  cases p <;> first | rfl | cases has

theorem enteredKept (orderly : Orderly g) (found : g.processes[k]? = some p)
    (removed : ∀ id, removes effect = some id → inside p = true ∨ g.shared.holder = none)
    (mine : ∀ id, registered next = some id → HasEntry (perform g.shared.managed effect) id) :
    Upheld (fun p id => registered p = some id) (HasEntry (perform g.shared.managed effect))
      (g.processes.set k next) := by
  refine upheldMoves orderly.entered found ?_ mine
  intro j q apart there id has entry
  refine entryKept entry (fun gone => ?_)
  have holds := orderly.exclusive j q there (registeredInside has)
  rcases removed id gone with within | open_
  · have here := orderly.exclusive k p found within
    exact apart (Option.some.inj (holds.symm.trans here))
  · rw [open_] at holds; cases holds

theorem enteredTurn (orderly : Orderly g) (found : g.processes[k]? = some p) (turn : Turn g k p next effect) :
    Upheld (fun p id => registered p = some id) (HasEntry (perform g.shared.managed effect))
      (g.processes.set k next) := by
  have mine : ∀ id, registered p = some id → HasEntry g.shared.managed id :=
    fun id => orderly.entered p (List.mem_of_getElem? found) id
  have none_ : registered next = none → ∀ id, registered next = some id → HasEntry (perform g.shared.managed effect) id :=
    fun leaves id has => by rw [leaves] at has; cases has
  cases turn with
  | quiet effect removed unwritten pays enters =>
    refine enteredKept orderly found (fun id gone => ?_) (fun id has => entryKept (mine id (enters id has)) ?_)
    · rw [removed] at gone; cases gone
    · rw [removed]; nofun
  | registers id groupId pays enters =>
    refine enteredKept orderly found nofun (fun key has => ?_)
    rw [enters key has]
    exact entryRegistered _ id groupId
  | drops id within free_ hands leaves => exact enteredKept orderly found (fun _ _ => .inl within) (none_ leaves)
  | stops id open_ free_ takes leaves => exact enteredKept orderly found (fun _ _ => .inr open_) (none_ leaves)
  | marks w free_ entry enters =>
    exact enteredKept orderly found nofun (fun key has => entryKept (mine key (enters key has)) nofun)
  | clears w inactive pays leaves => exact enteredKept orderly found nofun (none_ leaves)
  | deletes id pays leaves => exact enteredKept orderly found nofun (none_ leaves)

theorem exclusiveTurn (orderly : Orderly g) (found : g.processes[k]? = some p) (turn : LockTurn g.shared p next lock) :
    Exclusive inside (held k g.shared.holder lock) (g.processes.set k next) := by
  cases turn with
  | keeps stays => exact exclusiveStays orderly.exclusive found stays
  | takes free_ =>
    have exclusive := orderly.exclusive
    rw [free_] at exclusive
    exact exclusiveTakes exclusive found
  | gives within leaves => exact exclusiveGives orderly.exclusive found within leaves

theorem verdictInactive {i : InstanceRow} {connected : Bool} {status : InstanceStatus}
    (judged : verdict i connected = some status) : active status = false := by
  unfold verdict at judged
  split at judged
  · cases judged; rfl
  split at judged
  · split at judged <;> cases judged
    rfl
  split at judged <;> cases judged
  rfl

theorem judgedTurn (does : advance g.shared a p = some (next,effect,lock)) {status : InstanceStatus}
    (judges_ : judges next status) : active status = false := by
  cases checkTurn does with
  | reads inst client todo found unmarked same => subst same; cases judges_
  | decides inst client todo decided connected before judged same =>
    subst same
    exact (show decided = status from judges_) ▸ verdictInactive judged
  | apart none_ =>
    cases next with
    | checkWrite id own todo => cases none_
    | _ => cases judges_

end Steps

theorem orderlyJoin {g : Gateway} {p : Process} (orderly : Orderly g) (outside : inside p = false)
    (unjudged : ∀ status, ¬ judges p status) : Orderly (join g p) := by
  refine ⟨upheldJoins orderly.judged (fun _ held => held) unjudged,exclusiveJoins orderly.exclusive outside,
    upheldJoins orderly.entered (fun _ entry => entry) (fun id has => ?_),
    coveredJoins orderly.covered (fun _ backed => backed) [p]⟩
  rw [registeredInside has] at outside
  cases outside

theorem orderlyStep (g : Gateway) (e : Event) (t : Gateway) (orderly : Orderly g)
    (both : UpdatesSucceed g e ∧ Supported g e) (moved : step g e = some t) : Orderly t := by
  cases e with
  | create id createdAt groupId input =>
    simp only [step,bind,Option.bind_eq_some_iff] at moved
    obtain ⟨⟨rows,i⟩,made,same⟩ := moved
    obtain ⟨rfl,_,_,_,inactive⟩ := createInstanceAdds made
    cases same
    refine ⟨orderly.judged,orderly.exclusive,orderly.entered,?_⟩
    -- the new row is not active, and the others are as they were
    intro key
    rcases orderly.covered key with backed | owed
    · refine .inl (backed.imp_left (fun idle j member own => ?_))
      rcases List.mem_append.mp member with old | new
      · exact idle j old own
      · rw [List.mem_singleton.mp new,inactive]
        rfl
    · exact .inr owed
  | request op tenant id => cases moved; exact orderlyJoin orderly rfl (fun _ judged => judged)
  | happened id event =>
    simp only [step] at moved
    split at moved <;> cases moved
    exact orderlyJoin orderly rfl (fun _ judged => judged)
  | check => cases moved; exact orderlyJoin orderly rfl (fun _ judged => judged)
  | socket client online => cases moved; exact ⟨orderly.judged,orderly.exclusive,orderly.entered,orderly.covered⟩
  | serve k a =>
    simp only [step,bind,Option.bind_eq_some_iff] at moved
    obtain ⟨p,found,⟨next,effect,lock⟩,does,same⟩ := moved
    cases same
    have turn := turnSource orderly found (both.2 p found) (both.1 p found) does
    exact ⟨upheldMoves orderly.judged found (fun _ _ _ _ _ _ held => held) (fun status judged => judgedTurn does judged),
      exclusiveTurn orderly found (lockTurn does),enteredTurn orderly found turn,coveredTurn orderly found turn⟩

theorem orderlyBacked {g : Gateway} (orderly : Orderly g) : StatusBacked g := by
  intro finished i member active_
  rcases orderly.covered i.id with (idle | entry) | ⟨p,running,owed⟩
  · rw [idle i member rfl] at active_; cases active_
  · exact entry
  · rw [finished p running] at owed; cases owed

/-- Whenever no operation is in progress, every available or connecting instance has an entry, as long as the updates
of the status succeed, Connected events find an entry, and a pairing, a restart or a delete that fails half-way finds
the row inactive or otherwise accounted for. -/
theorem backedRun {g : Gateway} {events : List Event} (unused : g.shared.managed.rows.instances = [])
    (start : g.processes = []) (succeed : Guarded step UpdatesSucceed g events)
    (supported : Guarded step Supported g events) : Throughout step StatusBacked g events := by
  have orderly : Orderly g := by
    refine ⟨?_,?_,?_,fun id => .inl (.inl (fun i member => ?_))⟩
    · intro p member; rw [start] at member; cases member
    · intro k p found; rw [start] at found; cases found
    · intro p member; rw [start] at member; cases member
    · rw [unused] at member; cases member
  exact throughoutMono (fun _ => orderlyBacked) (guardedThroughout orderlyStep orderly (guardedAnd succeed supported))

def empty : Gateway := ⟨⟨idle ⟨[groupRow 1 100],[]⟩,none,[]⟩,[]⟩

def yes : Answer := ⟨true,[],0⟩

def serves (k n : Nat) : List Event := List.replicate n (.serve k yes)

def usual : List Event :=
  .create 11 0 1 ⟨none,0,200,30⟩::.request .connect 100 11::serves 0 7 ++ [.happened 11 .connected] ++ serves 1 2 ++
    [.request .restart 100 11] ++ serves 2 8 ++ [.request .disconnect 100 11] ++ serves 3 4

theorem usualBacked : Throughout step StatusBacked empty usual :=
  backedRun rfl rfl (guardedChecks (by decide +kernel)) (guardedChecks (by decide +kernel))

def pairingFails : List Event :=
  .create 11 0 1 ⟨none,0,200,30⟩::.request .connect 100 11::serves 0 7 ++ [.happened 11 .connected] ++ serves 1 2 ++
    [.request .pair 100 11] ++ serves 2 6 ++ [.serve 2 ⟨false,[],0⟩]

theorem availableUnbacked :
    Guarded step UpdatesSucceed empty pairingFails ∧
    (run step empty pairingFails).map (fun g => (g.processes,g.shared.managed.connections,
      g.shared.managed.rows.instances.map (fun i => (i.id,i.status)))) =
      some ([.done,.done,.done],[],[(11,.available)]) ∧
    ¬ Throughout step StatusBacked empty pairingFails := by
  have ends : (run step empty pairingFails).map (fun g => (g.processes,g.shared.managed.connections,
      g.shared.managed.rows.instances.map (fun i => (i.id,i.status)))) =
      some ([.done,.done,.done],[],[(11,.available)]) := by decide +kernel
  refine ⟨guardedChecks (by decide +kernel),ends,fun always => ?_⟩
  obtain ⟨g,ran,same⟩ := Option.map_eq_some_iff.mp ends
  simp only [Prod.mk.injEq] at same
  obtain ⟨processes,connections,rows⟩ := same
  obtain ⟨i,member,shown⟩ := List.mem_map.mp (show (11,InstanceStatus.available) ∈ _ by
    rw [rows]; exact List.mem_singleton_self _)
  obtain ⟨own,status⟩ := Prod.mk.inj shown
  have entry := throughoutEnd always ran (by rw [processes]; simp) i member (by rw [status]; rfl)
  rw [HasEntry,connectionOf,connections] at entry
  cases entry

end WppGateway.Backing
