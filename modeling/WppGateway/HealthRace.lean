import WppGateway.Lifecycle

/-! A health check between its read of a row and its write, and what is written about the
row in the meantime. -/
namespace WppGateway.HealthRace
open Domain Table Resources Manager Processes Lifecycle
open Runs (run Guarded guardedChecks guardedImplies)

/- An event of the client, or a Disconnect request, has written that the instance is banned or disconnected. -/
def intended (w : Write) : Bool :=
  (w.status == .banned || w.status == .disconnected) && (w.writer == .event || w.writer == .request)

def lastWrite (writes : List Write) (id : UUID) : Option Write := writes.find? (fun w => w.id == id)

def HasRow (s : Shared) (id : UUID) : Prop := ∃ i ∈ s.managed.rows.instances, i.id = id

instance (s : Shared) (id : UUID) : Decidable (HasRow s id) := by unfold HasRow; infer_instance

def Settled (s : Shared) (id : UUID) : Prop := HasRow s id ∧ (lastWrite s.writes id).any intended = true

instance (s : Shared) (id : UUID) : Decidable (Settled s id) := by unfold Settled; infer_instance

def overwrites : Process → Option UUID
  | .checkWrite id _ _ => some id
  | _ => none

def NotOverwritten (g : Gateway) : Event → Prop :=
  Serves (fun _ a p => a.ok = true → ∀ id ∈ overwrites p, ¬ Settled g.shared id) g

instance (g : Gateway) (e : Event) : Decidable (NotOverwritten g e) := by unfold NotOverwritten; infer_instance

def settles : Process → Option UUID
  | .handleEvent id event => if event = .connected then none else some id
  | .disconnect id => some id
  | _ => none

/- Nothing is settled about an instance while a health check has read its row and has still to write. -/
def Apart (g : Gateway) : Event → Prop :=
  Serves (fun _ a p => a.ok = true → ∀ id ∈ settles p, HasRow g.shared id → ∀ q ∈ g.processes, ¬ checks q id) g

instance (g : Gateway) (e : Event) : Decidable (Apart g e) := by unfold Apart; infer_instance

structure Undecided (g : Gateway) : Prop where
  latest : ∀ i ∈ g.shared.managed.rows.instances, ∀ w ∈ lastWrite g.shared.writes i.id, w.status = i.status
  unsettled : Upheld checks (fun id => ¬ Settled g.shared id) g.processes

section Steps
variable {g : Gateway} {s : Shared} {k : Nat} {a : Answer} {p next : Process} {effect : Effect} {lock : Lock} {id : UUID}

def after (s : Shared) (k : Nat) (effect : Effect) (lock : Lock) : Shared :=
  ⟨perform s.managed effect,held k s.holder lock,logged s.writes effect⟩

theorem lastCons (w : Write) (writes : List Write) (id : UUID) :
    lastWrite (w::writes) id = if w.id = id then some w else lastWrite writes id := by
  by_cases own : w.id = id <;> simp [lastWrite,own]

theorem lastKept (writes : List Write) (other : ∀ w, effect = .write w → w.id ≠ id) :
    lastWrite (logged writes effect) id = lastWrite writes id := by
  cases effect with
  | write w => rw [logged,lastCons,if_neg (other w rfl)]
  | _ => rfl

theorem settledKept (unsettled : ¬ Settled s id)
    (other : ∀ w, effect = .write w → w.id = id → HasRow s id → intended w = false) : ¬ Settled (after s k effect lock) id := by
  intro ⟨⟨i,member,own⟩,last⟩
  obtain ⟨old,inside,same,⟨w,rfl,here,_⟩ | ⟨_,apart⟩⟩ := rowSource member
  · have unmarked := other w rfl (here.trans own) ⟨old,inside,same.trans own⟩
    rw [after,logged,lastCons,if_pos (here.trans own),Option.any_some,unmarked] at last
    cases last
  · rw [after,lastKept s.writes (own ▸ apart)] at last
    exact unsettled ⟨⟨old,inside,same.trans own⟩,last⟩

theorem latestKept (latest : ∀ i ∈ s.managed.rows.instances, ∀ w ∈ lastWrite s.writes i.id, w.status = i.status) :
    ∀ i ∈ (after s k effect lock).managed.rows.instances, ∀ w ∈ lastWrite (after s k effect lock).writes i.id,
      w.status = i.status := by
  intro i member v last
  obtain ⟨old,inside,same,⟨w,rfl,here,written⟩ | ⟨status,apart⟩⟩ := rowSource member
  · rw [after,logged,lastCons,if_pos here] at last
    cases last
    exact written
  · rw [after,lastKept s.writes apart,← same] at last
    rw [← status]
    exact latest old inside v last

theorem writtenSource {ok : Bool} {status : InstanceStatus} {writer : Writer} {w : Write}
    (same : written ok id status writer = .write w) : ok = true ∧ w = ⟨id,status,writer⟩ := by
  cases ok <;> cases same
  exact ⟨rfl,rfl⟩

theorem settlesSource {w : Write} (does : advance s a p = some (next,.write w,lock)) (final : intended w = true) :
    a.ok = true ∧ settles p = some w.id ∧ checked next = none := by
  -- the effect of a statement that writes no status is another one
  generalize effect_ : Effect.write w = effect at does
  cases advanceSource does with
  | disconnected id =>
    obtain ⟨ok,rfl⟩ := writtenSource effect_.symm
    exact ⟨ok,rfl,rfl⟩
  | handled id event =>
    obtain ⟨ok,rfl⟩ := writtenSource effect_.symm
    -- a Connected event writes that the instance is available
    have other : event ≠ .connected := fun connected => by subst connected; cases final
    exact ⟨ok,if_neg other,rfl⟩
  | startMarked id client | startUndone id | checkWritten id status rest =>
    obtain ⟨_,rfl⟩ := writtenSource effect_.symm
    simp [intended] at final
  | _ => cases effect_

theorem readUnsettled {inst : InstanceRow} (undecided : Undecided g)
    (found : instanceById g.shared.managed.rows inst.id = some inst)
    (unmarked : ¬ (inst.status = .banned ∨ inst.status = .disconnected)) : ¬ Settled g.shared inst.id := by
  intro ⟨_,last⟩
  obtain ⟨w,written,final⟩ := (Option.any_eq_true _ _).mp last
  have status := undecided.latest inst (findMember found).1 w written
  simp only [intended,Bool.and_eq_true,Bool.or_eq_true,beq_iff_eq,status] at final
  exact unmarked final.1

theorem unsettledTurn (undecided : Undecided g) (apart : Apart g (.serve k a)) (found : g.processes[k]? = some p)
    (does : advance g.shared a p = some (next,effect,lock)) :
    Upheld checks (fun id => ¬ Settled (after g.shared k effect lock) id) (g.processes.set k next) := by
  refine upheldMoves undecided.unsettled found ?_ ?_
  · intro j q _ there id reads unsettled
    refine settledKept unsettled (fun w written own known => ?_)
    by_contra final
    subst written own
    obtain ⟨ok,about,_⟩ := settlesSource does (by simpa using final)
    exact apart p found ok w.id about known q (List.mem_of_getElem? there) reads
  · intro id reads
    have quiet : ∀ w, effect = .write w → w.id = id → HasRow g.shared id → intended w = false := by
      intro w written _ _
      by_contra final
      subst written
      obtain ⟨_,_,none_⟩ := settlesSource does (by simpa using final)
      rw [checks,none_] at reads
      cases reads
    refine settledKept ?_ quiet
    cases checkTurn does with
    | reads inst client todo row unmarked same =>
      subst same
      cases reads
      exact readUnsettled undecided row unmarked
    | decides inst client todo status connected before judged same =>
      subst same before
      cases reads
      exact undecided.unsettled _ (List.mem_of_getElem? found) inst.id rfl
    | apart none_ => rw [checks,none_] at reads; cases reads

theorem settledAfter (does : advance s a p = some (next,effect,lock)) (ok : a.ok = true) (about : settles p = some id)
    (known : HasRow s id) : Settled (after s k effect lock) id := by
  have writes : ∃ w, effect = .write w ∧ w.id = id ∧ intended w = true := by
    cases p with
    | handleEvent own event =>
      simp only [settles] at about
      split at about <;> cases about
      next other =>
      cases does
      refine ⟨_,if_pos ok,rfl,?_⟩
      cases event <;> first | rfl | exact absurd rfl other
    | disconnect own =>
      cases about
      cases does
      exact ⟨_,if_pos ok,rfl,rfl⟩
    | _ => cases about
  obtain ⟨w,rfl,own,final⟩ := writes
  obtain ⟨i,inside,same⟩ := known
  refine ⟨⟨{i with status := w.status},memUpdate.mpr ⟨i,inside,?_⟩,same⟩,?_⟩
  · rw [if_pos (same.trans own.symm)]
  · rw [after,logged,lastCons,if_pos own]
    exact final

theorem offline (m : Managed) (client : Nat) (id groupId : UUID) :
    isConnected {m with clients := m.clients.modify client (fun c => {c with online := false})} ⟨id,groupId,client⟩ =
      false := by
  simp only [isConnected,List.getElem?_modify]
  cases m.clients[client]? <;> simp

theorem settledLost {q : Process} (found : g.processes[k]? = some q) (reads : checks q id) (settled : Settled g.shared id) :
    ∃ later, ¬ Guarded step NotOverwritten g later := by
  cases q with
  | checkWrite own status todo =>
    cases reads
    exact ⟨[.serve k (answers true)],fun kept => kept.1 _ found rfl id rfl settled⟩
  | checkSocket inst client todo =>
    cases reads
    refine ⟨[.socket client false,.serve k (answers true),.serve k (answers true)],fun kept => ?_⟩
    have online := kept.2 _ rfl
    have judged := online.2 _ (by
      simp only [step,found,bind,Option.bind,advance,offline,verdict,if_pos]
      rfl)
    exact judged.1 _ (setFound found) rfl inst.id rfl settled
  | _ => cases reads

/- The condition is needed: after a step that breaks it, the run can go on so that the health monitor overwrites. -/
theorem raceLost {j : Nat} {q : Process} {t : Gateway} (found : g.processes[k]? = some p) (ok : a.ok = true)
    (about : settles p = some id) (known : HasRow g.shared id)
    (other : g.processes[j]? = some q) (reads : checks q id) (moved : step g (.serve k a) = some t) :
    ∃ later, ¬ Guarded step NotOverwritten t later := by
  simp only [step,found,bind,Option.bind_eq_some_iff,Option.bind_some] at moved
  obtain ⟨⟨next,effect,lock⟩,does,same⟩ := moved
  cases same
  have apart : k ≠ j := by
    intro same
    subst same
    cases found.symm.trans other
    cases p <;> first | cases reads; done | cases about
  have there : (g.processes.set k next)[j]? = some q := by rwa [List.getElem?_set_ne apart]
  exact settledLost there reads (settledAfter does ok about known)

end Steps

theorem undecidedCreate {g : Gateway} {rows : Rows} {id groupId : UUID} {createdAt : Int} {input : CreateInstanceInput}
    {i : InstanceRow} (undecided : Undecided g)
    (made : createInstance g.shared.managed.rows id createdAt groupId input = some (rows,i)) :
    Undecided {g with shared := ⟨{g.shared.managed with rows := rows},g.shared.holder,
      ⟨id,.disconnected,.insert⟩::g.shared.writes⟩} := by
  have new := createInstanceNew made
  obtain ⟨rfl,own,_,_,fresh⟩ := createInstanceAdds made
  constructor
  · intro j member w last
    rw [lastCons] at last
    rcases List.mem_append.mp member with old | added
    · have other : id ≠ j.id := fun same => new (List.mem_map.mpr ⟨j,old,same.symm⟩)
      rw [if_neg other] at last
      exact undecided.latest j old w last
    · cases List.mem_singleton.mp added
      rw [if_pos own.symm] at last
      cases last
      exact fresh.symm
  · intro p member key reads ⟨⟨j,inside,same⟩,last⟩
    rw [lastCons] at last
    split at last
    · cases last
    next other =>
      refine undecided.unsettled p member key reads ⟨?_,last⟩
      rcases List.mem_append.mp inside with old | added
      · exact ⟨j,old,same⟩
      · cases List.mem_singleton.mp added
        exact absurd (own.symm.trans same) other

theorem undecidedJoin {g : Gateway} {p : Process} (undecided : Undecided g) (none_ : checked p = none) :
    Undecided (join g p) :=
  ⟨undecided.latest,upheldJoins undecided.unsettled (fun _ unsettled => unsettled) (fun id reads => by
    rw [checks,none_] at reads
    cases reads)⟩

theorem undecidedStep (g : Gateway) (e : Event) (t : Gateway) (undecided : Undecided g) (apart : Apart g e)
    (moved : step g e = some t) : Undecided t := by
  cases e with
  | create id createdAt groupId input =>
    simp only [step,bind,Option.bind_eq_some_iff] at moved
    obtain ⟨⟨rows,i⟩,made,same⟩ := moved
    cases same
    exact undecidedCreate undecided made
  | request op tenant id => cases moved; exact undecidedJoin undecided rfl
  | happened id event =>
    simp only [step] at moved
    split at moved <;> cases moved
    exact undecidedJoin undecided rfl
  | check => cases moved; exact undecidedJoin undecided rfl
  | socket client online => cases moved; exact ⟨undecided.latest,undecided.unsettled⟩
  | serve k a =>
    simp only [step,bind,Option.bind_eq_some_iff] at moved
    obtain ⟨p,found,⟨next,effect,lock⟩,does,same⟩ := moved
    cases same
    exact ⟨latestKept undecided.latest,unsettledTurn undecided apart found does⟩

theorem undecidedKept (g : Gateway) (e : Event) (undecided : Undecided g) (_ : Apart g e) : NotOverwritten g e := by
  cases e with
  | serve k a =>
    intro p found _ id about
    cases p <;> cases about
    exact undecided.unsettled _ (List.mem_of_getElem? found) id rfl
  | _ => trivial

/-- No health check overwrites a ban or a disconnect that an event or a request has written, as long as none of them is
written between the read of a health check and the write that follows it. -/
theorem settledStays {g : Gateway} {events : List Event} (start : g.processes = []) (unwritten : g.shared.writes = [])
    (apart : Guarded step Apart g events) : Guarded step NotOverwritten g events := by
  have undecided : Undecided g := by
    constructor
    · intro i _ w last; rw [unwritten] at last; cases last
    · intro p member; rw [start] at member; cases member
  exact guardedImplies undecidedStep undecidedKept undecided apart

def running : Gateway :=
  ⟨⟨{rows := setStatus sampleRows 11 .available, connections := [⟨11,1,0⟩], clients := [⟨11,true,true⟩]},none,[]⟩,[]⟩

def inTurn : List Event :=
  [.check,.serve 0 (answers true),.serve 0 (answers true),.socket 0 false,.serve 0 (answers true),.serve 0 (answers true),
    .happened 11 .loggedOut,.serve 1 (answers true)]

theorem inTurnStays : Guarded step NotOverwritten running inTurn :=
  settledStays rfl rfl (guardedChecks (by decide +kernel))

def overtaken : List Event :=
  [.check,.serve 0 (answers true),.serve 0 (answers true),.happened 11 .loggedOut,.socket 0 false,.serve 1 (answers true),
    .serve 0 (answers true),.serve 0 (answers true)]

theorem banOverwritten :
    (run step running overtaken).map (fun g => (g.shared.managed.rows.instances.map (fun i => (i.id,i.status)),
      g.shared.writes)) =
      some ([(11,.suspect)],[⟨11,.suspect,.health⟩,⟨11,.banned,.event⟩]) ∧
    ¬ Guarded step NotOverwritten running overtaken := by
  decide +kernel

end WppGateway.HealthRace
