import WppGateway.Progress

/-! One worker that nobody disturbs: it comes to every pending recipient once, and stops. -/
namespace WppGateway.Uninterrupted
open Runs GoJson Domain Store Table Selection MessageText Gateway Transitions HeldRows Progress

structure Log where
  chunks : List (List BroadcastRecipient)
  taken : List BroadcastRecipient
  steps : Nat

def blank : Log := ⟨[],[],0⟩

def pcAt (g : System) (j : Nat) : Pc := ((g.workers[j]?).map Worker.pc).getD .returned

def note (before after : Pc) (l : Log) : Log := match before,after with
  | .fetch,.chunk rows => {l with chunks := l.chunks ++ [rows], steps := l.steps + 1}
  | .chunk (r::_),.selecting _ _ _ => {l with taken := l.taken ++ [r], steps := l.steps + 1}
  | _,_ => {l with steps := l.steps + 1}

def moves (j : Nat) : Event → Bool
  | .worker k _ => k == j
  | _ => false

def watched (j : Nat) (s : System × Log) (e : Event) : Option (System × Log) :=
  (step s.1 e).map (fun t => (t,if moves j e then note (pcAt s.1 j) (pcAt t j) s.2 else s.2))

def beside : Event → Bool
  | .send _ | .request _ _ | .pauseGroup _ | .resumeGroup _ | .instanceStatus _ _ => true
  | _ => false

/- No other worker moves, nobody cancels, and the worker's repository calls succeed. -/
def Undisturbed (j : Nat) (g : System) (e : Event) : Prop := (moves j e || beside e) = true ∧ NoFailures g e

instance (j : Nat) (g : System) (e : Event) : Decidable (Undisturbed j g e) := by
  unfold Undisturbed; infer_instance

structure Ready (g : System) (j : Nat) (b : Broadcast) : Prop where
  worker : g.workers[j]? = some (newWorker b)
  keys : Distinct BroadcastRecipient.id g.store.recipients
  unsent : ∀ c ∈ g.sends, ∀ row, c.origin ≠ .worker j row

def waits (b : Broadcast) (r : BroadcastRecipient) : Bool := r.broadcastId == b.id && r.status == .pending

def pendingIn (b : Broadcast) (rows : List BroadcastRecipient) : List BroadcastRecipient := rows.filter (waits b)

def results (g : System) (j : Nat) (row : UUID) : List Bool :=
  (g.sends.filter (fun c => c.origin == .worker j row)).map SendCall.succeeded

def verdict (answers : List Bool) : RecipientStatus := if answers.contains true then .sent else .failed

def Settled (b : Broadcast) (answers : UUID → List Bool) (old new : BroadcastRecipient) : Prop :=
  if waits b old then new.id = old.id ∧ new.broadcastId = old.broadcastId ∧ new.recipient = old.recipient ∧
    new.status = verdict (answers old.id)
  else new = old

def ended (b : Broadcast) (before after : List BroadcastRecipient) (status : RecipientStatus) : Nat :=
  (before.zip after).countP (fun p => waits b p.1 && p.2.status == status)

structure Processed (g : System) (j : Nat) (b : Broadcast) (t : System) (l : Log) : Prop where
  chunks : l.chunks.length = ((pendingOf g.store b.id).length + 19) / 20
  nonempty : ∀ c ∈ l.chunks, c ≠ []
  taken : l.taken.Perm (pendingOf g.store b.id)
  once : ∀ r ∈ pendingOf g.store b.id, (results t j r.id).length ≤ 1
  rows : List.Forall₂ (Settled b (results t j)) g.store.recipients t.store.recipients
  columns : ∀ a ∈ t.store.broadcasts, a.id = b.id → a.status = .completed ∧
    a.sent = ended b g.store.recipients t.store.recipients .sent ∧
    a.failed = ended b g.store.recipients t.store.recipients .failed
  total : ended b g.store.recipients t.store.recipients .sent +
    ended b g.store.recipients t.store.recipients .failed = (pendingOf g.store b.id).length

def answers (g : System) (w : Worker) (ok : Bool) (connected : UUID → Bool) (choices : List Nat) : Oracle where
  ok := ok
  err := ""
  order := getPendingRecipients g.store w.broadcast.id chunkSize
  listing := (availableOf g.store w.broadcast.groupId).insertionSort (fun a b => a.priority ≥ b.priority)
  connected := connected
  vars := match w.pc with
    | .selecting _ r _ => recipientVars w.broadcast r.recipient
    | _ => []
  choices := choices
  freshId := 0
  today := 0

theorem sortedListing (s : Tables) (groupId : UUID) :
    Listing s groupId ((availableOf s groupId).insertionSort (fun a b => a.priority ≥ b.priority)) := by
  have total : Std.Total (fun a b : Instance => a.priority ≥ b.priority) :=
    ⟨fun a b => Int.le_total b.priority a.priority⟩
  have order : IsTrans Instance (fun a b => a.priority ≥ b.priority) :=
    ⟨fun _ _ _ first second => Int.le_trans second first⟩
  exact ⟨List.perm_insertionSort _ _,List.pairwise_insertionSort _ _⟩

theorem canSelect (g : System) (w : Worker) (ok alive : Bool) (connected : UUID → Bool) (choices : List Nat)
    (sel : Selecting) :
    ∃ result, selectStep g w.broadcast.groupId alive (answers g w ok connected choices) sel = some result := by
  cases sel with
  | pauseCheck => exact ⟨_,rfl⟩
  | lookup =>
    simp only [selectStep]
    split <;> exact ⟨_,rfl⟩
  | group =>
    simp only [selectStep]
    split
    · exact ⟨_,rfl⟩
    split
    · exact ⟨_,rfl⟩
    split <;> exact ⟨_,rfl⟩
  | cache s => exact ⟨_,rfl⟩
  | listing s =>
    have listed : Listing g.store w.broadcast.groupId (answers g w ok connected choices).listing := sortedListing _ _
    simp only [selectStep,if_pos listed]
    split
    · exact ⟨_,rfl⟩
    split
    · exact ⟨_,rfl⟩
    split <;> exact ⟨_,rfl⟩

theorem canMove {g : System} {j : Nat} {w : Worker} (found : g.workers[j]? = some w) (active : w.pc ≠ .returned)
    (ok : Bool) (connected : UUID → Bool) (choices : List Nat) :
    (step g (.worker j (answers g w ok connected choices))).isSome = true := by
  have inner : (workerStep g j (answers g w ok connected choices) w).isSome = true := by
    unfold workerStep
    cases at_ : w.pc with
    | chunk rest => cases rest <;> rfl
    | markStarted => dsimp only; split <;> rfl
    | fetch =>
      dsimp only
      split
      · rfl
      split
      · rfl
      split
      · exact (if_pos (List.Perm.refl _)).symm ▸ rfl
      · rfl
    | selecting sel r rest =>
      obtain ⟨result,selected⟩ := canSelect g w ok (ok && !w.done) connected choices sel
      have vars : (answers g w ok connected choices).vars = recipientVars w.broadcast r.recipient := by
        simp [answers,at_]
      have folded : (answers g w ok connected choices).ok = ok := rfl
      simp only [folded,selected,vars]
      cases result <;> simp
    | returned => exact absurd at_ active
    | _ => rfl
  obtain ⟨result,moved⟩ := Option.isSome_iff_exists.mp inner
  simp [step,found,moved]

/-! Where the worker stands: behind it the settled rows, one row in hand, the rest of the page, and the rows that it
has not read yet. -/

def current : Pc → List BroadcastRecipient
  | .selecting _ r _ | .noInstance _ r _ | .sending _ _ r _ | .sendFailed r _ | .sendOk _ r _ => [r]
  | _ => []

def ahead : Pc → List BroadcastRecipient
  | .chunk rest | .progress rest | .selecting _ _ rest | .noInstance _ _ rest | .sending _ _ _ rest
  | .sendFailed _ rest | .sendOk _ _ rest => rest
  | _ => []

def answer : Pc → List Bool
  | .sendFailed _ _ => [false]
  | .sendOk _ _ _ => [true]
  | _ => []

def leaving : Pc → Bool
  | .updateProgress | .markCompleted | .exiting | .returned => true
  | _ => false

def selectTurns : Selecting → Nat
  | .pauseCheck => 14
  | .lookup => 13
  | .group => 12
  | .cache _ => 11
  | .listing _ => 10

def turnsLeft (unread : Nat) : Pc → Nat
  | .markStarted => 6 + 12 * unread
  | .loop => 5 + 12 * unread
  | .fetch => 4 + 12 * unread
  | .chunk rest => 6 + 9 * rest.length + 12 * unread
  | .selecting sel _ rest => selectTurns sel + 9 * rest.length + 12 * unread
  | .sending _ _ _ rest => 9 + 9 * rest.length + 12 * unread
  | .sendFailed _ rest | .sendOk _ _ rest => 8 + 9 * rest.length + 12 * unread
  | .noInstance _ _ rest | .progress rest => 7 + 9 * rest.length + 12 * unread
  | .updateProgress => 3
  | .markCompleted => 2
  | .exiting => 1
  | .returned => 0

def succeeded (found : UUID → List Bool) (r : BroadcastRecipient) : Bool := (found r.id).contains true

def ids (rows : List BroadcastRecipient) : List UUID := rows.map BroadcastRecipient.id

def answered (found : UUID → List Bool) (row : UUID) (ok : Bool) (id : UUID) : List Bool :=
  found id ++ if id = row then [ok] else []

def Row (found : UUID → List Bool) (past : List BroadcastRecipient) (old new : BroadcastRecipient) : Prop :=
  if old.id ∈ ids past then
    new.id = old.id ∧ new.broadcastId = old.broadcastId ∧ new.recipient = old.recipient ∧
      new.status = verdict (found old.id)
  else new = old

theorem rowKeeps {found : UUID → List Bool} {past : List BroadcastRecipient} {old new : BroadcastRecipient}
    (row : Row found past old new) : new.id = old.id := by
  unfold Row at row
  split at row
  · exact row.1
  · rw [row]

theorem rowSettles {found : UUID → List Bool} {past : List BroadcastRecipient} {r old new : BroadcastRecipient}
    {effect : Effect} {f : BroadcastRecipient → BroadcastRecipient} (settles : Settles effect f)
    (apart : r.id ∉ ids past) (status : outcome effect = verdict (found r.id)) (row : Row found past old new) :
    Row found (past ++ [r]) old (if new.id = r.id then f new else new) := by
  rw [rowKeeps row]
  have behind : old.id ∈ ids (past ++ [r]) ↔ old.id ∈ ids past ∨ old.id = r.id := by simp [ids]
  unfold Row at row ⊢
  by_cases same : old.id = r.id
  · -- the row itself: it was as at the start
    rw [if_neg (same ▸ apart)] at row
    rw [if_pos (behind.mpr (.inr same)),if_pos same,row,same,← status]
    exact ⟨(settles.id old).trans same,settles.broadcastId old,settles.recipient old,settles.status old⟩
  · rw [if_neg same]
    by_cases member : old.id ∈ ids past
    · rw [if_pos (behind.mpr (.inl member))]
      rwa [if_pos member] at row
    · rw [if_neg (fun both => (behind.mp both).elim member same)]
      rwa [if_neg member] at row

structure Working (start : List BroadcastRecipient) (b : Broadcast) (table : List BroadcastRecipient)
    (found : UUID → List Bool) (l : Log) (w : Worker) (past unread : List BroadcastRecipient) : Prop where
  own : w.broadcast = b
  open_ : w.done = false
  keys : Distinct BroadcastRecipient.id table
  rows : List.Forall₂ (Row found past) start table
  taken : l.taken = past ++ current w.pc
  pages : l.chunks.flatten = l.taken ++ ahead w.pc
  cover : (pendingIn b start).Perm (l.chunks.flatten ++ unread)
  waiting : (pendingIn b table).Perm (current w.pc ++ ahead w.pc ++ unread)
  nonempty : ∀ c ∈ l.chunks, c ≠ []
  full : l.chunks.flatten.length = min (chunkSize * l.chunks.length) (pendingIn b start).length
  few : chunkSize * l.chunks.length < (pendingIn b start).length + chunkSize
  sent : w.sent = past.countP (succeeded found)
  failed : w.sent + w.failed = past.length
  once : ∀ r ∈ past, (found r.id).length ≤ 1
  now : ∀ r ∈ current w.pc, found r.id = answer w.pc
  later : ∀ id, id ∉ ids l.taken → found id = []
  finish : leaving w.pc = true → unread = []
  steps : l.steps + turnsLeft unread.length w.pc ≤ 12 * (pendingIn b start).length + 6

def Written (columns : List Broadcast) (w : Worker) : Prop := match w.pc with
  | .markCompleted => ∀ a ∈ columns, a.id = w.broadcast.id → a.sent = w.sent ∧ a.failed = w.failed
  | .exiting | .returned => ∀ a ∈ columns, a.id = w.broadcast.id →
    a.status = .completed ∧ a.sent = w.sent ∧ a.failed = w.failed
  | _ => True

section Steps
variable {start table : List BroadcastRecipient} {b : Broadcast} {found : UUID → List Bool} {l : Log} {w : Worker}
  {past unread : List BroadcastRecipient} (inv : Working start b table found l w past unread)
include inv

theorem idsNodup (keys : Distinct BroadcastRecipient.id start) :
    (ids (past ++ current w.pc ++ ahead w.pc ++ unread)).Nodup := by
  have all : (ids (pendingIn b start)).Nodup := distinctFilter keys _
  have cover := inv.cover
  rw [inv.pages,inv.taken] at cover
  exact (cover.map BroadcastRecipient.id).nodup_iff.mp all

theorem workingQuiet {next : Worker} (broadcast : next.broadcast = w.broadcast) (done : next.done = w.done)
    (sent : next.sent = w.sent) (failed : next.failed = w.failed) (hand : current next.pc = current w.pc)
    (page : ahead next.pc = ahead w.pc) (call : answer next.pc = answer w.pc)
    (finish : leaving next.pc = true → unread = [])
    (turns : turnsLeft unread.length next.pc < turnsLeft unread.length w.pc) :
    Working start b table found {l with steps := l.steps + 1} next past unread where
  own := broadcast.trans inv.own
  open_ := done.trans inv.open_
  keys := inv.keys
  rows := inv.rows
  taken := by rw [hand]; exact inv.taken
  pages := by rw [page]; exact inv.pages
  cover := inv.cover
  waiting := by rw [hand,page]; exact inv.waiting
  nonempty := inv.nonempty
  full := inv.full
  few := inv.few
  sent := by rw [sent]; exact inv.sent
  failed := by rw [sent,failed]; exact inv.failed
  once := inv.once
  now := by rw [hand,call]; exact inv.now
  later := inv.later
  finish := finish
  steps := by have steps := inv.steps; dsimp only; omega

theorem workingTakes (keys : Distinct BroadcastRecipient.id start) {r : BroadcastRecipient}
    {rest : List BroadcastRecipient} (at_ : w.pc = .chunk (r::rest)) :
    Working start b table found {l with taken := l.taken ++ [r], steps := l.steps + 1}
      {w with pc := .selecting .pauseCheck r rest} past unread := by
  have apart := idsNodup inv keys
  have taken := inv.taken
  have pages := inv.pages
  have waiting := inv.waiting
  have steps := inv.steps
  rw [at_] at apart taken pages waiting steps
  simp only [current,ahead,List.append_nil,List.nil_append] at apart taken pages waiting
  refine ⟨inv.own,inv.open_,inv.keys,inv.rows,?_,?_,inv.cover,?_,inv.nonempty,inv.full,inv.few,inv.sent,inv.failed,
    inv.once,?_,?_,nofun,?_⟩
  · simp only [taken,current]
  · simp only [pages,ahead,List.append_assoc,List.singleton_append]
  · simpa only [current,ahead,List.singleton_append] using waiting
  · intro q member
    cases List.mem_singleton.mp member
    refine inv.later _ (fun old => ?_)
    rw [taken] at old
    simp only [ids,List.map_append,List.map_cons,List.append_assoc,List.cons_append] at apart old
    exact List.disjoint_of_nodup_append apart old List.mem_cons_self
  · intro id absent
    refine inv.later id (fun old => absent ?_)
    simp only [ids,List.map_append]
    exact List.mem_append_left _ old
  · simp only [turnsLeft,selectTurns,List.length_cons] at steps ⊢
    omega

theorem workingPage {recipients : List BroadcastRecipient} (at_ : w.pc = .fetch)
    (order : recipients.Perm (((pendingIn b table).insertionSort (fun a b => a.id ≤ b.id)).take chunkSize))
    (some_ : recipients ≠ []) :
    Working start b table found {l with chunks := l.chunks ++ [recipients], steps := l.steps + 1}
      {w with pc := .chunk recipients} past
      (((pendingIn b table).insertionSort (fun a b => a.id ≤ b.id)).drop chunkSize) := by
  have taken := inv.taken
  have pages := inv.pages
  have waiting := inv.waiting
  have cover := inv.cover
  have steps := inv.steps
  have full := inv.full
  have few := inv.few
  rw [at_] at taken pages waiting steps
  simp only [current,ahead,List.append_nil,List.nil_append] at taken pages waiting
  generalize sorted : (pendingIn b table).insertionSort (fun a b => a.id ≤ b.id) = all at order ⊢
  have same : all.Perm unread := by
    rw [← sorted]
    exact (List.perm_insertionSort _ _).trans waiting
  have split_ : unread.Perm (recipients ++ all.drop chunkSize) := by
    refine same.symm.trans ?_
    have halves := List.take_append_drop chunkSize all
    exact (List.Perm.of_eq halves.symm).trans (order.symm.append_right _)
  have whole := same.length_eq
  have sizes := split_.length_eq
  have count := cover.length_eq
  have page := order.length_eq
  have positive := List.length_pos_iff.mpr some_
  simp only [List.length_append,List.length_take] at sizes count page
  refine ⟨inv.own,inv.open_,inv.keys,inv.rows,?_,?_,?_,?_,?_,?_,?_,inv.sent,inv.failed,inv.once,nofun,inv.later,
    nofun,?_⟩
  · simpa only [current,List.append_nil] using taken
  · simp only [List.flatten_append,List.flatten_cons,List.flatten_nil,List.append_nil,pages,ahead]
  · simp only [List.flatten_append,List.flatten_cons,List.flatten_nil,List.append_nil,List.append_assoc]
    exact cover.trans (split_.append_left _)
  · simpa only [current,ahead,List.nil_append] using waiting.trans split_
  · intro c member
    rcases List.mem_append.mp member with old | new
    · exact inv.nonempty c old
    · exact List.mem_singleton.mp new ▸ some_
  · simp only [List.flatten_append,List.flatten_cons,List.flatten_nil,List.append_nil,List.length_append,
      List.length_cons,List.length_nil] at full few ⊢
    simp only [chunkSize] at *
    omega
  · simp only [List.length_append,List.length_cons,List.length_nil]
    simp only [chunkSize] at *
    omega
  · simp only [turnsLeft] at steps ⊢
    omega

theorem handApart (keys : Distinct BroadcastRecipient.id start) {r : BroadcastRecipient} (hand : current w.pc = [r]) :
    r.id ∉ ids past := by
  have apart := idsNodup inv keys
  rw [hand] at apart
  simp only [ids,List.map_append,List.map_cons,List.map_nil,List.append_assoc,List.cons_append] at apart
  exact fun old => List.disjoint_of_nodup_append apart old List.mem_cons_self

theorem workingSends (keys : Distinct BroadcastRecipient.id start) {inst : Instance} {text : GoString}
    {r : BroadcastRecipient} {rest : List BroadcastRecipient} (at_ : w.pc = .sending inst text r rest) (ok : Bool) :
    Working start b table (answered found r.id ok) {l with steps := l.steps + 1}
      {w with pc := if ok then .sendOk inst r rest else .sendFailed r rest} past unread := by
  have apart := handApart inv keys (r := r) (by rw [at_]; rfl)
  have behind : ∀ id ∈ ids past, answered found r.id ok id = found id := by
    intro id member
    have other : id ≠ r.id := fun same => apart (same ▸ member)
    rw [answered,if_neg other,List.append_nil]
  have taken := inv.taken
  have pages := inv.pages
  have waiting := inv.waiting
  have now := inv.now
  have steps := inv.steps
  rw [at_] at taken pages waiting now steps
  refine ⟨inv.own,inv.open_,inv.keys,?_,?_,?_,inv.cover,?_,inv.nonempty,inv.full,inv.few,?_,inv.failed,?_,?_,?_,?_,
    ?_⟩
  · refine inv.rows.imp (fun old new row => ?_)
    unfold Row at row ⊢
    split
    · next member =>
      rw [if_pos member] at row
      rw [behind old.id member]
      exact row
    · next absent => rwa [if_neg absent] at row
  · cases ok <;> exact taken
  · cases ok <;> exact pages
  · cases ok <;> exact waiting
  · rw [inv.sent]
    refine congrArg Nat.cast (List.countP_congr (fun q member => ?_))
    simp only [succeeded,behind q.id (List.mem_map_of_mem member)]
  · intro q member
    rw [behind q.id (List.mem_map_of_mem member)]
    exact inv.once q member
  · intro q member
    have mine : q = r := by cases ok <;> exact List.mem_singleton.mp member
    subst mine
    rw [answered,if_pos rfl,now q List.mem_cons_self]
    cases ok <;> rfl
  · intro id absent
    have other : id ≠ r.id := by
      intro same
      refine absent ?_
      rw [taken,same]
      exact List.mem_map_of_mem (List.mem_append_right _ List.mem_cons_self)
    rw [answered,if_neg other,List.append_nil]
    exact inv.later id absent
  · cases ok <;> nofun
  · cases ok <;> simp only [turnsLeft,Bool.false_eq_true,if_false,if_true] at steps ⊢ <;> omega

theorem workingSettles (keys : Distinct BroadcastRecipient.id start) {r : BroadcastRecipient} {next : Worker}
    {effect : Effect} {f : BroadcastRecipient → BroadcastRecipient} (hand : current w.pc = [r])
    (settles : Settles effect f) (status : outcome effect = verdict (answer w.pc))
    (broadcast : next.broadcast = w.broadcast) (done : next.done = w.done)
    (sent : next.sent = w.sent + if (answer w.pc).contains true then 1 else 0)
    (failed : next.sent + next.failed = w.sent + w.failed + 1) (empty : current next.pc = [])
    (page : ahead next.pc = ahead w.pc) (stays : leaving next.pc = false)
    (turns : turnsLeft unread.length next.pc < turnsLeft unread.length w.pc) :
    Working start b (update BroadcastRecipient.id r.id f table) found {l with steps := l.steps + 1} next
      (past ++ [r]) unread := by
  have apart := handApart inv keys hand
  have taken := inv.taken
  have waiting := inv.waiting
  have now := inv.now
  rw [hand] at taken waiting now
  have here := now r List.mem_cons_self
  have listed : r ∈ table ∧ waits b r = true := List.mem_filter.mp (waiting.symm.subset List.mem_cons_self)
  have counted : (past ++ [r]).countP (succeeded found) =
      past.countP (succeeded found) + if (answer w.pc).contains true then 1 else 0 := by
    rw [List.countP_append,List.countP_singleton]
    simp only [succeeded,here]
  refine ⟨broadcast.trans inv.own,done.trans inv.open_,distinctUpdate settles.id inv.keys,?_,?_,?_,inv.cover,?_,
    inv.nonempty,inv.full,inv.few,?_,?_,?_,?_,inv.later,?_,?_⟩
  · rw [update,List.forall₂_map_right_iff]
    exact inv.rows.imp (fun old new row => rowSettles settles apart (by rw [here,status]) row)
  · rw [empty,List.append_nil]
    exact taken
  · rw [page]
    exact inv.pages
  · have gone : waits b (f r) = false := by simp [waits,settles.notPending]
    have left := filterUpdate inv.keys listed.1 rfl listed.2 gone
    rw [empty,page]
    simp only [List.cons_append,List.nil_append] at waiting ⊢
    exact (left.symm.trans waiting).cons_inv
  · rw [sent,counted,inv.sent]
    split <;> simp
  · rw [failed,inv.failed]
    simp
  · intro q member
    rcases List.mem_append.mp member with old | new
    · exact inv.once q old
    · cases List.mem_singleton.mp new
      rw [here]
      cases w.pc <;> simp [answer]
  · rw [empty]
    exact fun q member => (by cases member)
  · rw [stays]
    exact fun leaves => (by cases leaves)
  · have steps := inv.steps
    dsimp only
    omega

end Steps

theorem resultsPerform {g : System} {effect : Effect} (other : area effect ≠ .sends) (j : Nat) (w : Worker) :
    results (perform (setWorker g j w) effect) j = results g j := by
  funext id
  simp only [results,sendsPerform other]
  rfl

theorem resultsSend (g : System) (j : Nat) (w : Worker) (row inst : UUID) (toNumber text : GoString) (ok : Bool) :
    results (perform (setWorker g j w) (.send ⟨.worker j row,inst,toNumber,text,ok⟩)) j =
      answered (results g j) row ok := by
  funext id
  simp only [results,perform,setWorker,answered,List.filter_append,List.map_append]
  by_cases same : id = row
  · subst same
    simp
  · have other : row ≠ id := fun eq => same eq.symm
    simp [same,other]

theorem selectLess {g : System} {groupId : UUID} {alive : Bool} {o : Oracle} {sel : Selecting} {result : Selected}
    (selected : selectStep g groupId alive o sel = some result) : match result with
      | .next next => selectTurns next < selectTurns sel
      | .cached s => selectTurns (.listing s) < selectTurns sel
      | _ => True := by
  cases selectStepSource selected with
  | running => exact Nat.lt_succ_self _
  | known s => show 10 < 13; omega
  | misses => exact Nat.lt_succ_self _
  | made group s => exact Nat.lt_succ_self _
  | caches s => exact Nat.lt_succ_self _
  | _ => trivial

theorem selectAtLeast (sel : Selecting) : 10 ≤ selectTurns sel := by
  cases sel <;> simp [selectTurns]

section AfterSend
variable (sent failed : Int) (rest : List BroadcastRecipient)

theorem currentAfter : current (afterSend sent failed rest) = [] := by
  unfold afterSend; split <;> rfl

theorem aheadAfter : ahead (afterSend sent failed rest) = rest := by
  unfold afterSend; split <;> rfl

theorem leavingAfter : leaving (afterSend sent failed rest) = false := by
  unfold afterSend; split <;> rfl

theorem turnsAfter (unread : Nat) :
    turnsLeft unread (afterSend sent failed rest) < 8 + 9 * rest.length + 12 * unread := by
  unfold afterSend
  split <;> simp [turnsLeft]

end AfterSend

section WorkerSteps
variable {start : List BroadcastRecipient} {b : Broadcast} {l : Log} {past unread : List BroadcastRecipient}
  {s : System} {j : Nat} {o : Oracle} {w next : Worker} {effect : Effect}

theorem workingStep (keys : Distinct BroadcastRecipient.id start)
    (inv : Working start b s.store.recipients (results s j) l w past unread)
    (replied : repository w.pc = true → o.ok = true) (inner : WorkerStep s j o w next effect) :
    ∃ past unread, Working start b (perform (setWorker s j next) effect).store.recipients
      (results (perform (setWorker s j next) effect) j) (note w.pc next.pc l) next past unread := by
  have alive : repository w.pc = true → live o w = true := fun call => liveIff.mpr ⟨replied call,inv.open_⟩
  have closed : ∀ {p : Prop}, repository w.pc = true → live o w = false → p := by
    intro p call lost
    rw [alive call] at lost
    cases lost
  have conclude : ∀ {table found l' past unread}, (perform (setWorker s j next) effect).store.recipients = table →
      results (perform (setWorker s j next) effect) j = found → note w.pc next.pc l = l' →
      Working start b table found l' next past unread →
      ∃ past unread, Working start b (perform (setWorker s j next) effect).store.recipients
        (results (perform (setWorker s j next) effect) j) (note w.pc next.pc l) next past unread := by
    intro table found l' past unread rows calls noted kept
    subst rows calls noted
    exact ⟨past,unread,kept⟩
  -- a step that writes no row and sends nothing
  have still : ∀ {l' past unread}, area effect ≠ .recipients → area effect ≠ .sends → note w.pc next.pc l = l' →
      Working start b s.store.recipients (results s j) l' next past unread →
      ∃ past unread, Working start b (perform (setWorker s j next) effect).store.recipients
        (results (perform (setWorker s j next) effect) j) (note w.pc next.pc l) next past unread :=
    fun row sends noted kept => conclude (recipientsPerform row) (resultsPerform sends j next) noted kept
  cases inner with
  | notStarted at_ lost | unread at_ lost | loseUnselected e r rest at_ lost | loseUnsent r rest at_ lost
  | loseSent inst r rest at_ lost | losesReport rest at_ lost | losesTotals at_ lost | losesCompletion at_ lost =>
    exact closed (by rw [at_]; rfl) lost
  | stopped at_ done | chunkStopped r rest at_ done => rw [inv.open_] at done; cases done
  | emptied at_ replied empty =>
    have none_ := (getPendingEmpty (by decide)).mp empty
    rw [inv.own] at none_
    have waiting := inv.waiting
    rw [show pendingIn b s.store.recipients = [] from none_] at waiting
    have read : unread = [] := (List.append_eq_nil_iff.mp (List.nil_perm.mp waiting)).2
    refine still nofun nofun (by rw [at_]; rfl) (workingQuiet inv rfl rfl rfl rfl ?_ ?_ ?_ (fun _ => read) ?_) <;>
      simp [at_,current,ahead,answer,turnsLeft]
    omega
  | page recipients at_ replied order plain some_ =>
    rw [inv.own] at order
    exact still nofun nofun (by rw [at_]; rfl) (workingPage inv at_ order some_)
  | reaches r rest at_ open_ => exact still nofun nofun (by rw [at_]; rfl) (workingTakes inv keys at_)
  | selectNext sel after r rest at_ selected =>
    have less := selectLess selected
    refine still nofun nofun (by rw [at_]; rfl) (workingQuiet inv rfl rfl rfl rfl ?_ ?_ ?_ nofun ?_) <;>
      simp [at_,current,ahead,answer,turnsLeft]
    exact less
  | selectCached sel strategy r rest at_ selected =>
    have less := selectLess selected
    refine still nofun nofun (by rw [at_]; rfl) (workingQuiet inv rfl rfl rfl rfl ?_ ?_ ?_ nofun ?_) <;>
      simp [at_,current,ahead,answer,turnsLeft]
    exact less
  | selectFailed sel e r rest at_ selected | selectChose sel inst r rest at_ selected order =>
    have most := selectAtLeast sel
    refine still nofun nofun (by rw [at_]; rfl) (workingQuiet inv rfl rfl rfl rfl ?_ ?_ ?_ nofun ?_) <;>
      simp [at_,current,ahead,answer,turnsLeft]
    omega
  | delivers inst text r rest at_ accepted =>
    exact conclude rfl (resultsSend ..) (by rw [at_]; rfl) (workingSends inv keys at_ true)
  | refused inst text r rest at_ failed =>
    exact conclude rfl (resultsSend ..) (by rw [at_]; rfl) (workingSends inv keys at_ false)
  | markUnselected e r rest at_ replied =>
    refine conclude rfl (resultsPerform (fun sends => (by cases sends)) j _) (by rw [at_]; rfl)
      (workingSettles inv keys (by rw [at_]; rfl) (settlesFailed r.id "no_instance") (by rw [at_]; rfl) rfl
        rfl ?_ ?_ rfl (by rw [at_]; rfl) rfl ?_)
    · simp [at_,answer]
    · dsimp only; omega
    · simp [at_,turnsLeft]
  | markUnsent r rest at_ replied =>
    refine conclude rfl (resultsPerform (fun sends => (by cases sends)) j _) (by rw [at_]; rfl)
      (workingSettles inv keys (by rw [at_]; rfl) (settlesFailed r.id "send_failed") (by rw [at_]; rfl) rfl
        rfl ?_ ?_ (currentAfter ..) ?_ (leavingAfter ..) ?_)
    · simp [at_,answer]
    · dsimp only; omega
    · rw [at_]; exact aheadAfter ..
    · rw [at_]; exact turnsAfter ..
  | markSent inst r rest at_ replied =>
    refine conclude rfl (resultsPerform (fun sends => (by cases sends)) j _) (by rw [at_]; rfl)
      (workingSettles inv keys (by rw [at_]; rfl) (settlesSent r.id inst.id) (by rw [at_]; rfl) rfl
        rfl ?_ ?_ (currentAfter ..) ?_ (leavingAfter ..) ?_)
    · simp [at_,answer]
    · dsimp only; omega
    · rw [at_]; exact aheadAfter ..
    · rw [at_]; exact turnsAfter ..
  | started at_ | goesOn at_ | chunkEnd at_ | reports rest at_ =>
    refine still nofun nofun (by rw [at_]; rfl) (workingQuiet inv rfl rfl rfl rfl ?_ ?_ ?_ nofun ?_) <;>
      simp [at_,current,ahead,answer,turnsLeft]
  | totals at_ | completes at_ | returns at_ =>
    have read := inv.finish (by rw [at_]; rfl)
    refine still nofun nofun (by rw [at_]; rfl) (workingQuiet inv rfl rfl rfl rfl ?_ ?_ ?_ (fun _ => read) ?_) <;>
      simp [at_,current,ahead,answer,turnsLeft]

theorem writtenStep (written : Written s.store.broadcasts w) (open_ : w.done = false)
    (replied : repository w.pc = true → o.ok = true) (inner : WorkerStep s j o w next effect) :
    Written (perform (setWorker s j next) effect).store.broadcasts next := by
  have closed : ∀ {p : Prop}, repository w.pc = true → live o w = false → p := by
    intro p call lost
    rw [liveIff.mpr ⟨replied call,open_⟩] at lost
    cases lost
  rw [broadcastsApplied]
  cases inner with
  | notStarted at_ lost | losesTotals at_ lost | losesCompletion at_ lost => exact closed (by rw [at_]; rfl) lost
  | stopped at_ done | chunkStopped r rest at_ done => rw [open_] at done; cases done
  | totals at_ =>
    intro a member same
    obtain ⟨old,_,rfl⟩ := List.mem_map.mp member
    rw [(appliedKeeps _ old).1] at same
    simp only [applied,if_pos same,and_self]
  | completes at_ =>
    simp only [Written,at_] at written
    intro a member same
    obtain ⟨old,inside,rfl⟩ := List.mem_map.mp member
    rw [(appliedKeeps _ old).1] at same
    simp only [applied,if_pos same,true_and]
    exact written old inside same
  | returns at_ =>
    simp only [Written,at_] at written
    intro a member same
    obtain ⟨old,inside,rfl⟩ := List.mem_map.mp member
    exact written old inside same
  | markUnsent | loseUnsent | markSent | loseSent =>
    simp only [Written,afterSend]
    split <;> split at * <;> trivial
  | _ => trivial

end WorkerSteps

theorem besideFrame {g t : System} {e : Event} (aside : beside e = true) (moved : Moved g e t) (j : Nat) :
    t.workers = g.workers ∧ t.store.recipients = g.store.recipients ∧ t.store.broadcasts = g.store.broadcasts ∧
      results t j = results g j := by
  cases moved with
  | starts | call | worker => cases aside
  | opens e c call => cases e <;> first | (cases aside; done) | cases call
  | request k o r next effect found inner =>
    have areas := requestArea inner
    refine ⟨workersPerform (by rcases areas with a | a | a | a <;> rw [a] <;> decide),
      recipientsPerform (by rcases areas with a | a | a | a <;> rw [a] <;> decide),
      broadcastsPerform (by rcases areas with a | a | a | a <;> rw [a] <;> decide),?_⟩
    funext id
    rcases (requestOutside inner).sends with same | ⟨k,call,origin,same⟩
    · simp only [results,same]
    · simp [results,same,origin]
  | send | pauses | resumes | status => exact ⟨rfl,rfl,rfl,rfl⟩

def Good (g : System) (j : Nat) (b : Broadcast) (x : System × Log) : Prop := ∃ w past unread,
  x.1.workers[j]? = some w ∧ Written x.1.store.broadcasts w ∧
    Working g.store.recipients b x.1.store.recipients (results x.1 j) x.2 w past unread

section Run
variable {g : System} {j : Nat} {b : Broadcast}

theorem pcFound {w : Worker} (found : g.workers[j]? = some w) : pcAt g j = w.pc := by
  simp [pcAt,found]

theorem goodStep (ready : Ready g j b) (x : System × Log) (e : Event) (y : System × Log) (good : Good g j b x)
    (alone : Undisturbed j x.1 e) (moved : watched j x e = some y) : Good g j b y := by
  obtain ⟨w,past,unread,found,written,inv⟩ := good
  obtain ⟨t,stepped,rfl⟩ := Option.map_eq_some_iff.mp moved
  have source := movedSource stepped
  cases own : moves j e with
  | false =>
    have aside : beside e = true := by simpa [own] using alone.1
    obtain ⟨workers,rows,columns,calls⟩ := besideFrame aside source j
    refine ⟨w,past,unread,?_⟩
    simp only [Bool.false_eq_true,if_false,workers,rows,columns,calls]
    exact ⟨found,written,inv⟩
  | true =>
    cases e with
    | worker k o =>
      cases beq_iff_eq.mp own
      cases source with
      | opens e c call => cases call
      | worker _ _ v next effect here inner =>
        cases Option.some.inj (found.symm.trans here)
        have replied := alone.2 (w,o) (moverFound found o) inv.open_
        have after := workerAfter found inner j
        rw [if_pos rfl] at after
        obtain ⟨past,unread,kept⟩ := workingStep ready.keys inv replied inner
        refine ⟨next,past,unread,after,writtenStep written inv.open_ replied inner,?_⟩
        rw [if_pos rfl,pcFound found,pcFound after]
        exact kept
    | _ => cases own

theorem goodStart (ready : Ready g j b) : Good g j b (g,blank) := by
  have none_ : ∀ id, results g j id = [] := by
    intro id
    simp only [results,List.map_eq_nil_iff,List.filter_eq_nil_iff,beq_iff_eq]
    exact fun c member => ready.unsent c member id
  have same : ∀ rows : List BroadcastRecipient, List.Forall₂ (Row (results g j) []) rows rows := by
    intro rows
    induction rows with
    | nil => exact .nil
    | cons r rest ih => exact .cons (by simp [Row,ids]) ih
  refine ⟨newWorker b,[],pendingIn b g.store.recipients,ready.worker,trivial,rfl,rfl,ready.keys,same _,rfl,rfl,
    .refl _,.refl _,nofun,?_,?_,rfl,rfl,nofun,nofun,fun id _ => none_ id,nofun,?_⟩
  · simp [blank]
  · simp [blank,chunkSize]
  · simp only [blank,newWorker,turnsLeft]
    omega

theorem rowsSettled {start table past : List BroadcastRecipient} {found : UUID → List Bool}
    (keys : Distinct BroadcastRecipient.id start) (all : past.Perm (pendingIn b start))
    (rows : List.Forall₂ (Row found past) start table) : List.Forall₂ (Settled b found) start table := by
  have behind : ∀ old ∈ start, old.id ∈ ids past ↔ waits b old = true := by
    intro old member
    constructor
    · intro inside
      obtain ⟨r,there,same⟩ := List.mem_map.mp inside
      obtain ⟨listed,waiting⟩ := List.mem_filter.mp (all.subset there)
      rwa [← sameRow keys listed member same]
    · intro waiting
      exact List.mem_map_of_mem (all.symm.subset (List.mem_filter.mpr ⟨member,waiting⟩))
  clear keys all
  induction rows with
  | nil => exact .nil
  | cons row _ ih =>
    refine .cons ?_ (ih (fun old member => behind old (List.mem_cons_of_mem _ member)))
    have here := behind _ List.mem_cons_self
    simp only [Row,here] at row
    exact row

theorem endedCount {start table : List BroadcastRecipient} {found : UUID → List Bool}
    (rows : List.Forall₂ (Settled b found) start table) (status : RecipientStatus) :
    ended b start table status = (pendingIn b start).countP (fun r => verdict (found r.id) == status) := by
  induction rows with
  | nil => rfl
  | @cons old new olds news row _ ih =>
    simp only [ended,pendingIn] at ih
    simp only [ended,pendingIn,List.zip_cons_cons,List.countP_cons,List.filter_cons,ih]
    cases waiting : waits b old with
    | false => simp
    | true =>
      simp only [Settled,waiting,if_true] at row
      simp [row.2.2.2,List.countP_cons]

theorem processed (ready : Ready g j b) {t : System} {l : Log} (good : Good g j b (t,l)) (stopped : pcAt t j = .returned) :
    Processed g j b t l := by
  obtain ⟨w,past,unread,found,written,inv⟩ := good
  have at_ : w.pc = .returned := (pcFound found).symm.trans stopped
  have none_ := inv.finish (by rw [at_]; rfl)
  have taken := inv.taken
  have pages := inv.pages
  have cover := inv.cover
  rw [at_] at taken pages
  simp only [current,ahead,List.append_nil] at taken pages
  rw [none_,List.append_nil,pages,taken] at cover
  have rows := rowsSettled ready.keys cover.symm inv.rows
  have full := inv.full
  have few := inv.few
  rw [pages,taken,← cover.length_eq] at full
  have n : (pendingOf g.store b.id).length = (pendingIn b g.store.recipients).length := rfl
  have sent : ended b g.store.recipients t.store.recipients .sent = past.countP (succeeded (results t j)) := by
    rw [endedCount rows,cover.countP_eq]
    refine List.countP_congr (fun r _ => ?_)
    simp only [verdict,succeeded]
    split <;> simp_all
  have failed : ended b g.store.recipients t.store.recipients .failed = past.countP (fun r => !succeeded (results t j) r) := by
    rw [endedCount rows,cover.countP_eq]
    refine List.countP_congr (fun r _ => ?_)
    simp only [verdict,succeeded]
    split <;> simp_all
  have whole : past.length = past.countP (succeeded (results t j)) + past.countP (fun r => !succeeded (results t j) r) := by
    simpa using List.length_eq_countP_add_countP (succeeded (results t j)) (l := past)
  have counted : w.sent = past.countP (succeeded (results t j)) := inv.sent
  have both := inv.failed
  refine ⟨?_,inv.nonempty,?_,?_,rows,?_,?_⟩
  · simp only [chunkSize] at full few
    omega
  · rw [taken]
    exact cover.symm
  · exact fun r member => inv.once r (cover.subset member)
  · intro a member own
    simp only [Written,at_,inv.own] at written
    obtain ⟨status,first,second⟩ := written a member own
    refine ⟨status,?_,?_⟩
    · rw [first,counted,sent]
    · rw [second,failed]
      omega
  · rw [sent,failed,n,cover.length_eq]
    omega

theorem watchedStep (x : System × Log) (e : Event) : (watched j x e).map Prod.fst = step x.1 (id e) := by
  simp [watched,Function.comp_def]

/-- An undisturbed worker stops after at most twelve steps for each of the `n` pending recipients and six more, and until
then has a next step whatever becomes of the calls. Once it has stopped it has read n/20 pages, rounded up, has come to
every recipient once, has sent to each at most once and written what became of it, and has counted them. -/
theorem processesAll (ready : Ready g j b) {events : List Event} (alone : Guarded step (Undisturbed j) g events)
    {t : System} (ran : run step g events = some t) : ∃ l, run (watched j) (g,blank) events = some (t,l) ∧
      l.steps ≤ 12 * (pendingOf g.store b.id).length + 6 ∧
      (∀ w, t.workers[j]? = some w → w.pc ≠ .returned → ∀ (ok : Bool) (connected : UUID → Bool) (choices : List Nat),
        (step t (.worker j (answers t w ok connected choices))).isSome = true) ∧
      (pcAt t j = .returned → Processed g j b t l) := by
  have mirrored := runMirrored (watchedStep (j := j)) (g,blank) events
  rw [List.map_id,ran] at mirrored
  obtain ⟨⟨_,l⟩,reached,rfl⟩ := Option.map_eq_some_iff.mp mirrored
  have guarded := guardedMirrored (s := (g,blank)) (watchedStep (j := j)) (by rw [List.map_id]; exact alone)
  have good := guardedRun (goodStep ready) (goodStart ready) guarded reached
  refine ⟨l,reached,?_,fun w found active => canMove found active,processed ready good⟩
  obtain ⟨w,past,unread,_,_,inv⟩ := good
  have steps : l.steps + turnsLeft unread.length w.pc ≤ 12 * (pendingOf g.store b.id).length + 6 := inv.steps
  omega

end Run

def launched : System := startJob (boot (sampleTables [31,32])) (sampleBroadcast 2)

def straightRun : List Event := works 0 15 accepts ++ works 0 1 refuses ++ works 0 7 accepts

theorem bothProcessed : ∃ t l, run (watched 0) (launched,blank) straightRun = some (t,l) ∧
    l.steps ≤ 30 ∧ Processed launched 0 (sampleBroadcast 2) t l ∧
    t.store.recipients.map BroadcastRecipient.status = [.sent,.failed] := by
  have ends : (run step launched straightRun).map (fun t => (pcAt t 0,t.store.recipients.map BroadcastRecipient.status)) =
      some (.returned,[.sent,.failed]) := by decide +kernel
  obtain ⟨t,ran,values⟩ := Option.map_eq_some_iff.mp ends
  simp only [Prod.mk.injEq] at values
  have ready : Ready launched 0 (sampleBroadcast 2) := ⟨rfl,by decide,nofun⟩
  obtain ⟨l,logged,steps,_,done⟩ := processesAll ready (guardedChecks (by decide +kernel)) ran
  exact ⟨t,l,logged,steps,done values.1,values.2⟩

end WppGateway.Uninterrupted
