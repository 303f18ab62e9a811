import WppGateway.Completion

/-! The two records of a broadcast's progress: the columns of its row, written from a
worker's own counters, and the statuses of its recipients. -/
namespace WppGateway.Progress
open Runs GoJson Domain Store Table Gateway Transitions HeldRows Completion

def tally (s : Tables) (id : UUID) (status : RecipientStatus) : Nat :=
  s.recipients.countP (fun r => r.broadcastId == id && r.status == status)

def sizeOf (s : Tables) (id : UUID) : Nat := s.recipients.countP (fun r => r.broadcastId == id)

structure Accounted (id : UUID) (g : System) : Prop where
  columns : ∀ b ∈ g.store.broadcasts, b.id = id → b.status = .completed →
    b.sent = tally g.store id .sent ∧ b.failed = tally g.store id .failed
  progress : ∀ p, getProgress g.store id = some p → p.status = .completed →
    p.sent + p.failed + p.pending = p.total

def counting : Pc → Bool
  | .markStarted | .exiting | .returned => false
  | _ => true

def repository : Pc → Bool
  | .markStarted | .fetch | .noInstance _ _ _ | .sendFailed _ _ | .sendOk _ _ _ | .progress _
  | .updateProgress | .markCompleted => true
  | _ => false

def OneWorker (g : System) (e : Event) : Prop :=
  ∀ b ∈ started g e, ∀ w ∈ g.workers, w.broadcast.id = b.id → w.pc = .returned

/- Repository calls fail under a cancelled context only. -/
def NoFailures (g : System) (e : Event) : Prop :=
  ∀ m ∈ mover g e, m.1.done = false → repository m.1.pc = true → m.2.ok = true

/- MarkStarted takes effect only while every recipient of the broadcast is pending. -/
def StartsUntouched (id : UUID) (g : System) (e : Event) : Prop :=
  ∀ m ∈ mover g e, m.1.pc = .markStarted → live m.2 m.1 = true → m.1.broadcast.id = id →
    ∀ r ∈ g.store.recipients, r.broadcastId = id → r.status = .pending

def ProgressSafe (id : UUID) (g : System) (e : Event) : Prop :=
  OneWorker g e ∧ NoFailures g e ∧ StartsUntouched id g e

instance (g : System) (e : Event) : Decidable (OneWorker g e) := by
  unfold OneWorker; infer_instance
instance (g : System) (e : Event) : Decidable (NoFailures g e) := by
  unfold NoFailures; infer_instance
instance (id : UUID) (g : System) (e : Event) : Decidable (StartsUntouched id g e) := by
  unfold StartsUntouched; infer_instance
instance (id : UUID) (g : System) (e : Event) : Decidable (ProgressSafe id g e) := by
  unfold ProgressSafe; infer_instance

theorem startsAlone {g e} (one : OneWorker g e) : StartsAlone g e := by
  intro b starts w member same
  simp only [quiet,one b starts w member same]

theorem readsPending {g e} (none_ : NoFailures g e) : ReadsPending g e := by
  intro m moves at_ open_ failed
  have answered := none_ m moves open_ (by rw [at_]; rfl)
  rw [failed] at answered; cases answered

structure Accounting (id : UUID) (n : Nat) (g : System) : Prop where
  holding : Holding g
  exhausted : Exhausted g
  lone : ∀ (j k : Nat) (v w : Worker), g.workers[j]? = some v → g.workers[k]? = some w →
    v.broadcast.id = w.broadcast.id → v.pc ≠ .returned → w.pc ≠ .returned → j = k
  total : ∀ b ∈ g.store.broadcasts, b.id = id → b.total = n
  size : sizeOf g.store id = n
  kinds : ∀ r ∈ g.store.recipients, r.broadcastId = id →
    r.status = .pending ∨ r.status = .sent ∨ r.status = .failed
  zero : ∀ w ∈ g.workers, w.pc = .markStarted → w.sent = 0 ∧ w.failed = 0
  counts : ∀ w ∈ g.workers, w.broadcast.id = id → w.done = false → counting w.pc = true →
    w.sent = tally g.store id .sent ∧ w.failed = tally g.store id .failed
  totals : ∀ w ∈ g.workers, w.broadcast.id = id → w.done = false → w.pc = .markCompleted →
    ∀ b ∈ g.store.broadcasts, b.id = id → b.sent = w.sent ∧ b.failed = w.failed
  completed : ∀ b ∈ g.store.broadcasts, b.id = id → b.status = .completed →
    b.sent = tally g.store id .sent ∧ b.failed = tally g.store id .failed ∧ pendingOf g.store id = [] ∧
    ∀ w ∈ g.workers, w.broadcast.id = id → w.done = true ∨ counting w.pc = false

theorem touchedCount {g j o w next effect} (inv : Holding g) (found : g.workers[j]? = some w)
    (inner : WorkerStep g j o w next effect) (row : area effect = .recipients) (p : BroadcastRecipient → Bool) :
    ∃ before after, before ∈ g.store.recipients ∧ before.broadcastId = w.broadcast.id ∧
      before.status = .pending ∧ after.broadcastId = w.broadcast.id ∧ after.status = outcome effect ∧
      (perform (setWorker g j next) effect).store.recipients.countP p + (if p before then 1 else 0) =
        g.store.recipients.countP p + (if p after then 1 else 0) := by
  obtain ⟨r,f,front,_,busy,settles,written⟩ := touches inner row
  obtain ⟨line,member,here,owner,pending⟩ := inv.waiting j w found busy r (by rw [front]; exact List.mem_cons_self)
  refine ⟨line,f line,member,owner,pending,by rw [settles.broadcastId]; exact owner,settles.status line,?_⟩
  rw [written]
  exact countUpdate inv.keys p member here

theorem tallyWorker {g j o w next effect} (inv : Holding g) (found : g.workers[j]? = some w)
    (inner : WorkerStep g j o w next effect) (id : UUID) (st : RecipientStatus) (settled : st ≠ .pending) :
    tally (perform (setWorker g j next) effect).store id st = tally g.store id st +
      if area effect = .recipients ∧ w.broadcast.id = id ∧ outcome effect = st then 1 else 0 := by
  by_cases row : area effect = .recipients
  · obtain ⟨before,after,_,_,pending,owner,status,counted⟩ := touchedCount inv found inner row
      (fun r => r.broadcastId == id && r.status == st)
    have gone : (before.broadcastId == id && before.status == st) = false := by
      simp [pending,settled.symm]
    rw [gone] at counted
    simp only [tally]
    simpa [row,owner,status] using counted
  · simp only [tally,recipientsPerform row,row,false_and,if_false,Nat.add_zero]
    rfl

theorem sizeWorker {g j o w next effect} (inv : Holding g) (found : g.workers[j]? = some w)
    (inner : WorkerStep g j o w next effect) (id : UUID) :
    sizeOf (perform (setWorker g j next) effect).store id = sizeOf g.store id := by
  by_cases row : area effect = .recipients
  · obtain ⟨before,after,_,same,_,owner,_,counted⟩ := touchedCount inv found inner row (fun r => r.broadcastId == id)
    simp only [same,owner] at counted
    simp only [sizeOf]
    omega
  · simp only [sizeOf,recipientsPerform row]
    rfl

theorem kindsWorker {g j o w next effect} {id : UUID}
    (kinds : ∀ r ∈ g.store.recipients, r.broadcastId = id →
      r.status = .pending ∨ r.status = .sent ∨ r.status = .failed)
    (inner : WorkerStep g j o w next effect) :
    ∀ r ∈ (perform (setWorker g j next) effect).store.recipients, r.broadcastId = id →
      r.status = .pending ∨ r.status = .sent ∨ r.status = .failed := by
  by_cases row : area effect = .recipients
  · obtain ⟨q,f,_,_,_,settles,written⟩ := touches inner row
    rw [written]
    intro r member here
    obtain ⟨old,before,rfl⟩ := memUpdate.mp member
    by_cases same : old.id = q.id
    · rw [if_pos same,settles.status]
      cases effect <;> simp [outcome]
    · rw [if_neg same] at here ⊢; exact kinds old before here
  · rw [recipientsPerform row]; exact kinds

theorem countersStep {g j o w next effect} (inner : WorkerStep g j o w next effect)
    (open_ : w.done = false) (answered : repository w.pc = true → o.ok = true) (counts : counting next.pc = true) :
    (w.pc = .markStarted ∧ live o w = true ∧ area effect ≠ .recipients ∧ next.sent = w.sent ∧ next.failed = w.failed) ∨
    (counting w.pc = true ∧
      next.sent = w.sent + (if area effect = .recipients ∧ outcome effect = .sent then 1 else 0) ∧
      next.failed = w.failed + (if area effect = .recipients ∧ outcome effect = .failed then 1 else 0)) := by
  have alive : repository w.pc = true → live o w = true := fun call => liveIff.mpr ⟨answered call,open_⟩
  cases inner with
  | started at_ answered => exact .inl ⟨at_,answered,nofun,rfl,rfl⟩
  | loseUnselected e r rest at_ lost | loseUnsent r rest at_ lost | loseSent inst r rest at_ lost =>
    have answered := alive (by rw [at_]; rfl)
    rw [lost] at answered; cases answered
  | _ => first | (cases counts; done) | exact .inr (by simp_all [counting,area,outcome])

theorem outsideRow {g e t} (moved : Moved g e t) {b : Broadcast} (after : b ∈ t.store.broadcasts) :
    (∃ j o, e = .worker j o) ∨ ∃ a ∈ g.store.broadcasts, b.id = a.id ∧ b.total = a.total ∧ b.sent = a.sent ∧
      b.failed = a.failed ∧ (b.status = .completed → a.status = .completed) := by
  cases moved with
  | call k ok c next effect found inner =>
    rw [broadcastsApplied] at after
    obtain ⟨a,before,rfl⟩ := List.mem_map.mp after
    refine .inr ⟨a,before,?_⟩
    rcases callArea inner with area_ | area_ | area_ | area_
    · cases effect <;> first | exact ⟨rfl,rfl,rfl,rfl,fun done => done⟩ | cases area_
    · cases effect with
      | updateStatus id st =>
        have open_ : st ≠ .completed := by
          rintro rfl
          cases c <;> simp only [callStep] at inner <;> (repeat' split at inner) <;> cases inner
        simp only [applied]
        split
        · exact ⟨rfl,rfl,rfl,rfl,fun done => absurd done open_⟩
        · exact ⟨rfl,rfl,rfl,rfl,fun done => done⟩
      | markStarted | updateProgress | markCompleted =>
        cases c <;> simp only [callStep] at inner <;> (repeat' split at inner) <;> cases inner
      | _ => cases area_
    · cases effect <;> first | exact ⟨rfl,rfl,rfl,rfl,fun done => done⟩ | cases area_
    · cases effect <;> first | exact ⟨rfl,rfl,rfl,rfl,fun done => done⟩ | cases area_
  | worker j o => exact .inl ⟨j,o,rfl⟩
  | request k o r next effect found inner =>
    rw [broadcastsPerform (by rcases requestArea inner with a | a | a | a <;> rw [a] <;> decide)] at after
    exact .inr ⟨b,after,rfl,rfl,rfl,rfl,fun done => done⟩
  | _ => exact .inr ⟨b,after,rfl,rfl,rfl,rfl,fun done => done⟩

theorem accountingOutside {id : UUID} {n : Nat} {g e t} (inv : Accounting id n g) (safe : ProgressSafe id g e)
    (moved : step g e = some t) (outside : Outside g e t) : Accounting id n t := by
  have source := movedSource moved
  have row : ∀ b ∈ t.store.broadcasts, ∃ a ∈ g.store.broadcasts, b.id = a.id ∧ b.total = a.total ∧
      b.sent = a.sent ∧ b.failed = a.failed ∧ (b.status = .completed → a.status = .completed) := by
    intro b after
    rcases outsideRow source after with ⟨j,o,same⟩ | found
    · exact absurd same (outside.event j o)
    · exact found
  have older : ∀ w ∈ t.workers, w.pc ≠ .markStarted → ∃ v ∈ g.workers, w.broadcast = v.broadcast ∧
      w.pc = v.pc ∧ w.sent = v.sent ∧ w.failed = v.failed ∧ (w.done = false → v.done = false) := by
    intro w after past
    obtain ⟨k,found⟩ := List.mem_iff_getElem?.mp after
    rcases outsideWorker outside found with ⟨b,_,rfl,_⟩ | ⟨v,before,rfl | rfl⟩
    · exact absurd rfl past
    · exact ⟨_,List.mem_of_getElem? before,rfl,rfl,rfl,rfl,fun h => h⟩
    · exact ⟨v,List.mem_of_getElem? before,rfl,rfl,rfl,rfl,nofun⟩
  have tallies : ∀ st, tally t.store id st = tally g.store id st := by
    intro st; simp only [tally,outside.recipients]
  refine ⟨holdingOutside inv.holding (startsAlone safe.1) outside,
    exhaustedStep g e t inv.exhausted (readsPending safe.2.1) moved,?_,?_,?_,?_,?_,?_,?_,?_⟩
  · intro j k v w hv hw same pv pw
    have fresh : ∀ b, started g e = some b → ∀ (i : Nat) (u : Worker), g.workers[i]? = some u →
        u.broadcast.id = b.id → u.pc = .returned :=
      fun b starts i u found same => safe.1 b starts u (List.mem_of_getElem? found) same
    rcases outsideWorker outside hv with ⟨b,starts,rfl,rfl⟩ | ⟨v',fv,sv⟩
    · rcases outsideWorker outside hw with ⟨c,_,rfl,rfl⟩ | ⟨w',fw,rfl | rfl⟩
      · rfl
      · exact absurd (fresh b starts k _ fw same.symm) pw
      · exact absurd (fresh b starts k w' fw same.symm) pw
    · have bv : v.broadcast = v'.broadcast ∧ v.pc = v'.pc := by rcases sv with rfl | rfl <;> exact ⟨rfl,rfl⟩
      rcases outsideWorker outside hw with ⟨c,starts,rfl,rfl⟩ | ⟨w',fw,sw⟩
      · exact absurd (fresh c starts j v' fv (by rw [← bv.1]; exact same)) (by rw [← bv.2]; exact pv)
      · have bw : w.broadcast = w'.broadcast ∧ w.pc = w'.pc := by rcases sw with rfl | rfl <;> exact ⟨rfl,rfl⟩
        exact inv.lone j k v' w' fv fw (by rw [← bv.1,← bw.1]; exact same) (by rw [← bv.2]; exact pv)
          (by rw [← bw.2]; exact pw)
  · intro b after here
    obtain ⟨a,before,same,total,_⟩ := row b after
    rw [total]; exact inv.total a before (same.symm.trans here)
  · simp only [sizeOf,outside.recipients]; exact inv.size
  · rw [outside.recipients]; exact inv.kinds
  · intro w after first
    obtain ⟨k,found⟩ := List.mem_iff_getElem?.mp after
    rcases outsideWorker outside found with ⟨b,_,rfl,_⟩ | ⟨v,before,rfl | rfl⟩
    · exact ⟨rfl,rfl⟩
    · exact inv.zero _ (List.mem_of_getElem? before) first
    · exact inv.zero v (List.mem_of_getElem? before) first
  · intro w after here open_ active
    obtain ⟨v,before,broadcast,pc,sent,failed,live_⟩ := older w after (by rintro first; rw [first] at active; cases active)
    rw [sent,failed,tallies,tallies]
    exact inv.counts v before (by rw [← broadcast]; exact here) (live_ open_) (by rw [← pc]; exact active)
  · intro w after here open_ at_ b row_ own
    obtain ⟨v,before,broadcast,pc,sent,failed,live_⟩ := older w after (by rw [at_]; nofun)
    obtain ⟨a,old,same,_,sa,fa,_⟩ := row b row_
    rw [sent,failed,sa,fa]
    exact inv.totals v before (by rw [← broadcast]; exact here) (live_ open_) (by rw [← pc]; exact at_) a old
      (same.symm.trans own)
  · intro b after here done
    obtain ⟨a,old,same,_,sa,fa,status⟩ := row b after
    obtain ⟨sent,failed,none_,gone⟩ := inv.completed a old (same.symm.trans here) (status done)
    rw [sa,fa,tallies,tallies]
    refine ⟨sent,failed,pendingKept source none_,fun w member own => ?_⟩
    by_cases first : w.pc = .markStarted
    · exact .inr (by rw [first]; rfl)
    · obtain ⟨v,before,broadcast,pc,_,_,live_⟩ := older w member first
      rcases gone v before (by rw [← broadcast]; exact own) with closed | left
      · refine .inl ?_
        cases open_ : w.done with
        | true => rfl
        | false => rw [live_ open_] at closed; cases closed
      · exact .inr (by rw [pc]; exact left)

theorem appliedForeign {g j o w next effect} (inner : WorkerStep g j o w next effect) {a : Broadcast}
    (other : a.id ≠ w.broadcast.id) : applied effect a = a := by
  cases inner <;> first | rfl | exact if_neg other

theorem idleEffect {g j o w next effect} (inner : WorkerStep g j o w next effect)
    (idle : w.done = true ∨ counting w.pc = false) : area effect ≠ .recipients ∧
      ∀ a : Broadcast, a.id = w.broadcast.id → (applied effect a).status = .completed →
        applied effect a = a ∧ (next.done = true ∨ counting next.pc = false) := by
  have lost : counting w.pc = true → live o w = false := by
    intro active
    rcases idle with done | gone
    · simp [live,done]
    · rw [active] at gone; cases gone
  have closed : ∀ {p : Prop}, live o w = true → counting w.pc = true → p := by
    intro p alive active
    rw [lost active] at alive; cases alive
  cases inner with
  | started at_ answered =>
    refine ⟨fun row => (by cases row),fun a same done => ?_⟩
    simp only [applied,if_pos same] at done
    cases done
  | markUnselected e r rest at_ answered | markUnsent r rest at_ answered | markSent inst r rest at_ answered
  | reports rest at_ answered | totals at_ answered | completes at_ answered =>
    exact closed answered (by rw [at_]; rfl)
  | notStarted | returns => exact ⟨fun row => (by cases row),fun _ _ _ => ⟨rfl,.inr rfl⟩⟩
  | _ at_ =>
    exact ⟨fun row => (by cases row),fun _ _ _ => ⟨rfl,idle.imp_right (fun gone => by simp_all [counting])⟩⟩

theorem appliedOpen {g j o w next effect} (inner : WorkerStep g j o w next effect)
    (notLast : ¬ (w.pc = .markCompleted ∧ w.done = false)) {a : Broadcast}
    (done : (applied effect a).status = .completed) : a.status = .completed := by
  cases inner with
  | started => dsimp only [applied] at done; split at done <;> first | exact done | cases done
  | reports | totals => dsimp only [applied] at done; split at done <;> exact done
  | completes at_ answered => exact absurd ⟨at_,(liveIff.mp answered).2⟩ notLast
  | _ => exact done

section WorkerStep
variable {id : UUID} {n j : Nat} {g : System} {o : Oracle} {w next : Worker} {effect : Effect}
  (inv : Accounting id n g) (safe : ProgressSafe id g (.worker j o)) (found : g.workers[j]? = some w)
  (inner : WorkerStep g j o w next effect)
include inv found inner

theorem memberAfter {u : Worker} (inside : u ∈ (perform (setWorker g j next) effect).workers)
    (own : u.broadcast.id = id) :
    u = next ∨ (u ∈ g.workers ∧ (w.broadcast.id ≠ id ∨ u.pc = .returned)) := by
  obtain ⟨k,at_⟩ := List.mem_iff_getElem?.mp inside
  rw [workerAfter found inner] at at_
  split at at_
  · exact .inl (Option.some.inj at_).symm
  · next other =>
    refine .inr ⟨List.mem_of_getElem? at_,?_⟩
    by_cases same : w.broadcast.id = id
    · refine .inr (Classical.byContradiction fun busy => other ?_)
      exact inv.lone j k w u found at_ (same.trans own.symm) (workerActive inner) busy
    · exact .inl same

theorem loneAfter (a b : Nat) (u v : Worker) (hu : (perform (setWorker g j next) effect).workers[a]? = some u)
    (hv : (perform (setWorker g j next) effect).workers[b]? = some v) (same : u.broadcast.id = v.broadcast.id)
    (pu : u.pc ≠ .returned) (pv : v.pc ≠ .returned) : a = b := by
  have older : ∀ (k : Nat) (x : Worker), (perform (setWorker g j next) effect).workers[k]? = some x →
      x.pc ≠ .returned → ∃ y, g.workers[k]? = some y ∧ y.broadcast = x.broadcast ∧ y.pc ≠ .returned := by
    intro k x hx px
    rw [workerAfter found inner] at hx
    split at hx
    · next here =>
      subst here
      cases Option.some.inj hx
      exact ⟨w,found,(workerKeeps inner).1.symm,workerActive inner⟩
    · exact ⟨x,hx,rfl,px⟩
  obtain ⟨x,hx,sx,px⟩ := older a u hu pu
  obtain ⟨y,hy,sy,py⟩ := older b v hv pv
  exact inv.lone a b x y hx hy (by rw [sx,sy]; exact same) px py

include safe

theorem countsAfter {u : Worker} (inside : u ∈ (perform (setWorker g j next) effect).workers)
    (own : u.broadcast.id = id) (open_ : u.done = false) (active : counting u.pc = true) :
    u.sent = tally (perform (setWorker g j next) effect).store id .sent ∧
    u.failed = tally (perform (setWorker g j next) effect).store id .failed := by
  have here := List.mem_of_getElem? found
  have sentRows := tallyWorker inv.holding found inner id .sent nofun
  have failedRows := tallyWorker inv.holding found inner id .failed nofun
  rw [sentRows,failedRows]
  rcases memberAfter inv found inner inside own with rfl | ⟨old,foreign | gone⟩
  · obtain ⟨broadcast,done⟩ := workerKeeps inner
    rw [broadcast] at own
    rw [done] at open_
    have answered := safe.2.1 (w,o) (moverFound found o) open_
    rcases countersStep inner open_ answered active with ⟨at_,alive,rowless,sent,failed⟩ | ⟨counted,sent,failed⟩
    · -- a worker that starts counts from zero, and so do the untouched rows
      have untouched := safe.2.2 (w,o) (moverFound found o) at_ alive own
      have none_ : ∀ st, st ≠ .pending → tally g.store id st = 0 := by
        intro st settled
        apply List.countP_eq_zero.mpr
        intro r member counted
        simp only [Bool.and_eq_true,beq_iff_eq] at counted
        exact settled (counted.2.symm.trans (untouched r member counted.1))
      have zero := inv.zero w here at_
      rw [sent,failed,none_ .sent nofun,none_ .failed nofun]
      simp [rowless,zero.1,zero.2]
    · -- a counter moves with the row that the same step writes
      have before := inv.counts w here own open_ counted
      rw [sent,failed,before.1,before.2]
      simp only [own,true_and]
      constructor <;> split <;> simp
  · have before := inv.counts u old own open_ active
    rw [before.1,before.2]
    simp [foreign]
  · rw [gone] at active; cases active

theorem totalsAfter {u : Worker} (inside : u ∈ (perform (setWorker g j next) effect).workers)
    (own : u.broadcast.id = id) (open_ : u.done = false) (at_ : u.pc = .markCompleted) {a : Broadcast}
    (member : a ∈ g.store.broadcasts) (key : a.id = id) :
    (applied effect a).sent = u.sent ∧ (applied effect a).failed = u.failed := by
  rcases memberAfter inv found inner inside own with rfl | ⟨old,foreign | gone⟩
  · obtain ⟨broadcast,done⟩ := workerKeeps inner
    rw [broadcast] at own
    rw [done] at open_
    have answered := safe.2.1 (w,o) (moverFound found o) open_
    cases inner with
    | totals =>
      have written : applied (.updateProgress w.broadcast.id w.sent w.failed) a =
          {a with sent := w.sent, delivered := 0, failed := w.failed} := if_pos (key.trans own.symm)
      rw [written]
      exact ⟨rfl,rfl⟩
    | losesTotals before lost =>
      have alive := liveIff.mpr ⟨answered (by rw [before]; rfl),open_⟩
      rw [lost] at alive; cases alive
    | markUnsent | loseUnsent | markSent | loseSent =>
      simp only [afterSend] at at_
      split at at_ <;> cases at_
    | _ => cases at_
  · rw [appliedForeign inner (fun same => foreign (same.symm.trans key))]
    exact inv.totals u old own open_ at_ a member key
  · rw [gone] at at_; cases at_

theorem completedAfter (moved : Moved g (.worker j o) (perform (setWorker g j next) effect)) {a : Broadcast}
    (member : a ∈ g.store.broadcasts) (key : a.id = id) (done : (applied effect a).status = .completed) :
    (applied effect a).sent = tally (perform (setWorker g j next) effect).store id .sent ∧
    (applied effect a).failed = tally (perform (setWorker g j next) effect).store id .failed ∧
    pendingOf (perform (setWorker g j next) effect).store id = [] ∧
    ∀ u ∈ (perform (setWorker g j next) effect).workers, u.broadcast.id = id →
      u.done = true ∨ counting u.pc = false := by
  have here := List.mem_of_getElem? found
  rw [tallyWorker inv.holding found inner id .sent nofun,
    tallyWorker inv.holding found inner id .failed nofun]
  by_cases own : w.broadcast.id = id
  · have others : ∀ u ∈ (perform (setWorker g j next) effect).workers, u.broadcast.id = id →
        u = next ∨ counting u.pc = false := by
      intro u inside mine
      rcases memberAfter inv found inner inside mine with same | ⟨_,foreign | gone⟩
      · exact .inl same
      · exact absurd own foreign
      · exact .inr (by rw [gone]; rfl)
    by_cases last : w.pc = .markCompleted ∧ w.done = false
    · -- this worker completes the broadcast now
      obtain ⟨at_,open_⟩ := last
      have totals := inv.totals w here own open_ at_ a member key
      have counts := inv.counts w here own open_ (by rw [at_]; rfl)
      have none_ := inv.exhausted w here (by rw [at_]; rfl) open_
      rw [own] at none_
      cases inner with
      | completes _ answered =>
        have written : applied (.markCompleted w.broadcast.id) a = {a with status := .completed} :=
          if_pos (key.trans own.symm)
        rw [written]
        refine ⟨by simpa [area] using totals.1.trans counts.1,by simpa [area] using totals.2.trans counts.2,
          pendingKept moved none_,fun u inside mine => .inr ?_⟩
        rcases others u inside mine with rfl | left
        · rfl
        · exact left
      | losesCompletion _ lost =>
        have alive := liveIff.mpr ⟨safe.2.1 (w,o) (moverFound found o) open_ (by simp only [at_]; rfl),open_⟩
        rw [lost] at alive; cases alive
      | _ => simp_all
    · -- it was completed before, and this worker has nothing to write
      obtain ⟨sent,failed,none_,gone⟩ := inv.completed a member key (appliedOpen inner last done)
      obtain ⟨rowless,kept⟩ := idleEffect inner (gone w here own)
      obtain ⟨same,left⟩ := kept a (key.trans own.symm) done
      rw [same]
      refine ⟨by simpa [rowless] using sent,by simpa [rowless] using failed,pendingKept moved none_,
        fun u inside mine => ?_⟩
      rcases others u inside mine with rfl | leaves
      · exact left
      · exact .inr leaves
  · rw [appliedForeign inner (fun same => own (same.symm.trans key))] at done ⊢
    obtain ⟨sent,failed,none_,gone⟩ := inv.completed a member key done
    refine ⟨by simpa [own] using sent,by simpa [own] using failed,pendingKept moved none_,fun u inside mine => ?_⟩
    rcases memberAfter inv found inner inside mine with rfl | ⟨old,_⟩
    · exact absurd (by rw [← (workerKeeps inner).1]; exact mine) own
    · exact gone u old mine

end WorkerStep

theorem accountingStep (id : UUID) (n : Nat) (g : System) (e : Event) (t : System) (inv : Accounting id n g)
    (safe : ProgressSafe id g e) (moved : step g e = some t) : Accounting id n t := by
  rcases workerOrOutside (movedSource moved) with outside | ⟨j,o,w,next,effect,rfl,found,inner,rfl⟩
  · exact accountingOutside inv safe moved outside
  have source := Moved.worker j o w next effect found inner
  have row : ∀ b ∈ (perform (setWorker g j next) effect).store.broadcasts,
      ∃ a ∈ g.store.broadcasts, b = applied effect a ∧ b.id = a.id := by
    intro b inside
    rw [broadcastsApplied] at inside
    obtain ⟨a,old,rfl⟩ := List.mem_map.mp inside
    exact ⟨a,old,rfl,(appliedKeeps effect a).1⟩
  refine ⟨holdingWorker inv.holding found inner,
    exhaustedStep g _ _ inv.exhausted (readsPending safe.2.1) moved,loneAfter inv found inner,?_,?_,
    kindsWorker inv.kinds inner,?_,fun u => countsAfter inv safe found inner,?_,?_⟩
  · intro b inside key
    obtain ⟨a,old,rfl,same⟩ := row b inside
    rw [(appliedKeeps effect a).2]
    exact inv.total a old (same.symm.trans key)
  · rw [sizeWorker inv.holding found inner]; exact inv.size
  · intro u inside first
    obtain ⟨k,at_⟩ := List.mem_iff_getElem?.mp inside
    rw [workerAfter found inner] at at_
    split at at_
    · cases Option.some.inj at_
      cases inner <;> simp_all [afterSend] <;> split at first <;> cases first
    · exact inv.zero u (List.mem_of_getElem? at_) first
  · intro u inside own open_ at_ b member key
    obtain ⟨a,old,rfl,same⟩ := row b member
    exact totalsAfter inv safe found inner inside own open_ at_ old (same.symm.trans key)
  · intro b member key done
    obtain ⟨a,old,rfl,same⟩ := row b member
    exact completedAfter inv safe found inner source old (same.symm.trans key) done

theorem partition {id : UUID} {rows : List BroadcastRecipient} (kinds : ∀ r ∈ rows, r.broadcastId = id →
    r.status = .pending ∨ r.status = .sent ∨ r.status = .failed) :
    rows.countP (fun r => r.broadcastId == id && r.status == .pending) +
    rows.countP (fun r => r.broadcastId == id && r.status == .sent) +
    rows.countP (fun r => r.broadcastId == id && r.status == .failed) = rows.countP (fun r => r.broadcastId == id) := by
  induction rows with
  | nil => rfl
  | cons r rest ih =>
    have tail := ih (fun q member => kinds q (List.mem_cons_of_mem r member))
    simp only [List.countP_cons]
    by_cases own : r.broadcastId = id
    · rcases kinds r List.mem_cons_self own with status | status | status <;> simp [own,status] <;> omega
    · simp [own]; omega

theorem accounted {id : UUID} {n : Nat} {g : System} (inv : Accounting id n g) : Accounted id g := by
  refine ⟨fun b member key done => ?_,fun p shown done => ?_⟩
  · obtain ⟨sent,failed,_⟩ := inv.completed b member key done
    exact ⟨sent,failed⟩
  · simp only [getProgress,bind,Option.bind_eq_some_iff] at shown
    obtain ⟨b,found,shown⟩ := shown
    cases shown
    obtain ⟨member,key⟩ := findBroadcastMember found
    obtain ⟨sent,failed,none_,_⟩ := inv.completed b member key done
    have all := partition inv.kinds
    have size := inv.size
    have waiting : g.store.recipients.countP (fun r => r.broadcastId == id && r.status == .pending) = 0 := by
      rw [List.countP_eq_length_filter]
      exact congrArg List.length none_
    simp only [inv.total b member key,sent,failed,none_,List.length_nil]
    simp only [sizeOf] at size
    simp only [tally]
    omega

structure Created (s : Tables) (id : UUID) (n : Nat) : Prop where
  keys : Distinct BroadcastRecipient.id s.recipients
  row : ∀ b ∈ s.broadcasts, b.id = id → b.status = .pending ∧ b.total = n
  size : sizeOf s id = n
  pending : ∀ r ∈ s.recipients, r.broadcastId = id → r.status = .pending

/-- In a run whose workers always start on untouched recipients the accounts agree. -/
theorem progressRun {id : UUID} {n : Nat} {g : System} {events : List Event} (fresh : Fresh g)
    (created : Created g.store id n) (safe : Guarded step (ProgressSafe id) g events) :
    Throughout step (Accounted id) g events := by
  have start : Accounting id n g :=
    ⟨holdingStart created.keys fresh.workers,by intro w member; simp [fresh.workers] at member,
      by simp [fresh.workers],fun b member key => (created.row b member key).2,created.size,
      fun r member own => .inl (created.pending r member own),by simp [fresh.workers],by simp [fresh.workers],
      by simp [fresh.workers],fun b member key done => by rw [(created.row b member key).1] at done; cases done⟩
  exact throughoutMono (fun _ inv => accounted inv) (guardedThroughout (accountingStep id n) start safe)

def pausedEarly : List Event :=
  .startBroadcast (sampleBroadcast 2)::works 0 3 accepts ++ .pauseBroadcast 21::calls 0 4 ++ works 0 2 accepts ++
    .resumeBroadcast 21::calls 1 3 ++ works 1 15 accepts ++ works 1 1 refuses ++ works 1 7 accepts

theorem sampleCreated : Created (sampleTables [31,32]) 21 2 := ⟨by decide,by decide,by decide,by decide⟩

theorem pausedEarlyAccounted : Throughout step (Accounted 21) (boot (sampleTables [31,32])) pausedEarly :=
  progressRun (freshBoot _) sampleCreated (guardedChecks (by decide +kernel))

def pausedHalfway : List Event :=
  .startBroadcast (sampleBroadcast 2)::works 0 11 accepts ++ .pauseBroadcast 21::calls 0 4 ++ works 0 2 accepts ++
    .resumeBroadcast 21::calls 1 3 ++ works 1 14 accepts

theorem pausedHalfwayForgets :
    Fresh (boot (sampleTables [31,32])) ∧ Created (sampleTables [31,32]) 21 2 ∧
    Guarded step (fun g e => OneWorker g e ∧ NoFailures g e) (boot (sampleTables [31,32])) pausedHalfway ∧
    (run step (boot (sampleTables [31,32])) pausedHalfway).map (fun t =>
      (t.store.broadcasts.map (fun b => (b.id,b.status,b.sent)),tally t.store 21 .sent,
        (getProgress t.store 21).map (fun p => (p.sent + p.failed + p.pending,p.total)))) =
      some ([(21,.completed,1)],2,some (1,2)) ∧
    ¬ Throughout step (Accounted 21) (boot (sampleTables [31,32])) pausedHalfway := by
  have ends : (run step (boot (sampleTables [31,32])) pausedHalfway).map (fun t =>
      (t.store.broadcasts.map (fun b => (b.id,b.status,b.sent)),tally t.store 21 .sent,
        (getProgress t.store 21).map (fun p => (p.sent + p.failed + p.pending,p.total)))) =
      some ([(21,.completed,1)],2,some (1,2)) := by decide +kernel
  refine ⟨freshBoot _,sampleCreated,guardedChecks (by decide +kernel),ends,fun always => ?_⟩
  obtain ⟨t,ran,values⟩ := Option.map_eq_some_iff.mp ends
  simp only [Prod.mk.injEq] at values
  obtain ⟨rows,two,_⟩ := values
  obtain ⟨b,rest,split_,value,_⟩ := List.map_eq_cons_iff.mp rows
  simp only [Prod.mk.injEq] at value
  have same := ((throughoutEnd always ran).columns b (by rw [split_]; exact List.mem_cons_self) value.1 value.2.1).1
  rw [value.2.2,two] at same
  cases same

end WppGateway.Progress
