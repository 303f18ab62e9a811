import WppGateway.HeldRows

/-! At most one successful send for each recipient row. A row leaves the pending
ones only through a write that follows the send, whose error nobody looks at. -/
namespace WppGateway.Delivery
open Runs Domain Store Table Gateway Transitions HeldRows

def rowOf : Origin → Option UUID
  | .worker _ row => some row
  | .request _ => none

def deliveries (g : System) (id : UUID) : Nat :=
  g.sends.countP (fun c => c.succeeded && rowOf c.origin == some id)

def AtMostOnce (g : System) : Prop := ∀ id, deliveries g id ≤ 1

def recording : Pc → Bool
  | .sendOk _ _ _ => true
  | _ => false

def RecordsSend (g : System) (e : Event) : Prop :=
  ∀ m ∈ mover g e, recording m.1.pc = true → live m.2 m.1 = true

instance (g : System) (e : Event) : Decidable (RecordsSend g e) :=
  inferInstanceAs (Decidable (∀ m ∈ mover g e, recording m.1.pc = true → live m.2 m.1 = true))

def DeliverySafe (g : System) (e : Event) : Prop := StartsAlone g e ∧ RecordsSend g e

instance (g : System) (e : Event) : Decidable (DeliverySafe g e) := inferInstanceAs (Decidable (_ ∧ _))

def Settled (rows : List BroadcastRecipient) (id : UUID) : Prop := ∀ row ∈ rows, row.id = id → row.status ≠ .pending

def Owed (g : System) (id : UUID) : Prop :=
  ∃ (k : Nat) (w : Worker) (inst : Instance) (r : BroadcastRecipient) (rest : List BroadcastRecipient),
    g.workers[k]? = some w ∧ w.pc = .sendOk inst r rest ∧ r.id = id

structure Delivering (g : System) : Prop where
  holding : Holding g
  once : AtMostOnce g
  recorded : ∀ id, deliveries g id = 1 → Settled g.store.recipients id ∨ Owed g id

theorem settledUpdate {rows : List BroadcastRecipient} {id k : UUID} {effect f} (settles : Settles effect f)
    (settled : Settled rows id) : Settled (update BroadcastRecipient.id k f rows) id := by
  intro row member here
  obtain ⟨old,before,rfl⟩ := memUpdate.mp member
  by_cases same : old.id = k
  · rw [if_pos same]; exact settles.notPending old
  · rw [if_neg same] at here ⊢; exact settled old before here

theorem settledFront {rows : List BroadcastRecipient} {id : UUID} {effect f} (settles : Settles effect f) :
    Settled (update BroadcastRecipient.id id f rows) id := by
  intro row member here
  obtain ⟨old,_,rfl⟩ := memUpdate.mp member
  by_cases same : old.id = id
  · rw [if_pos same]; exact settles.notPending old
  · rw [if_neg same] at here; exact absurd here same

theorem deliveriesAppend {g t : System} {call : SendCall} (sent : t.sends = g.sends ++ [call]) (id : UUID) :
    deliveries t id = deliveries g id +
      if call.succeeded = true ∧ rowOf call.origin = some id then 1 else 0 := by
  simp only [deliveries,sent,List.countP_append,List.countP_singleton]
  simp

theorem deliveringOutside {g e t} (inv : Delivering g) (alone : StartsAlone g e) (outside : Outside g e t) :
    Delivering t := by
  have same : ∀ id, deliveries t id = deliveries g id := by
    intro id
    rcases outside.sends with sends | ⟨k,call,origin,sends⟩
    · simp only [deliveries,sends]
    · rw [deliveriesAppend sends,origin]
      simp [rowOf]
  refine ⟨holdingOutside inv.holding alone outside,fun id => by rw [same]; exact inv.once id,?_⟩
  intro id one
  rcases inv.recorded id (by rw [← same]; exact one) with settled | ⟨k,w,inst,r,rest,found,at_,row⟩
  · exact .inl (by rw [outside.recipients]; exact settled)
  · obtain ⟨w',after,same | cancelled⟩ := outsideKeeps outside found
    · exact .inr ⟨k,w',inst,r,rest,after,by rw [same]; exact at_,row⟩
    · exact .inr ⟨k,w',inst,r,rest,after,by rw [cancelled]; exact at_,row⟩

theorem undelivered {g : System} {j : Nat} {w : Worker} (inv : Delivering g) (found : g.workers[j]? = some w)
    {inst text r rest} (at_ : w.pc = .sending inst text r rest) : deliveries g r.id = 0 := by
  have busy : quiet w = false := by simp [quiet,at_]
  have mine := inv.holding.waiting j w found busy r (by simp [held,at_])
  rcases Nat.eq_zero_or_pos (deliveries g r.id) with zero | positive
  · exact zero
  · have one : deliveries g r.id = 1 := Nat.le_antisymm (inv.once r.id) positive
    rcases inv.recorded r.id one with settled | ⟨k,v,i,q,later,owner,there,row⟩
    · obtain ⟨line,member,here,_,pending⟩ := mine
      exact absurd pending (settled line member here)
    · have active : quiet v = false := by simp [quiet,there]
      have theirs := inv.holding.waiting k v owner active q (by simp [held,there])
      rw [row] at theirs
      have same := inv.holding.alone j k w v found owner busy active (waitingSame inv.holding.keys mine theirs)
      subst same
      cases Option.some.inj (found.symm.trans owner)
      rw [at_] at there; cases there

theorem owedKept {g j o w next effect} (found : g.workers[j]? = some w)
    (moved : WorkerStep g j o w next effect) (elsewhere : recording w.pc = false) {id : UUID}
    (owed : Owed g id) : Owed (perform (setWorker g j next) effect) id := by
  obtain ⟨k,v,i,q,later,owner,there,row⟩ := owed
  have other : j ≠ k := by
    rintro rfl
    cases Option.some.inj (found.symm.trans owner)
    simp [there,recording] at elsewhere
  exact ⟨k,v,i,q,later,by rw [workerAfter found moved,if_neg other]; exact owner,there,row⟩

theorem deliveringSend {g j o w next call} (inv : Delivering g) (found : g.workers[j]? = some w)
    (moved : WorkerStep g j o w next (.send call)) : Delivering (perform (setWorker g j next) (.send call)) := by
  have sent : (perform (setWorker g j next) (.send call)).sends = g.sends ++ [call] := rfl
  have counted := deliveriesAppend sent
  have holding := holdingWorker inv.holding found moved
  cases moved with
  | delivers inst text r rest at_ accepted =>
    -- the row is held, so it is pending, and nobody can have sent to it and owe its record
    have none := undelivered inv found at_
    have elsewhere : recording w.pc = false := by simp [at_,recording]
    have kept : ∀ id, Owed g id → Owed _ id := fun _ => owedKept found (.delivers inst text r rest at_ accepted) elsewhere
    simp only [rowOf,true_and,Option.some.injEq] at counted
    refine ⟨holding,fun id => ?_,fun id one => ?_⟩
    · rw [counted]
      have before := inv.once id
      split
      · next here => subst here; omega
      · omega
    · by_cases here : r.id = id
      · refine .inr ⟨j,{w with pc := .sendOk inst r rest},inst,r,rest,?_,rfl,here⟩
        rw [workerAfter found (.delivers inst text r rest at_ accepted),if_pos rfl]
      · rw [counted,if_neg here] at one
        exact (inv.recorded id one).imp_right (kept id)
  | refused inst text r rest at_ failed =>
    have elsewhere : recording w.pc = false := by simp [at_,recording]
    have kept : ∀ id, Owed g id → Owed _ id := fun _ => owedKept found (.refused inst text r rest at_ failed) elsewhere
    simp only [Bool.false_eq_true,false_and,if_false,Nat.add_zero] at counted
    refine ⟨holding,fun id => by rw [counted]; exact inv.once id,fun id one => ?_⟩
    exact (inv.recorded id (by rw [← counted]; exact one)).imp_right (kept id)

theorem deliveringWorker {g j o w next effect} (inv : Delivering g) (safe : RecordsSend g (.worker j o))
    (found : g.workers[j]? = some w) (moved : WorkerStep g j o w next effect) :
    Delivering (perform (setWorker g j next) effect) := by
  by_cases sends : area effect = .sends
  · cases effect with
    | send call => exact deliveringSend inv found moved
    | _ => cases sends
  · have same : ∀ id, deliveries (perform (setWorker g j next) effect) id = deliveries g id := by
      intro id; simp only [deliveries,sendsPerform sends]; rfl
    refine ⟨holdingWorker inv.holding found moved,fun id => by rw [same]; exact inv.once id,fun id one => ?_⟩
    have before := inv.recorded id (by rw [← same]; exact one)
    by_cases row : area effect = .recipients
    · obtain ⟨r,f,front,_,_,settles,written⟩ := touches moved row
      rw [written]
      rcases before with settled | owed
      · exact .inl (settledUpdate settles settled)
      · -- the row that is written may be the one whose record is owed
        cases here : recording w.pc with
        | false => exact .inr (owedKept found moved here owed)
        | true =>
          obtain ⟨k,v,i,q,later,owner,there,line⟩ := owed
          by_cases same : j = k
          · subst same
            cases Option.some.inj (found.symm.trans owner)
            simp only [held,there,List.cons.injEq] at front
            exact .inl (by rw [← line,front.1]; exact settledFront settles)
          · exact .inr ⟨k,v,i,q,later,by rw [workerAfter found moved,if_neg same]; exact owner,there,line⟩
    · have elsewhere : recording w.pc = false := by
        cases moved with
        | loseSent inst r rest at_ lost =>
          have alive := safe _ (moverFound found o) (by simp [at_,recording])
          rw [lost] at alive; cases alive
        | markSent => exact absurd rfl row
        | _ => simp_all [recording]
      rw [recipientsPerform row]
      exact before.imp_right (owedKept found moved elsewhere)

theorem deliveringStep (g : System) (e : Event) (t : System) (inv : Delivering g) (safe : DeliverySafe g e)
    (moved : step g e = some t) : Delivering t := by
  rcases workerOrOutside (movedSource moved) with outside | ⟨j,o,w,next,effect,rfl,found,inner,rfl⟩
  · exact deliveringOutside inv safe.1 outside
  · exact deliveringWorker inv safe.2 found inner

/-- In a run whose steps are all safe no row is sent to twice. -/
theorem atMostOnceRun {g : System} {events : List Event} (fresh : Fresh g)
    (keys : Distinct BroadcastRecipient.id g.store.recipients) (safe : Guarded step DeliverySafe g events) :
    Throughout step AtMostOnce g events := by
  have start : Delivering g := by
    have none : ∀ id, deliveries g id = 0 := by intro id; simp [deliveries,fresh.sends]
    exact ⟨holdingStart keys fresh.workers,fun id => by rw [none]; omega,fun id one => by rw [none] at one; omega⟩
  exact throughoutMono (fun _ inv => inv.once) (guardedThroughout deliveringStep start safe)

def plainRun : List Event :=
  .startBroadcast (sampleBroadcast 2)::works 0 15 accepts ++ works 0 1 refuses ++ works 0 7 accepts

theorem plainRunSafe : Throughout step AtMostOnce (boot (sampleTables [31,32])) plainRun :=
  atMostOnceRun (freshBoot _) (by decide) (guardedChecks (by decide +kernel))

def pauseDuringSend : List Event :=
  .startBroadcast (sampleBroadcast 1)::works 0 10 accepts ++ .pauseBroadcast 21::calls 0 4 ++
    works 0 4 accepts ++ .resumeBroadcast 21::calls 1 3 ++ works 1 8 accepts

theorem pauseSendsTwice :
    Fresh (boot (sampleTables [31])) ∧ Distinct BroadcastRecipient.id (sampleTables [31]).recipients ∧
      (run step (boot (sampleTables [31])) pauseDuringSend).map (fun g => deliveries g 31) = some 2 ∧
      ¬ Throughout step AtMostOnce (boot (sampleTables [31])) pauseDuringSend := by
  have twice : (run step (boot (sampleTables [31])) pauseDuringSend).map (fun g => deliveries g 31) = some 2 := by
    decide +kernel
  refine ⟨freshBoot _,by decide,twice,fun always => ?_⟩
  obtain ⟨g,ran,two⟩ := Option.map_eq_some_iff.mp twice
  have one := throughoutEnd always ran 31
  omega

end WppGateway.Delivery
