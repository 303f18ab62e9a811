import WppGateway.Delivery
import WppGateway.Tallies
import Mathlib.Algebra.Order.BigOperators.Group.List
import Mathlib.Algebra.Order.Group.Nat
import Mathlib.Algebra.Ring.Nat

/-! Broadcasts over several lives of the process. A crash leaves the tables and nothing else, and nothing is started
again by itself. A row that is not pending when a life ends is never sent to again; a row is sent to again only where
the crash came between a send and its record. -/
namespace WppGateway.Restarts
open Runs Domain Store Table Gateway Transitions HeldRows Delivery
open Tallies (sumOnes)

structure Lived where
  before : List SendCall
  now : System

inductive Happening where
  | within (e : Event)
  | crash

def lives (s : Lived) : Happening → Option Lived
  | .within e => (step s.now e).map (fun g => {s with now := g})
  | .crash => some ⟨s.before ++ s.now.sends,boot s.now.store⟩

def begin (s : Tables) : Lived := ⟨[],boot s⟩

def attempts (calls : List SendCall) (id : UUID) : Nat := calls.countP (fun c => rowOf c.origin == some id)

def attempted (s : Lived) (id : UUID) : Nat := attempts s.before id + attempts s.now.sends id

def delivered (s : Lived) (id : UUID) : Nat :=
  s.before.countP (fun c => c.succeeded && rowOf c.origin == some id) + deliveries s.now id

structure Gone (id : UUID) (g : System) : Prop where
  settled : Settled g.store.recipients id
  dropped : ∀ w ∈ g.workers, ∀ r ∈ held w.pc, r.id ≠ id

section Steps
variable {id : UUID} {g t : System} {e : Event}

theorem attemptsOther (calls : List SendCall) {call : SendCall} (other : rowOf call.origin ≠ some id) :
    attempts (calls ++ [call]) id = attempts calls id := by
  simp [attempts,List.countP_append,other]

theorem goneOutside (gone : Gone id g) (outside : Outside g e t) :
    Gone id t ∧ attempts t.sends id = attempts g.sends id := by
  refine ⟨⟨by rw [outside.recipients]; exact gone.settled,fun v member r inside => ?_⟩,?_⟩
  · obtain ⟨k,found⟩ := List.mem_iff_getElem?.mp member
    rcases outsideWorker outside found with ⟨b,_,rfl,_⟩ | ⟨w,before,rfl | rfl⟩
    · cases inside
    · exact gone.dropped _ (List.mem_of_getElem? before) r inside
    · exact gone.dropped _ (List.mem_of_getElem? before) r inside
  · rcases outside.sends with same | ⟨k,call,origin,sent⟩
    · rw [same]
    · rw [sent,attemptsOther _ (by rw [origin]; exact nofun)]

theorem goneWorker {j : Nat} {o : Oracle} {w next : Worker} {effect : Effect} (gone : Gone id g)
    (found : g.workers[j]? = some w) (moved : WorkerStep g j o w next effect) :
    Gone id (perform (setWorker g j next) effect) ∧
      attempts (perform (setWorker g j next) effect).sends id = attempts g.sends id := by
  have mine := gone.dropped w (List.mem_of_getElem? found)
  have settled : Settled (perform (setWorker g j next) effect).store.recipients id := by
    by_cases row : area effect = .recipients
    · obtain ⟨_,_,_,_,_,settles,written⟩ := touches moved row
      rw [written]
      exact settledUpdate settles gone.settled
    · rw [recipientsPerform row]
      exact gone.settled
  -- a page is made of pending rows, and the row is none
  have later : ∀ r ∈ held next.pc, r.id ≠ id := by
    intro r inside
    rcases heldStep moved with suffix_ | ⟨_,page⟩
    · exact mine r (suffix_.subset inside)
    · obtain ⟨member,_,pending⟩ := getPendingMember (page.subset inside)
      exact fun same => gone.settled r member same pending
  refine ⟨⟨settled,fun v member r inside => ?_⟩,?_⟩
  · obtain ⟨k,there⟩ := List.mem_iff_getElem?.mp member
    rw [workerAfter found moved] at there
    split at there
    · cases Option.some.inj there
      exact later r inside
    · exact gone.dropped v (List.mem_of_getElem? there) r inside
  · by_cases sends : area effect = .sends
    · cases moved with
      | delivers inst text r rest at_ | refused inst text r rest at_ =>
        have other : r.id ≠ id := mine r (by simp [held,at_])
        exact attemptsOther g.sends (fun same => other (Option.some.inj same))
      | _ => cases sends
    · rw [sendsPerform sends]
      rfl

theorem goneStep (gone : Gone id g) (moved : step g e = some t) :
    Gone id t ∧ attempts t.sends id = attempts g.sends id := by
  rcases workerOrOutside (movedSource moved) with outside | ⟨_,_,_,_,_,_,found,inner,rfl⟩
  · exact goneOutside gone outside
  · exact goneWorker gone found inner

theorem goneBoot {s : Tables} (settled : Settled s.recipients id) : Gone id (boot s) :=
  ⟨settled,fun _ member => (by cases member)⟩

end Steps

theorem goneLives {s t : Lived} {e : Happening} {id : UUID} (gone : Gone id s.now) (moved : lives s e = some t) :
    Gone id t.now ∧ attempted t id = attempted s id := by
  cases e with
  | within e =>
    obtain ⟨g,inner,rfl⟩ := Option.map_eq_some_iff.mp moved
    obtain ⟨kept,same⟩ := goneStep gone inner
    exact ⟨kept,by simp only [attempted,same]⟩
  | crash =>
    cases moved
    exact ⟨goneBoot gone.settled,by simp only [attempted,attempts,boot,List.countP_append,List.countP_nil]; rfl⟩

theorem goneRun {s t : Lived} {events : List Happening} {id : UUID} (gone : Gone id s.now)
    (ran : run lives s events = some t) : Gone id t.now ∧ attempted t id = attempted s id :=
  have each : Guarded lives (fun _ _ => True) s events := guardedEach (fun _ _ _ => trivial) s
  guardedRun (fun (m : Lived) _ n (inv : Gone id m.now ∧ attempted m id = attempted s id) _ moved =>
    show Gone id n.now ∧ attempted n id = attempted s id from
      ⟨(goneLives inv.1 moved).1,(goneLives inv.1 moved).2.trans inv.2⟩) ⟨gone,rfl⟩ each ran

/-- What is not pending when the process dies is not sent to in any later life, whatever is resumed, paused or started
there. -/
theorem settledNeverSent {s t : Lived} {events : List Happening} {id : UUID} (settled : Settled s.now.store.recipients id)
    (ran : run lives s (.crash::events) = some t) : attempted t id = attempted s id ∧ Settled t.now.store.recipients id := by
  obtain ⟨m,died,later⟩ := runCons ran
  cases died
  obtain ⟨gone,same⟩ := goneRun (goneBoot settled) later
  refine ⟨same.trans ?_,gone.settled⟩
  simp only [attempted,attempts,boot,List.countP_append,List.countP_nil]
  rfl

def settledTables : Tables :=
  {sampleTables [31,32] with recipients := [{sampleRecipient 31 with status := .sent},sampleRecipient 32]}

theorem settledNeverSentResumed : ∃ t, run lives (begin settledTables)
      (.crash::.within (.resumeBroadcast 21)::(calls 0 3).map .within ++ (works 0 15 accepts).map .within) = some t ∧
    attempted t 32 = 1 ∧ attempted t 31 = attempted (begin settledTables) 31 ∧ Settled t.now.store.recipients 31 := by
  have sent : (run lives (begin settledTables)
      (.crash::.within (.resumeBroadcast 21)::(calls 0 3).map .within ++ (works 0 15 accepts).map .within)).map
        (fun t => attempted t 32) = some 1 := by decide +kernel
  obtain ⟨t,ran,one⟩ := Option.map_eq_some_iff.mp sent
  exact ⟨t,ran,one,settledNeverSent (by unfold Settled; decide) ran⟩

def owing (g : System) (id : UUID) : Bool :=
  g.workers.any (fun w => match w.pc with
    | .sendOk _ r _ => r.id == id
    | _ => false)

/- The crashes of a run between a send to the row and its record. -/
def cutShort (id : UUID) : Lived → List Happening → Nat
  | _,[] => 0
  | s,e::rest => (match e with
      | .crash => if owing s.now id then 1 else 0
      | .within _ => 0) + match lives s e with
    | some t => cutShort id t rest
    | none => 0

def isCrash : Happening → Bool
  | .crash => true
  | .within _ => false

/- In every life a broadcast gets a new worker only when the old ones can send no more, and a send is recorded. -/
def Careful (s : Lived) : Happening → Prop
  | .within e => DeliverySafe s.now e
  | .crash => True

instance (s : Lived) : (e : Happening) → Decidable (Careful s e)
  | .within e => inferInstanceAs (Decidable (DeliverySafe s.now e))
  | .crash => inferInstanceAs (Decidable True)

def earlier (s : Lived) (id : UUID) : Nat := s.before.countP (fun c => c.succeeded && rowOf c.origin == some id)

structure Bounded (id : UUID) (m : Nat) (s : Lived) : Prop where
  delivering : Delivering s.now
  bound : earlier s id ≤ m ∨ (earlier s id ≤ m + 1 ∧ Gone id s.now ∧ attempts s.now.sends id = 0)

section Bound
variable {id : UUID} {m : Nat} {s t : Lived}

theorem owingIff {g : System} : owing g id = true ↔ Owed g id := by
  simp only [owing,List.any_eq_true]
  constructor
  · intro given
    obtain ⟨w,member,sent⟩ := given
    obtain ⟨k,found⟩ := List.mem_iff_getElem?.mp member
    split at sent
    · next inst r rest at_ => exact ⟨k,w,inst,r,rest,found,at_,by simpa using sent⟩
    · cases sent
  · intro given
    obtain ⟨k,w,inst,r,rest,found,at_,here⟩ := given
    exact ⟨w,List.mem_of_getElem? found,by rw [at_]; simpa using here⟩

theorem deliveringBoot {g : System} (delivering : Delivering g) : Delivering (boot g.store) :=
  ⟨holdingStart delivering.holding.keys rfl,fun _ => by simp [deliveries,boot],fun _ one => by simp [deliveries,boot] at one⟩

theorem unattempted {g : System} (none_ : attempts g.sends id = 0) : deliveries g id = 0 := by
  refine Nat.le_zero.mp (none_ ▸ List.countP_mono_left (fun c _ both => ?_))
  exact (Bool.and_eq_true_iff.mp both).2

theorem earlierCrash (s : Lived) (id : UUID) :
    earlier ⟨s.before ++ s.now.sends,boot s.now.store⟩ id = earlier s id + deliveries s.now id :=
  List.countP_append ..

theorem boundedWithin {e : Event} (bounded : Bounded id m s) (careful : DeliverySafe s.now e) {g : System}
    (moved : step s.now e = some g) : Bounded id m {s with now := g} := by
  refine ⟨deliveringStep _ _ _ bounded.delivering careful moved,bounded.bound.imp_right (fun late => ?_)⟩
  obtain ⟨kept,same⟩ := goneStep late.2.1 moved
  exact ⟨late.1,kept,same.trans late.2.2⟩

theorem boundedCrash (bounded : Bounded id m s) :
    Bounded id (m + if owing s.now id then 1 else 0) ⟨s.before ++ s.now.sends,boot s.now.store⟩ := by
  refine ⟨deliveringBoot bounded.delivering,?_⟩
  rw [earlierCrash]
  rcases bounded.bound with early | ⟨late,gone,none_⟩
  · rcases Nat.le_one_iff_eq_zero_or_eq_one.mp (bounded.delivering.once id) with zero | one
    · exact .inl (by omega)
    · rcases bounded.delivering.recorded id one with settled | owed
      · exact .inr ⟨by omega,goneBoot settled,rfl⟩
      · rw [if_pos (owingIff.mpr owed)]
        exact .inl (by omega)
  · exact .inr ⟨by have zero := unattempted none_; omega,goneBoot gone.settled,rfl⟩

theorem boundedRun {events : List Happening} (bounded : Bounded id m s) (careful : Guarded lives Careful s events)
    (ran : run lives s events = some t) : Bounded id (m + cutShort id s events) t := by
  induction events generalizing s m with
  | nil => cases Option.some.inj ran; exact bounded
  | cons e rest ih =>
    obtain ⟨u,moved,later⟩ := runCons ran
    have tail (n : Nat) (next : Bounded id n u) := ih next (careful.2 u moved) later
    simp only [cutShort,moved]
    cases e with
    | within e =>
      obtain ⟨g,inner,rfl⟩ := Option.map_eq_some_iff.mp moved
      rw [Nat.zero_add]
      exact tail m (boundedWithin bounded careful.1 inner)
    | crash =>
      cases moved
      rw [← Nat.add_assoc]
      exact tail _ (boundedCrash bounded)

theorem boundedBegin {rows : Tables} (keys : Distinct BroadcastRecipient.id rows.recipients) : Bounded id 0 (begin rows) :=
  ⟨⟨holdingStart keys rfl,fun _ => by simp [deliveries,begin,boot],fun _ one => by simp [deliveries,begin,boot] at one⟩,
    .inl (Nat.le_refl 0)⟩

theorem deliveredRun {rows : Tables} {events : List Happening} (keys : Distinct BroadcastRecipient.id rows.recipients)
    (careful : Guarded lives Careful (begin rows) events) (ran : run lives (begin rows) events = some t) :
    delivered t id ≤ 1 + cutShort id (begin rows) events := by
  have bounded : Bounded id (0 + cutShort id (begin rows) events) t := boundedRun (boundedBegin keys) careful ran
  have once := bounded.delivering.once id
  change earlier t id + deliveries t.now id ≤ _
  rcases bounded.bound with early | ⟨late,_,none_⟩
  · omega
  · have zero := unattempted none_
    omega

end Bound

def OfBroadcast (b : UUID) (ids : List UUID) (rows : List BroadcastRecipient) : Prop :=
  ∀ row ∈ rows, row.id ∈ ids → row.broadcastId = b

section Broadcast
variable {b : UUID} {ids : List UUID} {s t : Lived}

theorem ofBroadcastStep {g h : System} {e : Event} (of : OfBroadcast b ids g.store.recipients) (moved : step g e = some h) :
    OfBroadcast b ids h.store.recipients := by
  rcases workerOrOutside (movedSource moved) with outside | ⟨_,_,_,_,effect,_,_,inner,rfl⟩
  · rw [outside.recipients]
    exact of
  · by_cases row : area effect = .recipients
    · obtain ⟨r,_,_,_,_,settles,written⟩ := touches inner row
      rw [written]
      intro row member inside
      obtain ⟨old,before,rfl⟩ := memUpdate.mp member
      by_cases touched : old.id = r.id
      · rw [if_pos touched,settles.id] at inside
        rw [if_pos touched,settles.broadcastId]
        exact of old before inside
      · rw [if_neg touched] at inside ⊢
        exact of old before inside
    · rw [recipientsPerform row]
      exact of

theorem owingAlone {g : System} (holding : Holding g) (of : OfBroadcast b ids g.store.recipients) {x y : UUID}
    (first : x ∈ ids) (second : y ∈ ids) (left : owing g x = true) (right : owing g y = true) : x = y := by
  obtain ⟨j,v,i,q,rest,foundLeft,atLeft,rfl⟩ := owingIff.mp left
  obtain ⟨k,w,i',r,rest',foundRight,atRight,rfl⟩ := owingIff.mp right
  have busyLeft : quiet v = false := by simp [quiet,atLeft]
  have busyRight : quiet w = false := by simp [quiet,atRight]
  obtain ⟨row,member,here,mine,_⟩ := holding.waiting j v foundLeft busyLeft q (by simp [held,atLeft])
  obtain ⟨row',member',there,mine',_⟩ := holding.waiting k w foundRight busyRight r (by simp [held,atRight])
  have same : v.broadcast.id = w.broadcast.id :=
    (mine.symm.trans (of row member (here ▸ first))).trans ((of row' member' (there ▸ second)).symm.trans mine')
  cases holding.alone j k v w foundLeft foundRight busyLeft busyRight same
  cases Option.some.inj (foundLeft.symm.trans foundRight)
  rw [atLeft] at atRight
  cases atRight
  rfl

theorem owingSum {g : System} (holding : Holding g) (of : OfBroadcast b ids g.store.recipients) (nodup : ids.Nodup) :
    (ids.map (fun id => if owing g id then 1 else 0)).sum ≤ 1 := by
  rw [sumOnes,List.countP_eq_length_filter]
  have distinct := nodup.filter (owing g)
  have each : ∀ x ∈ ids.filter (owing g), ∀ y ∈ ids.filter (owing g), x = y := by
    intro x left y right
    obtain ⟨first,here⟩ := List.mem_filter.mp left
    obtain ⟨second,there⟩ := List.mem_filter.mp right
    exact owingAlone holding of first second here there
  cases filtered : ids.filter (owing g) with
  | nil => exact Nat.zero_le 1
  | cons x rest =>
    cases rest with
    | nil => exact Nat.le_refl 1
    | cons y rest =>
      rw [filtered] at distinct each
      cases each x List.mem_cons_self y (List.mem_cons_of_mem _ List.mem_cons_self)
      simp at distinct

theorem cutShortSum {events : List Happening} (delivering : Delivering s.now)
    (of : OfBroadcast b ids s.now.store.recipients) (nodup : ids.Nodup) (careful : Guarded lives Careful s events) :
    (ids.map (fun id => cutShort id s events)).sum ≤ events.countP isCrash := by
  induction events generalizing s with
  | nil => simp [cutShort]
  | cons e rest ih =>
    cases moved : lives s e with
    | none =>
      cases e with
      | within e => simp [cutShort,moved]
      | crash => cases moved
    | some t =>
      cases e with
      | within e =>
        obtain ⟨g,inner,rfl⟩ := Option.map_eq_some_iff.mp moved
        simp only [cutShort,moved,Nat.zero_add,List.countP_cons,isCrash]
        exact ih (deliveringStep _ _ _ delivering careful.1 inner) (ofBroadcastStep of inner) (careful.2 _ moved)
      | crash =>
        cases moved
        have tail := ih (s := ⟨s.before ++ s.now.sends,boot s.now.store⟩) (deliveringBoot delivering) of (careful.2 _ rfl)
        have here := owingSum delivering.holding of nodup
        simp only [cutShort,lives,List.countP_cons,isCrash,if_true,List.sum_map_add]
        omega

/-- However often the process dies, the messages that a broadcast sends twice are no more than its deaths. -/
theorem repeatsRun {rows : Tables} {events : List Happening} (keys : Distinct BroadcastRecipient.id rows.recipients)
    (of : OfBroadcast b ids rows.recipients) (nodup : ids.Nodup) (careful : Guarded lives Careful (begin rows) events)
    (ran : run lives (begin rows) events = some t) :
    (ids.map (fun id => delivered t id - 1)).sum ≤ events.countP isCrash := by
  have each : ∀ id ∈ ids, delivered t id - 1 ≤ cutShort id (begin rows) events := fun id _ => by
    have bound : delivered t id ≤ 1 + cutShort id (begin rows) events := deliveredRun keys careful ran
    omega
  have start : Bounded b 0 (begin rows) := boundedBegin keys
  exact (List.sum_le_sum each).trans (cutShortSum start.delivering of nodup careful)

end Broadcast

def crashDuringSend : List Happening :=
  (.within (.startBroadcast (sampleBroadcast 1))::(works 0 10 accepts).map .within) ++ .crash::.within (.resumeBroadcast 21)::
    (calls 0 3).map .within ++ (works 0 15 accepts).map .within

theorem repeatsRunOnce : ∃ t, run lives (begin (sampleTables [31])) crashDuringSend = some t ∧ delivered t 31 = 2 ∧
    ([31].map (fun id => delivered t id - 1)).sum ≤ crashDuringSend.countP isCrash := by
  have twice : (run lives (begin (sampleTables [31])) crashDuringSend).map (fun t => delivered t 31) = some 2 := by
    decide +kernel
  obtain ⟨t,ran,two⟩ := Option.map_eq_some_iff.mp twice
  exact ⟨t,ran,two,repeatsRun (b := 21) (by decide) (by unfold OfBroadcast; decide) (List.nodup_singleton _)
    (guardedChecks (by decide +kernel)) ran⟩

end WppGateway.Restarts
