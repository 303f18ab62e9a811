import WppGateway.Restarts

/-! What the table says of a recipient, over several lives of the process. A row that says it was sent names the instance
that a message to its number went through. A row that says it failed was sent to only where a crash came between the send
and its record. -/
namespace WppGateway.Reports
open Runs GoJson Domain Store Table Gateway Transitions HeldRows Delivery Restarts

def allCalls (s : Lived) : List SendCall := s.before ++ s.now.sends

def Went (calls : List SendCall) (row instanceId : UUID) (number : GoString) : Prop :=
  ∃ c ∈ calls, c.succeeded = true ∧ rowOf c.origin = some row ∧ c.instanceId = instanceId ∧ c.toNumber = number

def Vouched (calls : List SendCall) (row : BroadcastRecipient) : Prop :=
  ∃ inst, row.instanceId = some inst ∧ Went calls row.id inst row.recipient

structure Told (rows : List BroadcastRecipient) (before : List SendCall) (g : System) : Prop where
  keys : Distinct BroadcastRecipient.id g.store.recipients
  sent : ∀ row ∈ g.store.recipients, row.status = .sent → row ∈ rows ∨ Vouched (before ++ g.sends) row
  copies : ∀ w ∈ g.workers, ∀ r ∈ held w.pc, ∃ row ∈ g.store.recipients, row.id = r.id ∧ row.recipient = r.recipient
  owed : ∀ w ∈ g.workers, ∀ inst r rest, w.pc = .sendOk inst r rest → Went (before ++ g.sends) r.id inst.id r.recipient

section Steps
variable {rows : List BroadcastRecipient} {before : List SendCall} {g t : System} {e : Event}

theorem wentMore {old new : List SendCall} {row inst : UUID} {number : GoString} (more : old ⊆ new)
    (went : Went old row inst number) : Went new row inst number := by
  obtain ⟨c,member,rest⟩ := went
  exact ⟨c,more member,rest⟩

theorem vouchedMore {old new : List SendCall} {row : BroadcastRecipient} (more : old ⊆ new) (vouched : Vouched old row) :
    Vouched new row := by
  obtain ⟨inst,named,went⟩ := vouched
  exact ⟨inst,named,wentMore more went⟩

theorem toldOutside (told : Told rows before g) (outside : Outside g e t) : Told rows before t := by
  have more : before ++ g.sends ⊆ before ++ t.sends := by
    rcases outside.sends with same | ⟨_,_,_,sent⟩
    · rw [same]; exact List.Subset.refl _
    · rw [sent,← List.append_assoc]; exact List.subset_append_left _ _
  have older : ∀ v ∈ t.workers, v.pc = .markStarted ∨ ∃ w ∈ g.workers, v.pc = w.pc := by
    intro v member
    obtain ⟨k,found⟩ := List.mem_iff_getElem?.mp member
    rcases outsideWorker outside found with ⟨b,_,rfl,_⟩ | ⟨w,there,rfl | rfl⟩
    · exact .inl rfl
    · exact .inr ⟨_,List.mem_of_getElem? there,rfl⟩
    · exact .inr ⟨w,List.mem_of_getElem? there,rfl⟩
  refine ⟨outside.recipients ▸ told.keys,fun row member sent => ?_,fun v member r inside => ?_,fun v member inst r rest at_ => ?_⟩
  · rw [outside.recipients] at member
    exact (told.sent row member sent).imp_right (vouchedMore more)
  · rw [outside.recipients]
    rcases older v member with new | ⟨w,there,same⟩
    · rw [new] at inside; cases inside
    · exact told.copies w there r (same ▸ inside)
  · rcases older v member with new | ⟨w,there,same⟩
    · rw [new] at at_; cases at_
    · exact wentMore more (told.owed w there inst r rest (same ▸ at_))

theorem rowsKept {j : Nat} {o : Oracle} {w next : Worker} {effect : Effect} (moved : WorkerStep g j o w next effect)
    (h : System) : ∃ f : BroadcastRecipient → BroadcastRecipient,
      (∀ row, (f row).id = row.id ∧ (f row).recipient = row.recipient) ∧
      (perform h effect).store.recipients = h.store.recipients.map f := by
  by_cases row : area effect = .recipients
  · obtain ⟨r,f,_,_,_,settles,written⟩ := touches moved row
    refine ⟨fun row => if row.id = r.id then f row else row,fun row => ?_,written h⟩
    dsimp only
    split
    · exact ⟨settles.id row,settles.recipient row⟩
    · exact ⟨rfl,rfl⟩
  · exact ⟨fun row => row,fun _ => ⟨rfl,rfl⟩,by rw [recipientsPerform row,List.map_id']⟩

theorem marks {j : Nat} {o : Oracle} {w next : Worker} {effect : Effect} (moved : WorkerStep g j o w next effect)
    (touched : area effect = .recipients) :
    (∃ inst r rest, w.pc = .sendOk inst r rest ∧ effect = .recipientSent r.id inst.id) ∨ outcome effect = .failed := by
  cases moved with
  | markSent inst r rest at_ => exact .inl ⟨inst,r,rest,at_,rfl⟩
  | markUnselected | markUnsent => exact .inr rfl
  | _ => cases touched

theorem sentAfter {j : Nat} {o : Oracle} {w next : Worker} {effect : Effect} (told : Told rows before g)
    (found : g.workers[j]? = some w) (moved : WorkerStep g j o w next effect)
    (more : before ++ g.sends ⊆ before ++ (perform (setWorker g j next) effect).sends) :
    ∀ row ∈ (perform (setWorker g j next) effect).store.recipients, row.status = .sent →
      row ∈ rows ∨ Vouched (before ++ (perform (setWorker g j next) effect).sends) row := by
  intro row inside sent
  have member := List.mem_of_getElem? found
  by_cases touched : area effect = .recipients
  · rcases marks moved touched with ⟨inst,r,rest,at_,rfl⟩ | failed
    · obtain ⟨old,there,rfl⟩ := memUpdate.mp inside
      by_cases here : old.id = r.id
      · obtain ⟨copy,own,same,number⟩ := told.copies w member r (by rw [at_]; exact List.mem_cons_self)
        cases sameRow told.keys there own (here.trans same.symm)
        rw [if_pos here]
        refine .inr ⟨inst.id,rfl,?_⟩
        have went := wentMore more (told.owed w member inst r rest at_)
        rw [← here,← number] at went
        exact went
      · rw [if_neg here] at sent ⊢
        exact (told.sent old there sent).imp_right (vouchedMore more)
    · obtain ⟨r,_,_,_,_,settles,written⟩ := touches moved touched
      rw [written] at inside
      obtain ⟨old,there,rfl⟩ := memUpdate.mp inside
      by_cases here : old.id = r.id
      · rw [if_pos here,settles.status,failed] at sent
        cases sent
      · rw [if_neg here] at sent ⊢
        exact (told.sent old there sent).imp_right (vouchedMore more)
  · rw [recipientsPerform touched] at inside
    exact (told.sent row inside sent).imp_right (vouchedMore more)

theorem toldWorker {j : Nat} {o : Oracle} {w next : Worker} {effect : Effect} (told : Told rows before g)
    (found : g.workers[j]? = some w) (moved : WorkerStep g j o w next effect) :
    Told rows before (perform (setWorker g j next) effect) := by
  have member := List.mem_of_getElem? found
  have more : before ++ g.sends ⊆ before ++ (perform (setWorker g j next) effect).sends := by
    by_cases sends : area effect = .sends
    · cases effect with
      | send call => rw [show (perform (setWorker g j next) (.send call)).sends = g.sends ++ [call] from rfl,← List.append_assoc]
                     exact List.subset_append_left _ _
      | _ => cases sends
    · rw [sendsPerform sends]; exact List.Subset.refl _
  obtain ⟨f,kept,written⟩ := rowsKept moved (setWorker g j next)
  have copied (r : BroadcastRecipient) (old : ∃ row ∈ g.store.recipients, row.id = r.id ∧ row.recipient = r.recipient) :
      ∃ row ∈ (perform (setWorker g j next) effect).store.recipients, row.id = r.id ∧ row.recipient = r.recipient := by
    obtain ⟨row,inside,here,number⟩ := old
    refine ⟨f row,?_,(kept row).1.trans here,(kept row).2.trans number⟩
    rw [written]
    exact List.mem_map_of_mem inside
  refine ⟨?_,?_,fun v inside r own => copied r ?_,fun v inside inst r rest at_ => ?_⟩
  · rw [written]
    exact distinctMap (fun row => (kept row).1) told.keys
  · exact sentAfter told found moved more
  · obtain ⟨k,there⟩ := List.mem_iff_getElem?.mp inside
    rw [workerAfter found moved] at there
    split at there
    · cases Option.some.inj there
      rcases heldStep moved with suffix_ | ⟨_,page⟩
      · exact told.copies w member r (suffix_.subset own)
      · exact ⟨r,(getPendingMember (page.subset own)).1,rfl,rfl⟩
    · exact told.copies v (List.mem_of_getElem? there) r own
  · obtain ⟨k,there⟩ := List.mem_iff_getElem?.mp inside
    rw [workerAfter found moved] at there
    split at there
    · cases Option.some.inj there
      cases moved with
      | delivers i text q later at_' accepted =>
        cases at_
        exact ⟨_,List.mem_append_right _ (List.mem_append_right _ List.mem_cons_self),rfl,rfl,rfl,rfl⟩
      | markUnsent | loseUnsent | markSent | loseSent =>
        simp only [afterSend] at at_
        split at at_ <;> cases at_
      | _ => cases at_
    · exact wentMore more (told.owed v (List.mem_of_getElem? there) inst r rest at_)

theorem toldStep (told : Told rows before g) (moved : step g e = some t) : Told rows before t := by
  rcases workerOrOutside (movedSource moved) with outside | ⟨_,_,_,_,_,_,found,inner,rfl⟩
  · exact toldOutside told outside
  · exact toldWorker told found inner

end Steps

theorem toldLives {rows : List BroadcastRecipient} {s t : Lived} {e : Happening} (told : Told rows s.before s.now)
    (moved : lives s e = some t) : Told rows t.before t.now := by
  cases e with
  | within e =>
    obtain ⟨g,inner,rfl⟩ := Option.map_eq_some_iff.mp moved
    exact toldStep told inner
  | crash =>
    cases moved
    refine ⟨told.keys,fun row member sent => ?_,fun _ member => (by cases member),fun _ member => (by cases member)⟩
    rw [boot,List.append_nil]
    exact told.sent row member sent

/-- A row that has come to say that its message was sent names an instance through which a message to its number went, in
this life of the process or in one before. -/
theorem sentTrue {rows : Tables} {events : List Happening} {t : Lived} {row : BroadcastRecipient}
    (keys : Distinct BroadcastRecipient.id rows.recipients) (ran : run lives (begin rows) events = some t)
    (member : row ∈ t.now.store.recipients) (new : row ∉ rows.recipients) (sent : row.status = .sent) :
    Vouched (allCalls t) row := by
  have start : Told rows.recipients (begin rows).before (begin rows).now :=
    ⟨keys,fun row member _ => .inl member,fun _ member => (by cases member),fun _ member => (by cases member)⟩
  have each : Guarded lives (fun _ _ => True) (begin rows) events := guardedEach (fun _ _ _ => trivial) _
  have kept (s : Lived) (e : Happening) (u : Lived) (told : Told rows.recipients s.before s.now) (_ : True)
      (moved : lives s e = some u) : Told rows.recipients u.before u.now := toldLives told moved
  have told : Told rows.recipients t.before t.now := guardedRun kept start each ran
  exact (told.sent row member sent).resolve_left new

def recordOf (t : Lived) : Option BroadcastRecipient := t.now.store.recipients.head?

theorem sentTrueCrashed : ∃ t row, run lives (begin (sampleTables [31])) crashDuringSend = some t ∧
    row ∈ t.now.store.recipients ∧ row.status = .sent ∧ Vouched (allCalls t) row := by
  have recorded : (run lives (begin (sampleTables [31])) crashDuringSend).bind recordOf =
      some {sampleRecipient 31 with instanceId := some 11, status := .sent} := by decide +kernel
  obtain ⟨t,ran,row⟩ := Option.bind_eq_some_iff.mp recorded
  have member := List.mem_of_head? row
  exact ⟨t,_,ran,member,rfl,sentTrue (by decide) ran member (by decide) rfl⟩

section Failed
variable {rows : List BroadcastRecipient} {id : UUID} {before m : Nat} {g t : System} {e : Event}

theorem untold {j : Nat} {w : Worker} {r : BroadcastRecipient} (inv : Delivering g) (found : g.workers[j]? = some w)
    (busy : quiet w = false) (inside : r ∈ held w.pc) (apart : recording w.pc = false) : deliveries g r.id = 0 := by
  have mine := inv.holding.waiting j w found busy r inside
  rcases Nat.eq_zero_or_pos (deliveries g r.id) with zero | positive
  · exact zero
  rcases inv.recorded r.id (Nat.le_antisymm (inv.once r.id) positive) with settled | ⟨k,v,i,q,later,owner,there,row⟩
  · obtain ⟨line,member,here,_,pending⟩ := mine
    exact absurd pending (settled line member here)
  · have active : quiet v = false := by simp [quiet,there]
    have theirs := inv.holding.waiting k v owner active q (by simp [held,there])
    rw [row] at theirs
    have same := inv.holding.alone j k w v found owner busy active (waitingSame inv.holding.keys mine theirs)
    subst same
    cases Option.some.inj (found.symm.trans owner)
    rw [there] at apart
    cases apart

def Blamed (rows : List BroadcastRecipient) (id : UUID) (before m : Nat) (g : System) : Prop :=
  ∀ row ∈ g.store.recipients, row.id = id → row.status = .failed → row ∈ rows ∨ before + deliveries g id ≤ m

theorem blamedOutside (blamed : Blamed rows id before m g) (outside : Outside g e t) : Blamed rows id before m t := by
  intro row member here failed
  rw [outside.recipients] at member
  have same : deliveries t id = deliveries g id := by
    rcases outside.sends with same | ⟨_,call,origin,sent⟩
    · simp only [deliveries,same]
    · rw [deliveriesAppend sent,origin,if_neg (fun both => (by cases both.2)),Nat.add_zero]
  rw [same]
  exact blamed row member here failed

theorem blamedWorker {j : Nat} {o : Oracle} {w next : Worker} {effect : Effect} (inv : Delivering g)
    (blamed : Blamed rows id before m g) (room : before ≤ m ∨ ∀ w ∈ g.workers, ∀ r ∈ held w.pc, r.id ≠ id)
    (found : g.workers[j]? = some w) (moved : WorkerStep g j o w next effect) :
    Blamed rows id before m (perform (setWorker g j next) effect) := by
  intro row member here failed
  by_cases sends : area effect = .sends
  · have none_ : (perform (setWorker g j next) effect).store.recipients = g.store.recipients :=
      recipientsPerform (fun other => (by rw [sends] at other; cases other))
    rw [none_] at member
    cases moved with
    | delivers inst text r rest at_ accepted =>
      have busy : quiet w = false := by simp [quiet,at_]
      obtain ⟨line,inside,own,_,pending⟩ := inv.holding.waiting j w found busy r (by simp [held,at_])
      have other : r.id ≠ id := by
        intro same
        cases sameRow inv.holding.keys member inside (here.trans (same.symm.trans own.symm))
        rw [failed] at pending
        cases pending
      have counted := deliveriesAppend (show (perform (setWorker g j {w with pc := .sendOk inst r rest})
        (.send ⟨.worker j r.id,inst.id,r.recipient,text,true⟩)).sends = g.sends ++ [_] from rfl) id
      rw [if_neg (fun both => other (Option.some.inj both.2)),Nat.add_zero] at counted
      rw [counted]
      exact blamed row member here failed
    | refused inst text r rest at_ lost =>
      have counted := deliveriesAppend (show (perform (setWorker g j {w with pc := .sendFailed r rest})
        (.send ⟨.worker j r.id,inst.id,r.recipient,text,false⟩)).sends = g.sends ++ [_] from rfl) id
      rw [if_neg (fun both => (by cases both.1)),Nat.add_zero] at counted
      rw [counted]
      exact blamed row member here failed
    | _ => cases sends
  have same : deliveries (perform (setWorker g j next) effect) id = deliveries g id := by
    simp only [deliveries,sendsPerform sends]
    rfl
  rw [same]
  by_cases touched : area effect = .recipients
  · obtain ⟨r,f,front,_,busy,settles,written⟩ := touches moved touched
    rw [written] at member
    obtain ⟨old,there,rfl⟩ := memUpdate.mp member
    by_cases own : old.id = r.id
    · rw [if_pos own] at here failed
      rw [settles.id,own] at here
      subst here
      have apart : recording w.pc = false := by
        cases moved with
        | markSent => rw [settles.status] at failed; cases failed
        | markUnselected _ _ _ at_ | markUnsent _ _ at_ => rw [at_]; rfl
        | _ => cases touched
      have inside : r ∈ held w.pc := by rw [front]; exact List.mem_cons_self
      rw [untold inv found busy inside apart]
      exact .inr (room.resolve_right (fun none_ => none_ w (List.mem_of_getElem? found) r inside rfl))
    · rw [if_neg own] at here failed ⊢
      exact blamed old there here failed
  · rw [recipientsPerform touched] at member
    exact blamed row member here failed

theorem blamedStep (inv : Delivering g) (blamed : Blamed rows id before m g)
    (room : before ≤ m ∨ ∀ w ∈ g.workers, ∀ r ∈ held w.pc, r.id ≠ id) (moved : step g e = some t) :
    Blamed rows id before m t := by
  rcases workerOrOutside (movedSource moved) with outside | ⟨_,_,_,_,_,_,found,inner,rfl⟩
  · exact blamedOutside blamed outside
  · exact blamedWorker inv blamed room found inner

end Failed

section Lives
variable {rows : List BroadcastRecipient} {id : UUID} {m : Nat} {s t : Lived}

structure Reported (rows : List BroadcastRecipient) (id : UUID) (m : Nat) (s : Lived) : Prop where
  bounded : Bounded id m s
  blamed : Blamed rows id (earlier s id) m s.now

theorem reportedWithin {e : Event} (reported : Reported rows id m s) (careful : DeliverySafe s.now e) {g : System}
    (moved : step s.now e = some g) : Reported rows id m {s with now := g} := by
  have bounded := boundedWithin reported.bounded careful moved
  have room : earlier s id ≤ m ∨ ∀ w ∈ s.now.workers, ∀ r ∈ held w.pc, r.id ≠ id :=
    reported.bounded.bound.imp_right (fun late => late.2.1.dropped)
  exact ⟨bounded,blamedStep reported.bounded.delivering reported.blamed room moved⟩

theorem reportedCrash (reported : Reported rows id m s) :
    Reported rows id (m + if owing s.now id then 1 else 0) ⟨s.before ++ s.now.sends,boot s.now.store⟩ := by
  refine ⟨boundedCrash reported.bounded,fun row member here failed => ?_⟩
  rw [earlierCrash]
  exact (reported.blamed row member here failed).imp_right (fun less => Nat.le_add_right_of_le less)

theorem reportedRun {events : List Happening} (reported : Reported rows id m s) (careful : Guarded lives Careful s events)
    (ran : run lives s events = some t) : Reported rows id (m + cutShort id s events) t := by
  induction events generalizing s m with
  | nil => cases Option.some.inj ran; exact reported
  | cons e rest ih =>
    obtain ⟨u,moved,later⟩ := runCons ran
    have tail (n : Nat) (next : Reported rows id n u) := ih next (careful.2 u moved) later
    simp only [cutShort,moved]
    cases e with
    | within e =>
      obtain ⟨g,inner,rfl⟩ := Option.map_eq_some_iff.mp moved
      rw [Nat.zero_add]
      exact tail m (reportedWithin reported careful.1 inner)
    | crash =>
      cases moved
      rw [← Nat.add_assoc]
      exact tail _ (reportedCrash reported)

end Lives

/-- A row that has come to say that its message failed was delivered to no more often than the process died between a send
to it and its record: without such a crash, never. -/
theorem failedTrue {rows : Tables} {events : List Happening} {t : Lived} {row : BroadcastRecipient}
    (keys : Distinct BroadcastRecipient.id rows.recipients) (careful : Guarded lives Careful (begin rows) events)
    (ran : run lives (begin rows) events = some t) (member : row ∈ t.now.store.recipients) (new : row ∉ rows.recipients)
    (failed : row.status = .failed) : delivered t row.id ≤ cutShort row.id (begin rows) events := by
  have start : Reported rows.recipients row.id 0 (begin rows) := ⟨boundedBegin keys,fun row member _ _ => .inl member⟩
  have reported := (reportedRun start careful ran).blamed row member rfl failed
  rw [Nat.zero_add] at reported
  exact reported.resolve_left new

def crashThenRefused : List Happening :=
  (.within (.startBroadcast (sampleBroadcast 1))::(works 0 10 accepts).map .within) ++ .crash::.within (.resumeBroadcast 21)::
    (calls 0 3).map .within ++ (works 0 9 accepts ++ works 0 1 refuses ++ works 0 1 accepts).map .within

theorem failedTrueRefused : ∃ t row, run lives (begin (sampleTables [31])) crashThenRefused = some t ∧
    row ∈ t.now.store.recipients ∧ row.status = .failed ∧ delivered t row.id ≤ cutShort row.id (begin (sampleTables [31])) crashThenRefused := by
  have recorded : (run lives (begin (sampleTables [31])) crashThenRefused).bind recordOf =
      some {sampleRecipient 31 with status := .failed, errorCode := some "send_failed"} := by decide +kernel
  obtain ⟨t,ran,row⟩ := Option.bind_eq_some_iff.mp recorded
  have member := List.mem_of_head? row
  exact ⟨t,_,ran,member,rfl,failedTrue (by decide) (guardedChecks (by decide +kernel)) ran member (by decide) rfl⟩

end WppGateway.Reports
