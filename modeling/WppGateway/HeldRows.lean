import WppGateway.Transitions

/-! The recipients a worker holds in memory are pending rows of the table, as long
as a broadcast is given a new worker only after the old ones can send no more. -/
namespace WppGateway.HeldRows
open Domain Store Table Selection Gateway Transitions

def held : Pc → List BroadcastRecipient
  | .chunk rest | .progress rest => rest
  | .selecting _ r rest | .noInstance _ r rest | .sending _ _ r rest | .sendFailed r rest
  | .sendOk _ r rest => r::rest
  | _ => []

/- Between the choice of an instance and the record of the outcome the context is
not looked at, so a cancelled worker is not yet quiet there. -/
def quiet (w : Worker) : Bool :=
  match w.pc with
  | .updateProgress | .markCompleted | .exiting | .returned => true
  | .sending _ _ _ _ | .sendOk _ _ _ => false
  | _ => w.done

def StartsAlone (g : System) (e : Event) : Prop :=
  ∀ b ∈ started g e, ∀ w ∈ g.workers, w.broadcast.id = b.id → quiet w = true

instance (g : System) (e : Event) : Decidable (StartsAlone g e) :=
  inferInstanceAs (Decidable (∀ b ∈ started g e, ∀ w ∈ g.workers, w.broadcast.id = b.id → quiet w = true))

def Waiting (rows : List BroadcastRecipient) (broadcastId id : UUID) : Prop :=
  ∃ row ∈ rows, row.id = id ∧ row.broadcastId = broadcastId ∧ row.status = .pending

structure Holding (g : System) : Prop where
  keys : Distinct BroadcastRecipient.id g.store.recipients
  alone : ∀ (j k : Nat) (v w : Worker), g.workers[j]? = some v → g.workers[k]? = some w →
    quiet v = false → quiet w = false → v.broadcast.id = w.broadcast.id → j = k
  distinct : ∀ (j : Nat) (w : Worker), g.workers[j]? = some w → quiet w = false →
    Distinct BroadcastRecipient.id (held w.pc)
  waiting : ∀ (j : Nat) (w : Worker), g.workers[j]? = some w → quiet w = false →
    ∀ r ∈ held w.pc, Waiting g.store.recipients w.broadcast.id r.id

theorem selectChose {g groupId alive o sel inst}
    (selected : selectStep g groupId alive o sel = some (.chose inst)) :
    ∃ s, sel = .listing s ∧ alive = true ∧ Listing g.store groupId o.listing ∧
      strategySelect s (o.listing.filter (fun i => o.connected i.id)) = .ok inst := by
  cases selectStepSource selected with
  | chosen s inst answered listing some_ chosen => exact ⟨s,rfl,answered,listing,chosen⟩

theorem quietStays {g j o w next effect} (moved : WorkerStep g j o w next effect) (idle : quiet w = true) :
    quiet next = true := by
  cases moved with
  | selectChose sel inst r rest at_ selected order =>
    obtain ⟨s,_,alive,_⟩ := selectChose selected
    simp only [quiet,at_] at idle
    simp [(liveIff.mp alive).2] at idle
  | delivers inst text r rest at_ | refused inst text r rest at_ | markSent inst r rest at_
  | loseSent inst r rest at_ => simp only [quiet,at_] at idle; cases idle
  | markUnsent r rest at_ | loseUnsent r rest at_ =>
    simp only [quiet,at_] at idle
    simp only [afterSend]
    split <;> simpa only [quiet] using idle
  | _ at_ => simp_all [quiet]

theorem quietCancel {w : Worker} (idle : quiet w = true) : quiet w.cancel = true := by
  unfold quiet at *
  simp only [Worker.cancel]
  split <;> simp_all

@[simp] theorem heldAfterSend (sent failed : Int) (rest : List BroadcastRecipient) :
    held (afterSend sent failed rest) = rest := by
  unfold afterSend
  split <;> rfl

theorem heldStep {g j o w next effect} (moved : WorkerStep g j o w next effect) :
    held next.pc <:+ held w.pc ∨
      (live o w = true ∧ (held next.pc).Perm (getPendingRecipients g.store w.broadcast.id chunkSize)) := by
  cases moved with
  | page recipients at_ answered order => exact .inr ⟨answered,order⟩
  | markUnsent r rest at_ | loseUnsent r rest at_ | markSent inst r rest at_ | loseSent inst r rest at_ =>
    left
    rw [at_,heldAfterSend]
    exact List.suffix_cons r rest
  | _ => simp_all [held]

def outcome : Effect → RecipientStatus
  | .recipientSent _ _ => .sent
  | _ => .failed

theorem outcomeNotPending (effect : Effect) : outcome effect ≠ .pending := by
  cases effect <;> nofun

structure Settles (effect : Effect) (f : BroadcastRecipient → BroadcastRecipient) : Prop where
  id : ∀ row, (f row).id = row.id
  broadcastId : ∀ row, (f row).broadcastId = row.broadcastId
  recipient : ∀ row, (f row).recipient = row.recipient
  status : ∀ row, (f row).status = outcome effect

theorem Settles.notPending {effect f} (settles : Settles effect f) (row : BroadcastRecipient) :
    (f row).status ≠ .pending := by
  rw [settles.status]; exact outcomeNotPending effect

theorem settlesSent (id i : UUID) :
    Settles (.recipientSent id i) (fun r => {r with status := .sent, instanceId := some i}) :=
  ⟨fun _ => rfl,fun _ => rfl,fun _ => rfl,fun _ => rfl⟩

theorem settlesFailed (id : UUID) (code : String) :
    Settles (.recipientFailed id code) (fun r => {r with status := .failed, errorCode := some code}) :=
  ⟨fun _ => rfl,fun _ => rfl,fun _ => rfl,fun _ => rfl⟩

theorem touches {g j o w next effect} (moved : WorkerStep g j o w next effect)
    (row : area effect = .recipients) :
    ∃ r f, held w.pc = r::held next.pc ∧ w.done = false ∧ quiet w = false ∧ Settles effect f ∧
      ∀ h : System, (perform h effect).store.recipients = update BroadcastRecipient.id r.id f h.store.recipients := by
  cases moved with
  | markUnselected e r rest at_ answered =>
    have open_ := (liveIff.mp answered).2
    exact ⟨r,_,by simp [held,at_],open_,by simp [quiet,at_,open_],settlesFailed _ _,fun _ => rfl⟩
  | markUnsent r rest at_ answered =>
    have open_ := (liveIff.mp answered).2
    exact ⟨r,_,by rw [at_,heldAfterSend]; rfl,open_,by simp [quiet,at_,open_],settlesFailed _ _,fun _ => rfl⟩
  | markSent inst r rest at_ answered =>
    have open_ := (liveIff.mp answered).2
    exact ⟨r,_,by rw [at_,heldAfterSend]; rfl,open_,by simp [quiet,at_],settlesSent _ _,fun _ => rfl⟩
  | _ => cases row

theorem waitingUpdate {rows broadcastId id k f} (waiting : Waiting rows broadcastId id) (other : id ≠ k) :
    Waiting (update BroadcastRecipient.id k f rows) broadcastId id := by
  obtain ⟨row,member,here,rest⟩ := waiting
  exact ⟨row,memUpdateOther member (by rw [here]; exact other),here,rest⟩

theorem waitingSame {rows a b id} (keys : Distinct BroadcastRecipient.id rows)
    (left : Waiting rows a id) (right : Waiting rows b id) : a = b := by
  obtain ⟨x,hx,idx,ax,_⟩ := left
  obtain ⟨y,hy,idy,bx,_⟩ := right
  cases sameRow keys hx hy (idx.trans idy.symm)
  exact ax.symm.trans bx

theorem waitingPage {g : System} {id : UUID} {r : BroadcastRecipient} {limit : Nat}
    (member : r ∈ getPendingRecipients g.store id limit) : Waiting g.store.recipients id r.id := by
  obtain ⟨inside,here,pending⟩ := getPendingMember member
  exact ⟨r,inside,rfl,here,pending⟩

theorem holdingOutside {g e t} (inv : Holding g) (alone : StartsAlone g e) (outside : Outside g e t) :
    Holding t := by
  have older : ∀ (k : Nat) (v : Worker), t.workers[k]? = some v → quiet v = false →
      (∃ b, started g e = some b ∧ v = newWorker b ∧ k = g.workers.length) ∨
      ∃ w, g.workers[k]? = some w ∧ quiet w = false ∧ v.broadcast = w.broadcast ∧ held v.pc = held w.pc := by
    intro k v found busy
    rcases outsideWorker outside found with new | ⟨w,before,rfl | rfl⟩
    · exact .inl new
    · exact .inr ⟨_,before,busy,rfl,rfl⟩
    · refine .inr ⟨w,before,?_,rfl,rfl⟩
      cases idle : quiet w with
      | false => rfl
      | true => exact absurd (quietCancel idle) (by simp [busy])
  have fresh : ∀ b, started g e = some b → ∀ (k : Nat) (w : Worker), g.workers[k]? = some w →
      quiet w = false → w.broadcast.id ≠ b.id := by
    intro b starts k w found busy same
    have idle := alone b starts w (List.mem_of_getElem? found) same
    rw [idle] at busy; cases busy
  refine ⟨by rw [outside.recipients]; exact inv.keys,?_,?_,?_⟩
  · intro j k v w hv hw bv bw same
    rcases older j v hv bv with ⟨b,starts,rfl,rfl⟩ | ⟨v',fv,qv,sv,_⟩
    · rcases older k w hw bw with ⟨c,again,rfl,rfl⟩ | ⟨w',fw,qw,sw,_⟩
      · rfl
      · exact absurd (same.trans (congrArg Broadcast.id sw)).symm (fresh b starts k w' fw qw)
    · rcases older k w hw bw with ⟨c,starts,rfl,rfl⟩ | ⟨w',fw,qw,sw,_⟩
      · exact absurd ((congrArg Broadcast.id sv).symm.trans same) (fresh c starts j v' fv qv)
      · exact inv.alone j k v' w' fv fw qv qw (by rw [← sv,← sw]; exact same)
  · intro j w hw bw
    rcases older j w hw bw with ⟨b,starts,rfl,rfl⟩ | ⟨w',fw,qw,_,same⟩
    · exact List.nodup_nil
    · rw [same]; exact inv.distinct j w' fw qw
  · intro j w hw bw r member
    rcases older j w hw bw with ⟨b,starts,rfl,rfl⟩ | ⟨w',fw,qw,bsame,same⟩
    · cases member
    · rw [outside.recipients,bsame]
      exact inv.waiting j w' fw qw r (same ▸ member)

theorem pageAfter {g j o w next effect} (inv : Holding g) (found : g.workers[j]? = some w)
    (moved : WorkerStep g j o w next effect) (busy : quiet next = false) :
    quiet w = false ∧ Distinct BroadcastRecipient.id (held next.pc) ∧
      ∀ r ∈ held next.pc, Waiting g.store.recipients w.broadcast.id r.id := by
  have before : quiet w = false := by
    cases idle : quiet w with
    | false => rfl
    | true => exact absurd (quietStays moved idle) (by simp [busy])
  refine ⟨before,?_⟩
  rcases heldStep moved with suffix_ | ⟨_,page⟩
  · exact ⟨List.Nodup.sublist (suffix_.sublist.map _) (inv.distinct j w found before),
      fun r member => inv.waiting j w found before r (suffix_.subset member)⟩
  · exact ⟨(page.map _).nodup_iff.mpr (getPendingDistinct inv.keys _ _),
      fun r member => waitingPage (page.subset member)⟩

theorem frontRow {g : System} {j : Nat} {w next : Worker} (inv : Holding g) (found : g.workers[j]? = some w)
    {r : BroadcastRecipient} (front : held w.pc = r::held next.pc) (busy : quiet w = false) {k : Nat}
    {v : Worker} (after : (if j = k then some next else g.workers[k]?) = some v)
    (active : quiet v = false) : ∀ q ∈ held v.pc, q.id ≠ r.id := by
  intro q member same
  have mine := inv.waiting j w found busy r (by rw [front]; exact List.mem_cons_self)
  split at after
  · cases Option.some.inj after
    have distinct := inv.distinct j w found busy
    rw [front,Distinct,List.map_cons,List.nodup_cons] at distinct
    exact distinct.1 (same ▸ List.mem_map_of_mem member)
  · next different =>
    have theirs := inv.waiting k v after active q member
    rw [same] at theirs
    exact different (inv.alone j k w v found after busy active (waitingSame inv.keys mine theirs))

theorem holdingWorker {g j o w next effect} (inv : Holding g) (found : g.workers[j]? = some w)
    (moved : WorkerStep g j o w next effect) : Holding (perform (setWorker g j next) effect) := by
  have after := workerAfter found moved
  have older : ∀ (k : Nat) (v : Worker), (if j = k then some next else g.workers[k]?) = some v → quiet v = false →
      ∃ u, g.workers[k]? = some u ∧ quiet u = false ∧ v.broadcast = u.broadcast ∧
        Distinct BroadcastRecipient.id (held v.pc) ∧
        ∀ r ∈ held v.pc, Waiting g.store.recipients v.broadcast.id r.id := by
    intro k v here busy
    split at here
    · next same =>
      subst same
      cases Option.some.inj here
      obtain ⟨before,distinct,waiting⟩ := pageAfter inv found moved busy
      have kept := (workerKeeps moved).1
      exact ⟨w,found,before,kept,distinct,by rw [kept]; exact waiting⟩
    · exact ⟨v,here,busy,rfl,inv.distinct k v here busy,inv.waiting k v here busy⟩
  refine ⟨?_,?_,?_,?_⟩
  · by_cases row : area effect = .recipients
    · obtain ⟨r,f,_,_,_,settles,written⟩ := touches moved row
      rw [written]
      exact distinctUpdate settles.id inv.keys
    · rw [recipientsPerform row]; exact inv.keys
  · intro a b u v hu hv bu bv same
    obtain ⟨u',fu,qu,su,_⟩ := older a u ((after a).symm.trans hu) bu
    obtain ⟨v',fv,qv,sv,_⟩ := older b v ((after b).symm.trans hv) bv
    exact inv.alone a b u' v' fu fv qu qv (by rw [← su,← sv]; exact same)
  · intro k v hv bv
    obtain ⟨_,_,_,_,distinct,_⟩ := older k v ((after k).symm.trans hv) bv
    exact distinct
  · -- the rows another worker holds are still pending: the one that is written is not among them
    intro k v hv bv r member
    have here := (after k).symm.trans hv
    obtain ⟨_,_,_,_,_,waiting⟩ := older k v here bv
    by_cases row : area effect = .recipients
    · obtain ⟨front,f,split_,_,busy,_,written⟩ := touches moved row
      rw [written]
      exact waitingUpdate (waiting r member) (frontRow inv found split_ busy here bv r member)
    · rw [recipientsPerform row]; exact waiting r member

theorem holdingStart {g : System} (keys : Distinct BroadcastRecipient.id g.store.recipients)
    (idle : g.workers = []) : Holding g :=
  ⟨keys,by simp [idle],by simp [idle],by simp [idle]⟩

end WppGateway.HeldRows
