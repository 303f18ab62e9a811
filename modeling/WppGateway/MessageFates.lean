import WppGateway.MessagePages
import WppGateway.Tallies
import WppGateway.TenantHandlers
import Mathlib.Algebra.Field.Rat

/-! What becomes of the messages over whole runs of the API. A message is marked once, as sent or as failed, and nothing
ever says that it was delivered or read. -/
namespace WppGateway.MessageFates
open GoJson Domain Store Resources Table Service TenantView TenantWrites HandlerWrites Accounts ApiIsolation Purging
open TenantHandlers Tallies
open MessagePages (stocked stockedSound sending)
open Http (DailyRow InstanceMetric)

def marked (status : MessageStatus) : Prop := status = .sent ∨ status = .failed

structure Moved (s t : State) : Prop where
  old : ∀ n ∈ t.messages, (∃ m ∈ s.messages, m.id = n.id ∧ (n.status = m.status ∨ m.status = .queued ∧ marked n.status)) ∨
    n.status = .queued ∧ ∀ m ∈ s.messages, m.id ≠ n.id
  kept : ∀ m ∈ s.messages, ∃ n ∈ t.messages, n.id = m.id

section Writes
variable {tenant : UUID} {s t : State} {w : Write}

theorem movedSame (same : t.messages = s.messages) : Moved s t :=
  ⟨fun n member => .inl ⟨n,same ▸ member,rfl,.inl rfl⟩,fun m member => ⟨m,same ▸ member,rfl⟩⟩

theorem movedMap {f : MessageLog → MessageLog} (same : t.messages = s.messages.map f)
    (kept : ∀ m, (f m).id = m.id ∧ (f m).status = m.status) : Moved s t := by
  refine ⟨fun n member => ?_,fun m member => ⟨f m,same ▸ List.mem_map_of_mem member,(kept m).1⟩⟩
  rw [same] at member
  obtain ⟨m,inside,rfl⟩ := List.mem_map.mp member
  exact .inl ⟨m,inside,(kept m).1.symm,.inl (kept m).2⟩

theorem emitMessages (s : State) (e : EmitRequest) : (emit s e).messages = s.messages := by
  unfold emit
  split
  · rfl
  split <;> rfl

theorem movedWrite (allowed : Allowed tenant s w) : Moved s (write s w) := by
  cases w with
  | addMessage m =>
    obtain ⟨queued,fresh,_⟩ := allowed
    refine ⟨fun n member => ?_,fun k member => ⟨k,List.mem_append_left _ member,rfl⟩⟩
    rcases List.mem_append.mp member with old | last
    · exact .inl ⟨n,old,rfl,.inl rfl⟩
    · cases List.mem_singleton.mp last
      exact .inr ⟨queued,fun k inside => (fresh.messages k inside).1⟩
  | editMessage id f =>
    refine ⟨fun n member => ?_,fun m member => ⟨_,memUpdate.mpr ⟨m,member,rfl⟩,?_⟩⟩
    · obtain ⟨m,inside,rfl⟩ := memUpdate.mp member
      by_cases here : m.id = id
      · rw [if_pos here]
        obtain ⟨own,_,_,fate⟩ := allowed.2 m
        exact .inl ⟨m,inside,own.symm,.inr ⟨(allowed.1 m inside here).1,fate⟩⟩
      · rw [if_neg here]
        exact .inl ⟨m,inside,rfl,.inl rfl⟩
    · split
      · exact (allowed.2 m).1
      · rfl
  | dropGroup id => exact movedMap rfl (fun _ => ⟨rfl,rfl⟩)
  | dropInstance id => exact movedMap rfl (fun _ => ⟨rfl,rfl⟩)
  | emit e => exact movedSame (emitMessages s e)
  | _ => exact movedSame rfl

end Writes

structure Fated (before : List MessageLog) (s : State) : Prop where
  settled : ∀ m ∈ before, m.status ≠ .queued → ∀ n ∈ s.messages, n.id = m.id → n.status = m.status
  others : ∀ n ∈ s.messages, (∃ m ∈ before, m.id = n.id ∧ m.status = n.status) ∨ n.status = .queued ∨ marked n.status
  kept : ∀ m ∈ before, ∃ n ∈ s.messages, n.id = m.id

theorem fatedMoved {before : List MessageLog} {s t : State} (fated : Fated before s) (moved : Moved s t) : Fated before t := by
  refine ⟨fun m member done n inside same => ?_,fun n inside => ?_,fun m member => ?_⟩
  · rcases moved.old n inside with ⟨k,there,here,status⟩ | new
    · have before_ := fated.settled m member done k there (here.trans same)
      rcases status with equal | marks
      · exact equal.trans before_
      · exact absurd (before_.symm.trans marks.1) done
    · obtain ⟨k,there,here⟩ := fated.kept m member
      exact absurd (here.trans same.symm) (new.2 k there)
  · rcases moved.old n inside with ⟨k,there,here,status⟩ | new
    · rcases status with equal | marks
      · rw [equal,← here]
        exact fated.others k there
      · exact .inr (.inr marks.2)
    · exact .inr (.inl new.1)
  · obtain ⟨k,there,here⟩ := fated.kept m member
    obtain ⟨n,inside,same⟩ := moved.kept k there
    exact ⟨n,inside,same.trans here⟩

theorem fatedStart {s : State} (messages : Distinct MessageLog.id s.messages) : Fated s.messages s :=
  ⟨fun m member _ n inside same => (by rw [sameRow messages inside member same]),fun n inside => .inl ⟨n,inside,rfl,rfl⟩,
    fun m member => ⟨m,member,rfl⟩⟩

theorem fatedCalls {used : List UUID} {s : Server} {calls : List Call} (sound : Sound used s.state)
    (admitted : Admitted Fresh grow used calls) : Fated s.state.messages (final observe s calls).state := by
  have each (used : List UUID) (tenant : UUID) (t : State) (w : Write) (_ : Sound used t) (allowed : Allowed tenant t w)
      (fated : Fated s.state.messages t) : Fated s.state.messages (write t w) := fatedMoved fated (movedWrite allowed)
  exact (callsKeep each sound admitted (fatedStart sound.messages)).2

theorem deliveredBefore {before : List MessageLog} {s : State} (fated : Fated before s) {n : MessageLog} (inside : n ∈ s.messages)
    (delivered : wasDelivered n = true) : ∃ m ∈ before, m.id = n.id ∧ m.status = n.status := by
  refine (fated.others n inside).resolve_right (fun other => ?_)
  rcases other with queued | sent | failed
  · simp [wasDelivered,queued] at delivered
  · simp [wasDelivered,sent] at delivered
  · simp [wasDelivered,failed] at delivered

/-- Over any run of calls a message that was marked keeps its mark, no message comes to say that it was delivered or read,
and where none said so at first the delivery rate in the metrics of every group stays 0. -/
theorem fatesSettled {used : List UUID} {s : Server} {calls : List Call} (sound : Sound used s.state)
    (admitted : Admitted Fresh grow used calls) :
    (∀ m ∈ s.state.messages, m.status ≠ .queued → ∀ n ∈ (final observe s calls).state.messages, n.id = m.id →
      n.status = m.status) ∧
    (∀ n ∈ (final observe s calls).state.messages, wasDelivered n = true →
      ∃ m ∈ s.state.messages, m.id = n.id ∧ m.status = n.status) ∧
    ((∀ m ∈ s.state.messages, wasDelivered m = false) → ∀ id counted,
      (groupCounts (tables (final observe s calls).state) id counted).deliveryRate = 0) := by
  have fated := fatedCalls sound admitted
  refine ⟨fated.settled,fun n inside delivered => deliveredBefore fated inside delivered,fun never id counted => ?_⟩
  have none_ : (messagesOf (tables (final observe s calls).state) id).countP wasDelivered = 0 := by
    refine List.countP_eq_zero.mpr (fun n member delivered => ?_)
    have inside : n ∈ (final observe s calls).state.messages := (List.mem_filter.mp member).1
    obtain ⟨m,before,_,same⟩ := deliveredBefore fated inside delivered
    have not := never m before
    rw [wasDelivered,same] at not
    exact absurd delivered (Bool.eq_false_iff.mp not)
  simp [groupCounts,rate,none_]

theorem fatesSettledSent :
    (∀ m ∈ stocked.state.messages, m.status ≠ .queued → ∀ n ∈ (final observe stocked [sending 42]).state.messages, n.id = m.id →
      n.status = m.status) ∧
    (∀ n ∈ (final observe stocked [sending 42]).state.messages, wasDelivered n = true →
      ∃ m ∈ stocked.state.messages, m.id = n.id ∧ m.status = n.status) ∧
    ((∀ m ∈ stocked.state.messages, wasDelivered m = false) → ∀ id counted,
      (groupCounts (tables (final observe stocked [sending 42]).state) id counted).deliveryRate = 0) :=
  fatesSettled stockedSound ⟨by unfold Fresh; decide,trivial⟩

def Linked (s : State) : Prop :=
  ∀ m ∈ s.messages, ∀ key, m.instanceId = some key → ∃ i ∈ s.managed.rows.instances, i.id = key

section Links
variable {tenant : UUID} {used : List UUID} {s t : State} {w : Write}

theorem linkedSame (linked : Linked s) (messages : t.messages = s.messages)
    (instances : ∀ i ∈ s.managed.rows.instances, ∃ j ∈ t.managed.rows.instances, j.id = i.id) : Linked t := by
  intro m member key names
  rw [messages] at member
  obtain ⟨i,inside,here⟩ := linked m member key names
  obtain ⟨j,there,same⟩ := instances i inside
  exact ⟨j,there,same.trans here⟩

theorem updatedInstances {key : UUID} {f : InstanceRow → InstanceRow} (kept : ∀ i, (f i).id = i.id) (rows : List InstanceRow) :
    ∀ i ∈ rows, ∃ j ∈ update (fun i : InstanceRow => i.id) key f rows, j.id = i.id := by
  intro i inside
  refine ⟨_,memUpdate.mpr ⟨i,inside,rfl⟩,?_⟩
  split
  · exact kept i
  · rfl

theorem linkedManaged {m : Manager.Managed} {key : UUID} {status : Option InstanceStatus} {entry : Option (UUID × Bool)}
    (linked : Linked s) (rewired : Links.Rewired s.managed key status entry m) : Linked (manage s m) := by
  refine linkedSame linked rfl ?_
  change ∀ i ∈ s.managed.rows.instances, ∃ j ∈ m.rows.instances, j.id = i.id
  rw [rewired.rows]
  exact updatedInstances (f := Links.touched status) (fun _ => rfl) _

theorem linkedWrite (sound : Sound used s) (allowed : Allowed tenant s w) (linked : Linked s) : Linked (write s w) := by
  have same (i : InstanceRow) (inside : i ∈ s.managed.rows.instances) : ∃ j ∈ s.managed.rows.instances, j.id = i.id :=
    ⟨i,inside,rfl⟩
  cases w with
  | dropGroup id =>
    intro m member key names
    obtain ⟨old,before,rfl⟩ := List.mem_map.mp member
    obtain ⟨named,stays⟩ := Option.filter_eq_some_iff.mp names
    obtain ⟨i,inside,here⟩ := linked old before key named
    have other : i.groupId ≠ id := by
      intro of
      simp only [Bool.not_eq_true',List.any_eq_false] at stays
      exact stays i inside (by simp [here,of])
    exact ⟨i,List.mem_filter.mpr ⟨inside,by simpa using other⟩,here⟩
  | dropInstance id =>
    intro m member key names
    obtain ⟨old,before,rfl⟩ := List.mem_map.mp member
    obtain ⟨named,stays⟩ := Option.filter_eq_some_iff.mp names
    obtain ⟨i,inside,here⟩ := linked old before key named
    exact ⟨i,List.mem_filter.mpr ⟨inside,by simpa [here] using stays⟩,here⟩
  | addInstance i => exact linkedSame linked rfl (fun j inside => ⟨j,List.mem_append_left _ inside,rfl⟩)
  | editInstance id f => exact linkedSame linked rfl (updatedInstances (fun i => (allowed.2 i).1) _)
  | addMessage m =>
    obtain ⟨_,_,i,inside,_,names,_⟩ := allowed
    intro k member key named
    rcases List.mem_append.mp member with old | last
    · exact linked k old key named
    · cases List.mem_singleton.mp last
      exact ⟨i,inside,Option.some.inj (names.symm.trans named)⟩
  | editMessage id f =>
    intro m member key names
    obtain ⟨old,before,rfl⟩ := memUpdate.mp member
    split at names
    · rw [(allowed.2 old).2.2.1] at names
      exact linked old before key names
    · exact linked old before key names
  | start id a =>
    obtain ⟨_,_,rewired⟩ := Links.rewiredStart sound.wired id a
    exact linkedManaged linked rewired
  | pair id a =>
    obtain ⟨_,_,rewired⟩ := Links.rewiredPair sound.wired id a
    exact linkedManaged linked rewired
  | stop id => exact linkedManaged linked (Links.stopped sound.wired id)
  | emit e =>
    refine linkedSame linked (emitMessages s e) ?_
    simp only [write,emit]
    split
    · exact same
    split <;> exact same
  | _ => exact linkedSame linked rfl same

end Links

/- Each instance of the group in the metrics, the messages that no instance is named in, and the days. -/
structure Reconciled (t : Tables) (id : UUID) : Prop where
  sent : (messagesOf t id).countP wasSent = ((instanceRows t id).map InstanceMetric.totalSent).sum +
    (messagesOf t id).countP (fun m => m.instanceId.isNone && wasSent m)
  failed : (messagesOf t id).countP (fun m => m.status == .failed) = ((instanceRows t id).map InstanceMetric.totalFailed).sum +
    (messagesOf t id).countP (fun m => m.instanceId.isNone && m.status == .failed)
  days : ∀ selected : Int → Bool,
    ((dailyRows t id selected).map DailyRow.sent).sum = (messagesOf t id).countP (fun m => wasSent m && selected m.queuedOn) ∧
    ((dailyRows t id selected).map DailyRow.delivered).sum =
      (messagesOf t id).countP (fun m => wasDelivered m && selected m.queuedOn) ∧
    ((dailyRows t id selected).map DailyRow.failed).sum =
      (messagesOf t id).countP (fun m => (m.status == .failed) && selected m.queuedOn)

section Metrics
variable {t : Tables} {id : UUID}

theorem daysSum (t : Tables) (id : UUID) (selected : Int → Bool) (p : MessageLog → Bool) (column : DailyRow → Nat)
    (counts : ∀ rows day, column (dailyRow rows day) = (rows.filter (fun m => m.queuedOn == day)).countP p) :
    ((dailyRows t id selected).map column).sum = (messagesOf t id).countP (fun m => p m && selected m.queuedOn) := by
  let rows := (messagesOf t id).filter (fun m => selected m.queuedOn)
  let days := (rows.map MessageLog.queuedOn).dedup
  have each : (days.map (fun day => (rows.filter (fun m => decide (some m.queuedOn = some day))).countP p)).sum =
      (rows.filter (fun m => (some m.queuedOn).any (fun day => decide (day ∈ days)))).countP p :=
    sumByKey (List.nodup_dedup _) (fun m => some m.queuedOn) p rows
  have all : rows.filter (fun m => (some m.queuedOn).any (fun day => decide (day ∈ days))) = rows := by
    refine List.filter_eq_self.mpr (fun m inside => ?_)
    simpa [days] using ⟨m,inside,rfl⟩
  have columns : ((days.insertionSort (· ≤ ·)).map (dailyRow rows)).map column =
      (days.insertionSort (· ≤ ·)).map (fun day => (rows.filter (fun m => decide (some m.queuedOn = some day))).countP p) := by
    rw [List.map_map]
    refine List.map_congr_left (fun day _ => (counts rows day).trans ?_)
    congr 2
    funext m
    rw [Bool.eq_iff_iff]
    simp
  change (((days.insertionSort (· ≤ ·)).map (dailyRow rows)).map column).sum = _
  rw [columns,((List.perm_insertionSort (· ≤ ·) days).map _).sum_eq,each,all,List.countP_filter]

theorem instancesSum (distinct : Distinct Instance.id t.instances)
    (there : ∀ m ∈ t.messages, ∀ key, m.instanceId = some key → ∃ i ∈ t.instances, i.id = key)
    (senders : ∀ m ∈ t.messages, ∀ i ∈ t.instances, m.instanceId = some i.id → m.groupId = some i.groupId)
    (id : UUID) (p : MessageLog → Bool) (column : InstanceMetric → Nat)
    (counts : ∀ i, column (instanceRow t i) = (t.messages.filter (fun m => m.instanceId == some i.id)).countP p) :
    (messagesOf t id).countP p =
      ((instanceRows t id).map column).sum + (messagesOf t id).countP (fun m => m.instanceId.isNone && p m) := by
  let own := t.instances.filter (fun i => i.groupId == id)
  let ids := own.map Instance.id
  have nodup : ids.Nodup := distinctFilter distinct _
  have columns : ((instanceRows t id).map column).sum =
      (ids.map (fun key => (t.messages.filter (fun m => decide (m.instanceId = some key))).countP p)).sum := by
    rw [instanceRows,List.map_map,((List.perm_insertionSort _ own).map _).sum_eq,List.map_map]
    congr 1
    refine List.map_congr_left (fun i _ => (counts i).trans ?_)
    congr 2
    funext m
    rw [Bool.eq_iff_iff]
    simp
  have known (m : MessageLog) (inside : m ∈ t.messages) (key : UUID) (names : m.instanceId = some key) :
      key ∈ ids ↔ m.groupId = some id := by
    obtain ⟨i,member,here⟩ := there m inside key names
    have of := senders m inside i member (by rw [names,here])
    constructor
    · intro listed
      obtain ⟨j,filtered,same⟩ := List.mem_map.mp listed
      obtain ⟨found,group⟩ := List.mem_filter.mp filtered
      cases sameRow distinct found member (same.trans here.symm)
      rw [of,beq_iff_eq.mp group]
    · intro group
      have same : i.groupId = id := Option.some.inj (of.symm.trans group)
      exact here ▸ List.mem_map_of_mem (List.mem_filter.mpr ⟨member,by simpa using same⟩)
  rw [columns,sumByKey nodup,messagesOf,List.countP_filter,List.countP_filter,List.countP_filter]
  refine countSplit (fun m inside => ?_)
  cases names : m.instanceId with
  | none => simp
  | some key =>
    have same : (m.groupId == some id) = decide (key ∈ ids) := by
      rw [Bool.eq_iff_iff,beq_iff_eq,decide_eq_true_iff]
      exact (known m inside key names).symm
    simp [same]

end Metrics

/-- In every state that calls lead to, the metrics of a group agree: what it has sent and failed is what its instances have
and what is left of deleted ones, and what the days of a period have is what was queued in the period. -/
theorem metricsReconciled {used : List UUID} {s : Server} {calls : List Call} (sound : Sound used s.state)
    (linked : Linked s.state) (admitted : Admitted Fresh grow used calls) (id : UUID) :
    Reconciled (tables (final observe s calls).state) id := by
  have each (used : List UUID) (tenant : UUID) (t : State) (w : Write) (sound : Sound used t) (allowed : Allowed tenant t w)
      (linked : Linked t) : Linked (write t w) := linkedWrite sound allowed linked
  obtain ⟨ends,there⟩ := callsKeep each sound admitted linked
  let t := tables (final observe s calls).state
  have rows : t.instances = (final observe s calls).state.managed.rows.instances.map InstanceRow.toInstance := rfl
  have distinct : Distinct Instance.id t.instances := by
    rw [rows,Distinct,List.map_map]
    exact ends.instances
  have inside : ∀ m ∈ t.messages, ∀ key, m.instanceId = some key → ∃ i ∈ t.instances, i.id = key := by
    intro m member key names
    obtain ⟨i,found,here⟩ := there m member key names
    exact ⟨i.toInstance,List.mem_map_of_mem found,here⟩
  have senders : ∀ m ∈ t.messages, ∀ i ∈ t.instances, m.instanceId = some i.id → m.groupId = some i.groupId := by
    intro m member i found names
    obtain ⟨row,listed,rfl⟩ := List.mem_map.mp found
    exact ends.senders m member row listed names
  have sums := instancesSum distinct inside senders id
  have days := daysSum t id
  exact ⟨sums wasSent InstanceMetric.totalSent (fun _ => rfl),
    sums (fun m => m.status == .failed) InstanceMetric.totalFailed (fun _ => rfl),
    fun selected => ⟨days selected wasSent DailyRow.sent (fun _ _ => rfl),
      days selected wasDelivered DailyRow.delivered (fun _ _ => rfl),
      days selected (fun m => m.status == .failed) DailyRow.failed (fun _ _ => rfl)⟩⟩

theorem metricsReconciledSent : Reconciled (tables (final observe stocked [sending 42]).state) 1 := by
  have linked : Linked stocked.state := by
    intro m member key names
    rcases List.mem_pair.mp member with rfl | rfl
    · exact ⟨_,List.mem_singleton_self _,Option.some.inj names⟩
    · exact ⟨_,List.mem_singleton_self _,Option.some.inj names⟩
  have admitted : Admitted Fresh grow [1,11,31,32] [sending 42] := ⟨by unfold Fresh; decide,trivial⟩
  exact metricsReconciled stockedSound linked admitted 1

end WppGateway.MessageFates
