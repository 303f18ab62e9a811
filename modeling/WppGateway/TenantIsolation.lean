import WppGateway.Tenancy

/-! What a request of one tenant learns of the rows of the others and does to them, for
the eight handlers of broadcasts and metrics. -/
namespace WppGateway.TenantIsolation
open Domain Store Table Gateway Http TenantHandlers Tenancy

inductive Endpoint where
  | getStatus | list | pause | resume | cancel | groupMetrics | dailyMetrics | instanceMetrics
  deriving DecidableEq, Repr

def handle : Endpoint → System → Query → Answers → System × Response
  | .getStatus => getStatus
  | .list => TenantHandlers.list
  | .pause => pause
  | .resume => resume
  | .cancel => cancel
  | .groupMetrics => groupMetrics
  | .dailyMetrics => dailyMetrics
  | .instanceMetrics => instanceMetrics

def namesBroadcast : Endpoint → Bool
  | .getStatus | .pause | .resume | .cancel => true
  | _ => false

def NamesOwn (tenant : UUID) (s : Tables) (e : Endpoint) (q : Query) : Prop :=
  ∃ groupId, q.group.parsed = some groupId ∧ ownsGroup s tenant groupId = true ∧
    (namesBroadcast e = true → ∃ b ∈ s.broadcasts, q.broadcast.parsed = some b.id ∧ b.groupId = groupId)

structure Isolated (tenant : UUID) (e : Endpoint) (g : System) (q : Query) (a : Answers) : Prop where
  rows : (handle e g q a).1.store.broadcasts = g.store.broadcasts
  jobs : (handle e g q a).1.activeJobs = g.activeJobs
  workers : (handle e g q a).1.workers = g.workers
  response : ∀ s, Sound s → SameFor tenant g.store s → (handle e (write g s) q a).2 = (handle e g q a).2

theorem verifySame {tenant : UUID} {g : System} {t : Tables} {q : Query} {a : Answers} (sound : Sound g.store)
    (other : Sound t) (same : SameFor tenant g.store t) (authenticated : q.tenant = some tenant) :
    verifyGroupOwnership (write g t) q a = verifyGroupOwnership g q a := by
  simp only [verifyGroupOwnership,authenticated]
  split
  · rfl
  · simp only [write,checkOwns other.keys,checkOwns sound.keys,same.ownsGroup]

theorem verifyPasses (g : System) (q : Query) (a : Answers) : (verifyGroupOwnership g q a).failed = false := by
  unfold verifyGroupOwnership
  repeat' split
  all_goals rfl

theorem nilEmpty {s : Tables} (sound : Sound s) : s.broadcasts.filter (fun b => b.groupId == nil) = [] ∧
    s.instances.filter (fun i => i.groupId == nil) = [] ∧ messagesOf s nil = [] := by
  refine ⟨?_,?_,?_⟩
  all_goals refine List.filter_eq_nil_iff.mpr (fun row member here => ?_)
  · obtain ⟨g,inside,same⟩ := sound.broadcasts row member
    exact sound.named g inside (same.trans (by simpa using here))
  · obtain ⟨g,inside,same⟩ := sound.instances row member
    exact sound.named g inside (same.trans (by simpa using here))
  · obtain ⟨g,inside,same⟩ := sound.messages row member nil (by simpa using here)
    exact sound.named g inside same

section Handlers
variable {tenant : UUID} {g : System} {q : Query} {a : Answers} {e : Endpoint}

theorem sameAnswer (isolated : Isolated tenant e g q a) {p r : Planted} (sound : Sound g.store)
    (left : Plantable g.store tenant p) (right : Plantable g.store tenant r) :
    (handle e (write g (plant g.store tenant p)) q a).2 = (handle e (write g (plant g.store tenant r)) q a).2 :=
  (isolated.response _ (plantSound sound left) (plantSame left)).trans
    (isolated.response _ (plantSound sound right) (plantSame right)).symm

theorem readsOnly (read : ∀ h : System, (handle e h q a).1 = h)
    (response : ∀ s, Sound s → SameFor tenant g.store s → (handle e (write g s) q a).2 = (handle e g q a).2) :
    Isolated tenant e g q a :=
  ⟨by rw [read],by rw [read],by rw [read],response⟩

theorem plantableGroup {id : UUID} (foreign : ownsGroup g.store tenant id = false) (named : id ≠ nil) :
    Plantable g.store tenant ⟨id,[],[],[]⟩ :=
  ⟨foreign,named,by simp,by simp,by simp,List.nodup_nil,List.nodup_nil,List.nodup_nil⟩

def foreignBroadcast (id groupId : UUID) : Broadcast := ⟨id,groupId,.pending,0,0,0,0,0,[],.null,.null,.null,0⟩

theorem plantableBroadcast {id group : UUID} (foreign : ownsGroup g.store tenant group = false) (named : group ≠ nil)
    (new : ownsBroadcast g.store tenant id = false) :
    Plantable g.store tenant ⟨group,[foreignBroadcast id group],[],[]⟩ :=
  ⟨foreign,named,by simpa [foreignBroadcast] using new,by simp,by simp,List.nodup_singleton _,List.nodup_nil,
    List.nodup_nil⟩

theorem notOwnRows {id : UUID} (foreign : ownsGroup g.store tenant id = false) (p : Planted) :
    (plant g.store tenant p).broadcasts.filter (fun b => b.groupId == id) = p.broadcasts.filter (fun b => b.groupId == id) ∧
    (plant g.store tenant p).instances.filter (fun i => i.groupId == id) = p.instances.filter (fun i => i.groupId == id) ∧
    messagesOf (plant g.store tenant p) id = p.messages.filter (fun m => m.groupId == some id) := by
  have gone : ∀ {α : Type} {rows new : List α} {mine here : α → Bool},
      (∀ row, mine row = true → here row = true → False) →
      (rows.filter mine ++ new).filter here = new.filter here := by
    intro α rows new mine here apart
    rw [List.filter_append,List.filter_filter]
    have none_ : rows.filter (fun row => here row && mine row) = [] :=
      List.filter_eq_nil_iff.mpr (fun row _ both => by
        simp only [Bool.and_eq_true] at both
        exact apart row both.2 both.1)
    rw [none_,List.nil_append]
  refine ⟨gone ?_,gone ?_,gone ?_⟩
  · intro b mine here
    rw [eq_of_beq here,foreign] at mine; cases mine
  · intro i mine here
    rw [eq_of_beq here,foreign] at mine; cases mine
  · intro m mine here
    rw [eq_of_beq here,Option.any_some,foreign] at mine; cases mine

theorem listFrom {h k : System} (verified : verifyGroupOwnership k q a = verifyGroupOwnership h q a)
    (rows : k.store.broadcasts.filter (fun b => b.groupId == groupIdOf q) =
      h.store.broadcasts.filter (fun b => b.groupId == groupIdOf q)) :
    (TenantHandlers.list k q a).2 = (TenantHandlers.list h q a).2 := by
  simp only [TenantHandlers.list,verified,verifyPasses,findBroadcastsByGroupID,rows]
  split
  · rfl
  · split <;> rfl

theorem listTotal (h : System) (read : a.read = true) (limit : 0 ≤ q.limit.getD 20) (offset : 0 ≤ q.offset.getD 0) :
    ∃ page, (TenantHandlers.list h q a).2 = Http.list (verifyGroupOwnership h q a).response (.broadcasts page)
      ⟨(h.store.broadcasts.filter (fun b => b.groupId == groupIdOf q)).length,min (q.limit.getD 20) 200,
        q.offset.getD 0⟩ := by
  have allowed : ¬ (min (q.limit.getD 20) 200 < 0 ∨ q.offset.getD 0 < 0) := by omega
  simp only [TenantHandlers.list,verifyPasses,read,findBroadcastsByGroupID,allowed]
  exact ⟨_,rfl⟩

theorem listFails (h : System) (fails : a.read = false ∨ q.limit.getD 20 < 0 ∨ q.offset.getD 0 < 0) :
    (TenantHandlers.list h q a).2 = errInternal (verifyGroupOwnership h q a).response "Failed to list broadcasts" := by
  have none_ : (if a.read then findBroadcastsByGroupID h.store (groupIdOf q) (min (q.limit.getD 20) 200)
      (q.offset.getD 0) else none) = none := by
    rcases fails with unread | negative
    · rw [unread]; rfl
    · have refused : min (q.limit.getD 20) 200 < 0 ∨ q.offset.getD 0 < 0 := by omega
      rw [findBroadcastsByGroupID,if_pos refused,ite_self]
  simp only [TenantHandlers.list,verifyPasses,none_]
  rfl

theorem listIsolated (sound : Sound g.store) (authenticated : q.tenant = some tenant)
    (foreign : ownsGroup g.store tenant (groupIdOf q) = false) : Isolated tenant .list g q a ↔
      groupIdOf q = nil ∨ a.read = false ∨ q.limit.getD 20 < 0 ∨ q.offset.getD 0 < 0 := by
  constructor
  · intro isolated
    by_contra spared
    simp only [not_or,not_lt,Bool.not_eq_false] at spared
    obtain ⟨named,read,limit,offset⟩ := spared
    obtain ⟨id,new⟩ := freshKey Broadcast.id (ownBroadcasts g.store tenant)
    have unowned : ownsBroadcast g.store tenant id = false := by
      rw [ownsBroadcast,List.any_eq_false]
      intro b member same
      exact absurd (new b member) (by simp [eq_of_beq same])
    have row := plantableBroadcast foreign named unowned
    have same := sameAnswer isolated sound (plantableGroup foreign named) row
    obtain ⟨_,left⟩ := listTotal (write g (plant g.store tenant ⟨groupIdOf q,[],[],[]⟩)) read limit offset
    obtain ⟨_,right⟩ := listTotal
      (write g (plant g.store tenant ⟨groupIdOf q,[foreignBroadcast id (groupIdOf q)],[],[]⟩)) read limit offset
    simp only [handle] at same
    rw [left,right] at same
    simp [Http.list,write,(notOwnRows foreign _).1,foreignBroadcast] at same
  · intro spared
    refine readsOnly (fun h => ?_) (fun s other same => ?_)
    · simp only [handle,TenantHandlers.list]
      split
      · rfl
      · split <;> rfl
    · have verified := verifySame (q := q) (a := a) sound other same authenticated
      rcases spared with unnamed | fails
      · refine listFrom verified ?_
        rw [unnamed,(nilEmpty sound).1]
        exact (nilEmpty other).1
      · simp only [handle]
        rw [listFails _ fails,listFails _ fails,verified]

def foreignMessage (id group : UUID) (day : Int) : MessageLog :=
  ⟨id,some group,none,[],[],.sent,none,day⟩

def foreignInstance (id group : UUID) : Instance := ⟨id,group,none,.disconnected,0,0,0,0,0,1⟩

theorem plantableMessage {group : UUID} (foreign : ownsGroup g.store tenant group = false) (named : group ≠ nil)
    (day : Int) : ∃ id, Plantable g.store tenant ⟨group,[],[],[foreignMessage id group day]⟩ := by
  obtain ⟨id,new⟩ := freshKey MessageLog.id (ownMessages g.store tenant)
  refine ⟨id,foreign,named,by simp,by simp,?_,List.nodup_nil,List.nodup_nil,List.nodup_singleton _⟩
  intro m member
  cases List.mem_singleton.mp member
  exact ⟨rfl,fun old inside => (new old inside).ne⟩

theorem plantableInstance {group : UUID} (foreign : ownsGroup g.store tenant group = false) (named : group ≠ nil) :
    ∃ id, Plantable g.store tenant ⟨group,[],[foreignInstance id group],[]⟩ := by
  obtain ⟨id,new⟩ := freshKey Instance.id (ownInstances g.store tenant)
  refine ⟨id,foreign,named,by simp,?_,by simp,List.nodup_nil,List.nodup_singleton _,List.nodup_nil⟩
  intro i member
  cases List.mem_singleton.mp member
  exact ⟨rfl,fun old inside => (new old inside).ne⟩

theorem metricIsolated (failure : String) (data : Tables → UUID → Data) {blind : Prop}
    (handler : ∀ h, handle e h q a = metric failure data h q a) (sound : Sound g.store)
    (authenticated : q.tenant = some tenant)
    (unnamed : ∀ s t, Sound s → Sound t → data s nil = data t nil)
    (closed : blind → ∀ s t, data s (groupIdOf q) = data t (groupIdOf q))
    (visible : ¬ blind → groupIdOf q ≠ nil → ∃ p, Plantable g.store tenant p ∧ data (plant g.store tenant p) (groupIdOf q) ≠
      data (plant g.store tenant ⟨groupIdOf q,[],[],[]⟩) (groupIdOf q))
    (foreign : ownsGroup g.store tenant (groupIdOf q) = false) :
    Isolated tenant e g q a ↔ groupIdOf q = nil ∨ a.read = false ∨ blind := by
  constructor
  · intro isolated
    by_contra spared
    simp only [not_or,Bool.not_eq_false] at spared
    obtain ⟨named,read,seen⟩ := spared
    obtain ⟨p,plantable,different⟩ := visible seen named
    have same := sameAnswer isolated sound plantable (plantableGroup foreign named)
    simp only [handler,metric,verifyPasses,read,ok,Bool.false_eq_true,Bool.true_eq_false,if_false,Response.mk.injEq,
      Option.some.injEq,Body.data.injEq] at same
    exact different same.2
  · intro spared
    refine readsOnly (fun h => ?_) (fun s other same => ?_)
    · simp only [handler,metric]
      split
      · rfl
      · split <;> rfl
    · have verified := verifySame (q := q) (a := a) sound other same authenticated
      simp only [handler,metric,verified,verifyPasses,Bool.false_eq_true,if_false]
      split
      · rfl
      · next read =>
        have equal : data s (groupIdOf q) = data g.store (groupIdOf q) := by
          rcases spared with nameless | unread | unseen
          · rw [nameless]; exact unnamed s g.store other sound
          · exact absurd unread read
          · exact closed unseen s g.store
        simp only [write,equal]

theorem groupMetricsIsolated (sound : Sound g.store) (authenticated : q.tenant = some tenant)
    (foreign : ownsGroup g.store tenant (groupIdOf q) = false) :
    Isolated tenant .groupMetrics g q a ↔ groupIdOf q = nil ∨ a.read = false ∨ False := by
  refine metricIsolated _ (fun s id => .groupMetrics (groupCounts s id a.count)) (fun _ => rfl) sound authenticated
    (fun s t left right => ?_) nofun (fun _ named => ?_) foreign
  · simp only [groupCounts,(nilEmpty left).2.1,(nilEmpty left).2.2,(nilEmpty right).2.1,(nilEmpty right).2.2]
  · obtain ⟨id,row⟩ := plantableMessage foreign named 0
    refine ⟨_,row,fun same => ?_⟩
    have counted := congrArg GroupMetrics.sent (Data.groupMetrics.inj same)
    simp [groupCounts,(notOwnRows foreign _).2.2,foreignMessage,wasSent] at counted

theorem dailyMetricsIsolated (sound : Sound g.store) (authenticated : q.tenant = some tenant)
    (foreign : ownsGroup g.store tenant (groupIdOf q) = false) : Isolated tenant .dailyMetrics g q a ↔
      groupIdOf q = nil ∨ a.read = false ∨
        ∀ day, a.days (q.since.getD a.monthAgo) (q.until_.getD a.today) day = false := by
  refine metricIsolated _ (fun s id => .daily _ _ (dailyRows s id _)) (fun _ => rfl) sound authenticated
    (fun s t left right => ?_) (fun blind s t => ?_) (fun seen named => ?_) foreign
  · simp only [dailyRows,(nilEmpty left).2.2,(nilEmpty right).2.2]
  · have none_ : ∀ rows : List MessageLog, rows.filter (fun m =>
        a.days (q.since.getD a.monthAgo) (q.until_.getD a.today) m.queuedOn) = [] :=
      fun rows => List.filter_eq_nil_iff.mpr (fun m _ => by simp [blind])
    simp only [dailyRows,none_]
  · simp only [not_forall,Bool.not_eq_false] at seen
    obtain ⟨day,selected⟩ := seen
    obtain ⟨id,row⟩ := plantableMessage foreign named day
    refine ⟨_,row,fun same => ?_⟩
    have rows := congrArg List.length (Data.daily.inj same).2.2
    simp [dailyRows,(notOwnRows foreign _).2.2,foreignMessage,selected,List.Nodup.dedup (List.nodup_singleton day),
      List.dedup_nil] at rows

theorem instanceMetricsIsolated (sound : Sound g.store) (authenticated : q.tenant = some tenant)
    (foreign : ownsGroup g.store tenant (groupIdOf q) = false) :
    Isolated tenant .instanceMetrics g q a ↔ groupIdOf q = nil ∨ a.read = false ∨ False := by
  refine metricIsolated _ (fun s id => .instances (instanceRows s id)) (fun _ => rfl) sound authenticated
    (fun s t left right => ?_) nofun (fun _ named => ?_) foreign
  · simp only [instanceRows,(nilEmpty left).2.1,(nilEmpty right).2.1]
    rfl
  · obtain ⟨id,row⟩ := plantableInstance foreign named
    refine ⟨_,row,fun same => ?_⟩
    have rows := congrArg List.length (Data.instances.inj same)
    simp [instanceRows,(notOwnRows foreign _).2.1,foreignInstance] at rows

theorem statusKept {b : Broadcast} {status : BroadcastStatus} : {b with status := status} = b ↔ b.status = status := by
  constructor
  · intro same
    exact (congrArg Broadcast.status same).symm
  · rintro rfl
    rfl

theorem controlNone (call : System → UUID → System × Bool) (failure shown : String) (h : System)
    (invalid : q.broadcast.parsed = none) : controlBroadcast call failure shown h q a =
      (h,errBadRequest (verifyGroupOwnership h q a).response (invalidUUID q.broadcast)) := by
  simp [controlBroadcast,verifyPasses,invalid]

theorem controlSome (call : System → UUID → System × Bool) (failure shown : String) (h : System) {id : UUID}
    (given : q.broadcast.parsed = some id) : controlBroadcast call failure shown h q a = ((call h id).1,
      if (call h id).2 then ok (verifyGroupOwnership h q a).response (.status shown)
      else errInternal (verifyGroupOwnership h q a).response failure) := by
  simp [controlBroadcast,verifyPasses,given]

theorem stopKeeps (status : BroadcastStatus) (id : UUID) (update : Bool) :
    ((stopBroadcast status g id update).1.store.broadcasts = g.store.broadcasts ∧
      (stopBroadcast status g id update).1.activeJobs = g.activeJobs ∧
      (stopBroadcast status g id update).1.workers = g.workers) ↔
    g.activeJobs id = none ∧ (update = false ∨ ∀ b ∈ g.store.broadcasts, b.id = id → b.status = status) := by
  cases job : g.activeJobs id with
  | some handle =>
    -- the entry of the job is gone afterwards, whatever becomes of the row
    simp only [reduceCtorEq,false_and,iff_false]
    intro given
    obtain ⟨_,jobs,_⟩ := given
    have gone := congrFun jobs id
    cases update <;> simp [stopBroadcast,stopJob,job,dropJob,perform,write] at gone
  | none =>
    have idle : stopJob g id = g := by simp [stopJob,job]
    cases update with
    | false => simp [stopBroadcast,idle]
    | true =>
      have rows : (stopBroadcast status g id true).1.store.broadcasts = g.store.broadcasts ↔
          ∀ b ∈ g.store.broadcasts, b.id = id → b.status = status := by
        simp only [stopBroadcast,idle,if_true,perform,write,updateStatus,updateBroadcast,updateSame,statusKept]
      rw [rows]
      simp [stopBroadcast,idle,perform,write]

theorem stopIsolated (status : BroadcastStatus) (failure shown : String)
    (handler : ∀ h, handle e h q a = controlBroadcast (fun h id => stopBroadcast status h id a.update) failure shown h q a)
    (sound : Sound g.store) (authenticated : q.tenant = some tenant) : Isolated tenant e g q a ↔
      ∀ id, q.broadcast.parsed = some id → g.activeJobs id = none ∧
        (a.update = false ∨ ∀ b ∈ g.store.broadcasts, b.id = id → b.status = status) := by
  have response : ∀ s, Sound s → SameFor tenant g.store s → (handle e (write g s) q a).2 = (handle e g q a).2 := by
    intro s other same
    have verified := verifySame (q := q) (a := a) sound other same authenticated
    cases given : q.broadcast.parsed with
    | none => rw [handler,handler,controlNone _ _ _ _ given,controlNone _ _ _ _ given,verified]
    | some id => rw [handler,handler,controlSome _ _ _ _ given,controlSome _ _ _ _ given,verified]; rfl
  cases given : q.broadcast.parsed with
  | none =>
    have same : (handle e g q a).1 = g := by rw [handler,controlNone _ _ _ _ given]
    exact ⟨fun _ id => nofun,fun _ => ⟨by rw [same],by rw [same],by rw [same],response⟩⟩
  | some id =>
    have state : (handle e g q a).1 = (stopBroadcast status g id a.update).1 := by
      rw [handler,controlSome _ _ _ _ given]
    constructor
    · rintro ⟨rows,jobs,workers,_⟩ _ ⟨⟩
      rw [state] at rows jobs workers
      exact (stopKeeps status id a.update).mp ⟨rows,jobs,workers⟩
    · intro spared
      obtain ⟨rows,jobs,workers⟩ := (stopKeeps status id a.update).mpr (spared id rfl)
      exact ⟨by rw [state,rows],by rw [state,jobs],by rw [state,workers],response⟩

theorem ownBroadcastSame {s t : Tables} {id : UUID} (sound : Sound s) (other : Sound t) (same : SameFor tenant s t)
    (owns : ownsBroadcast s tenant id = true) :
    (∃ b, findBroadcast s id = some b) ∧ findBroadcast t id = findBroadcast s id ∧ getProgress t id = getProgress s id := by
  obtain ⟨b,own,here⟩ := List.any_eq_true.mp owns
  cases eq_of_beq here
  have left := findBroadcastKey sound.keys (List.mem_filter.mp own).1
  rw [← same.broadcasts] at own
  have right := findBroadcastKey other.keys (List.mem_filter.mp own).1
  have pending : ∀ {u : Tables}, ownsBroadcast u tenant b.id = true → pendingOf u b.id =
      (ownRecipients u tenant).filter (fun r => r.broadcastId == b.id && r.status == .pending) := by
    intro u mine
    rw [pendingOf,ownRecipients,List.filter_filter]
    refine List.filter_congr (fun r _ => ?_)
    by_cases key : r.broadcastId = b.id
    · simp [key,mine]
    · simp [key]
  refine ⟨⟨b,left⟩,right.trans left.symm,?_⟩
  have waiting : pendingOf t b.id = pendingOf s b.id := by
    rw [pending owns,pending ((same.ownsBroadcast b.id).trans owns),same.recipients]
  simp only [getProgress,left,right,waiting]

theorem plantableForeign {id : UUID} (foreign : ownsBroadcast g.store tenant id = false) :
    ∃ group, Plantable g.store tenant ⟨group,[],[],[]⟩ ∧
      Plantable g.store tenant ⟨group,[foreignBroadcast id group],[],[]⟩ ∧
      findBroadcast (plant g.store tenant ⟨group,[],[],[]⟩) id = none ∧
      findBroadcast (plant g.store tenant ⟨group,[foreignBroadcast id group],[],[]⟩) id =
        some (foreignBroadcast id group) := by
  obtain ⟨top,above⟩ := freshKey Group.id (ownGroups g.store tenant)
  have new : ownsGroup g.store tenant (top + 1) = false := by
    rw [ownsGroup,List.any_eq_false]
    intro row member same
    have below := above row member
    rw [eq_of_beq same] at below
    exact absurd below (Nat.not_lt.mpr (Nat.le_succ top))
  have absent : (ownBroadcasts g.store tenant).find? (fun b => b.id == id) = none := by
    rw [List.find?_eq_none]
    intro b member same
    rw [ownsBroadcast,List.any_eq_false] at foreign
    exact foreign b member same
  refine ⟨top + 1,plantableGroup new (Nat.succ_ne_zero top),plantableBroadcast new (Nat.succ_ne_zero top) foreign,?_,?_⟩
  · simpa [findBroadcast,plant] using absent
  · simp [findBroadcast,plant,absent,foreignBroadcast]

theorem resumeIsolated (sound : Sound g.store) (authenticated : q.tenant = some tenant) :
    Isolated tenant .resume g q a ↔ ∀ id, q.broadcast.parsed = some id → a.read = false ∨
      (a.update = true ∧ findBroadcast g.store id = none) ∨ (a.update = false ∧ ownsBroadcast g.store tenant id = true) := by
  cases given : q.broadcast.parsed with
  | none =>
    refine ⟨fun _ id => nofun,fun _ => readsOnly (fun h => ?_) (fun s other same => ?_)⟩
    · simp only [handle,resume,controlNone _ _ _ _ given]
    · simp only [handle,resume,controlNone _ _ _ _ given,verifySame sound other same authenticated]
  | some id =>
    constructor
    · rintro isolated _ ⟨⟩
      cases read : a.read with
      | false => exact .inl rfl
      | true =>
        refine .inr ?_
        cases update : a.update with
        | true =>
          refine .inl ⟨rfl,?_⟩
          cases found : findBroadcast g.store id with
          | none => rfl
          | some b =>
            have workers := congrArg List.length isolated.workers
            simp [handle,resume,controlSome _ _ _ _ given,resumeBroadcast,read,update,found,perform,startJob,write] at workers
        | false =>
          refine .inr ⟨rfl,?_⟩
          by_contra foreign
          obtain ⟨group,left,right,gone,there⟩ := plantableForeign (by simpa using foreign)
          have same := sameAnswer isolated sound left right
          simp [handle,resume,controlSome _ _ _ _ given,resumeBroadcast,read,update,write,gone,there,ok,errInternal,
            err] at same
    · intro spared
      have same : ∀ s, Sound s → SameFor tenant g.store s →
          (resumeBroadcast (write g s) id a.read a.update).2 = (resumeBroadcast g id a.read a.update).2 := by
        intro s other same
        rcases spared id rfl with unread | ⟨update,none_⟩ | ⟨update,owns⟩
        · simp [resumeBroadcast,unread]
        · cases read : a.read with
          | false => simp [resumeBroadcast]
          | true =>
            cases found : findBroadcast s id <;> simp [resumeBroadcast,update,none_,write,found]
        · obtain ⟨⟨b,found⟩,equal,_⟩ := ownBroadcastSame sound other same owns
          simp [resumeBroadcast,update,write,equal,found]
      have still : (resumeBroadcast g id a.read a.update).1 = g := by
        rcases spared id rfl with unread | ⟨_,none_⟩ | ⟨update,_⟩
        · simp [resumeBroadcast,unread]
        · cases read : a.read <;> simp [resumeBroadcast,none_]
        · cases read : a.read <;> cases found : findBroadcast g.store id <;> simp [resumeBroadcast,update,found]
      have state : (handle .resume g q a).1 = g := by
        simp only [handle,resume,controlSome _ _ _ _ given,still]
      refine ⟨by rw [state],by rw [state],by rw [state],fun s other like => ?_⟩
      simp only [handle,resume,controlSome _ _ _ _ given,same s other like,verifySame sound other like authenticated]

theorem statusShown {h : System} {groupId id : UUID} (keys : Keys h.store) (authenticated : q.tenant = some tenant)
    (parsed : q.group.parsed = some groupId) (owned : ownsGroup h.store tenant groupId = true)
    (group : a.group = true) (given : q.broadcast.parsed = some id) (read : a.read = true) :
    (getStatus h q a).2 = match getProgress h.store id with
      | none => errNotFound fresh "Broadcast not found"
      | some p => if a.count then ok fresh (.progress p) else errInternal fresh "Failed to get broadcast progress" := by
  have check : (findGroup h.store groupId).any (fun group => group.tenantId == tenant) = true :=
    (checkOwns keys groupId).trans owned
  simp only [getStatus,authenticated,parsed,group,check,given,read]
  cases getProgress h.store id with
  | none => rfl
  | some p => cases a.count <;> rfl

theorem statusReads (h : System) : (getStatus h q a).1 = h := by
  unfold getStatus
  repeat' split
  all_goals rfl

theorem statusFrom {h k : System} (authenticated : q.tenant = some tenant)
    (check : ∀ id, (findGroup k.store id).any (fun group => group.tenantId == tenant) =
      (findGroup h.store id).any (fun group => group.tenantId == tenant))
    (progress : ∀ groupId id, q.group.parsed = some groupId → a.group = true → q.broadcast.parsed = some id →
      a.read = true → (findGroup h.store groupId).any (fun group => group.tenantId == tenant) = true →
      getProgress k.store id = getProgress h.store id) : (getStatus k q a).2 = (getStatus h q a).2 := by
  cases parsed : q.group.parsed with
  | none => simp only [getStatus,authenticated,parsed]
  | some groupId =>
    simp only [getStatus,authenticated,parsed,check]
    split
    · rfl
    · next answered =>
      split
      · next owned =>
        cases given : q.broadcast.parsed with
        | none => rfl
        | some id =>
          dsimp only
          split
          · rfl
          · next read =>
            rw [progress groupId id parsed (by simpa using answered) given (by simpa using read) owned]
            cases getProgress h.store id with
            | none => rfl
            | some p => cases a.count <;> rfl
      · rfl

theorem statusIsolated (sound : Sound g.store) (authenticated : q.tenant = some tenant) :
    Isolated tenant .getStatus g q a ↔
      (∀ groupId, q.group.parsed = some groupId → ownsGroup g.store tenant groupId = false) ∨ a.group = false ∨
      a.read = false ∨ ∀ id, q.broadcast.parsed = some id → ownsBroadcast g.store tenant id = true := by
  constructor
  · intro isolated
    by_contra spared
    simp only [not_or,not_forall,Bool.not_eq_false] at spared
    obtain ⟨⟨groupId,parsed,owned⟩,group,read,id,given,foreign⟩ := spared
    -- two databases that differ in one foreign broadcast: with it there is a progress, without it none
    obtain ⟨other,left,right,gone,there⟩ := plantableForeign (by simpa using foreign)
    have same := sameAnswer isolated sound left right
    simp only [handle] at same
    have shown : ∀ p, Plantable g.store tenant p → _ := fun p plantable =>
      statusShown (h := write g (plant g.store tenant p)) (plantSound sound plantable).keys authenticated parsed
        ((ownsGroupPlant groupId).trans owned) group given read
    rw [shown _ left,shown _ right] at same
    simp only [write,getProgress,gone,there] at same
    cases counted : a.count <;> simp [counted,errNotFound,errInternal,err,ok] at same
  · intro spared
    refine readsOnly statusReads (fun s other same => ?_)
    refine statusFrom authenticated (fun id => ?_) (fun groupId id parsed answered given read owned => ?_)
    · simp only [write,checkOwns other.keys,checkOwns sound.keys,same.ownsGroup]
    · rw [checkOwns sound.keys] at owned
      rcases spared with foreign | ungrouped | unread | owns
      · rw [foreign groupId parsed] at owned; cases owned
      · rw [answered] at ungrouped; cases ungrouped
      · rw [read] at unread; cases unread
      · exact (ownBroadcastSame sound other same (owns id given)).2.2

/- Requests that name something foreign and neither show nor change it all the same. -/
def Spared (tenant : UUID) (g : System) (q : Query) (a : Answers) : Endpoint → Prop
  | .getStatus => (∀ groupId, q.group.parsed = some groupId → ownsGroup g.store tenant groupId = false) ∨
      a.group = false ∨ a.read = false ∨ ∀ id, q.broadcast.parsed = some id → ownsBroadcast g.store tenant id = true
  | .list => groupIdOf q = nil ∨ a.read = false ∨ q.limit.getD 20 < 0 ∨ q.offset.getD 0 < 0
  | .pause => ∀ id, q.broadcast.parsed = some id → g.activeJobs id = none ∧
      (a.update = false ∨ ∀ b ∈ g.store.broadcasts, b.id = id → b.status = .paused)
  | .resume => ∀ id, q.broadcast.parsed = some id → a.read = false ∨
      (a.update = true ∧ findBroadcast g.store id = none) ∨ (a.update = false ∧ ownsBroadcast g.store tenant id = true)
  | .cancel => ∀ id, q.broadcast.parsed = some id → g.activeJobs id = none ∧
      (a.update = false ∨ ∀ b ∈ g.store.broadcasts, b.id = id → b.status = .cancelled)
  | .groupMetrics | .instanceMetrics => groupIdOf q = nil ∨ a.read = false ∨ False
  | .dailyMetrics => groupIdOf q = nil ∨ a.read = false ∨
      ∀ day, a.days (q.since.getD a.monthAgo) (q.until_.getD a.today) day = false

theorem nilForeign {s : Tables} (sound : Sound s) : ownsGroup s tenant nil = false := by
  rw [Bool.eq_false_iff]
  intro owned
  obtain ⟨group,member,_,here⟩ := ownsGroupIff.mp owned
  exact sound.named group member here

theorem groupForeign (sound : Sound g.store) (plain : namesBroadcast e = false)
    (foreign : ¬ NamesOwn tenant g.store e q) : ownsGroup g.store tenant (groupIdOf q) = false := by
  rw [Bool.eq_false_iff]
  intro owned
  cases parsed : q.group.parsed with
  | none =>
    rw [groupIdOf,parsed,Option.getD_none,nilForeign sound] at owned
    cases owned
  | some groupId =>
    rw [groupIdOf,parsed,Option.getD_some] at owned
    exact foreign ⟨groupId,parsed,owned,fun broadcast => absurd broadcast (by simp [plain])⟩

theorem foreignIsolated (sound : Sound g.store) (authenticated : q.tenant = some tenant)
    (foreign : ¬ NamesOwn tenant g.store e q) : Isolated tenant e g q a ↔ Spared tenant g q a e := by
  cases e with
  | getStatus => exact statusIsolated sound authenticated
  | list => exact listIsolated sound authenticated (groupForeign sound rfl foreign)
  | pause => exact stopIsolated .paused _ _ (fun _ => rfl) sound authenticated
  | resume => exact resumeIsolated sound authenticated
  | cancel => exact stopIsolated .cancelled _ _ (fun _ => rfl) sound authenticated
  | groupMetrics => exact groupMetricsIsolated sound authenticated (groupForeign sound rfl foreign)
  | dailyMetrics => exact dailyMetricsIsolated sound authenticated (groupForeign sound rfl foreign)
  | instanceMetrics => exact instanceMetricsIsolated sound authenticated (groupForeign sound rfl foreign)

/-- A request that names something foreign is isolated exactly when it is one of those that are spared. -/
theorem tenantIsolated (sound : Sound g.store) (authenticated : q.tenant = some tenant) (a : Answers)
    (e : Endpoint) : (¬ NamesOwn tenant g.store e q → Isolated tenant e g q a) ↔
      NamesOwn tenant g.store e q ∨ Spared tenant g q a e := by
  constructor
  · intro isolated
    by_cases own : NamesOwn tenant g.store e q
    · exact .inl own
    · exact .inr ((foreignIsolated sound authenticated own).mp (isolated own))
  · intro allowed foreign
    cases allowed with
    | inl own => exact absurd own foreign
    | inr spared => exact (foreignIsolated sound authenticated foreign).mpr spared

end Handlers

theorem sampleSound (ids : List UUID) (keys : Distinct BroadcastRecipient.id (ids.map sampleRecipient)) :
    Sound (sampleTables ids) := by
  refine ⟨⟨List.nodup_singleton _,List.nodup_singleton _,List.nodup_singleton _,keys,List.nodup_nil⟩,?_,?_,?_,?_,?_⟩
  · intro group member
    cases List.mem_singleton.mp member
    decide
  · intro b member
    cases List.mem_singleton.mp member
    exact ⟨sampleGroup,List.mem_singleton_self _,rfl⟩
  · intro r member
    obtain ⟨id,_,rfl⟩ := List.mem_map.mp member
    exact ⟨sampleBroadcast ids.length,List.mem_singleton_self _,rfl⟩
  · intro i member
    cases List.mem_singleton.mp member
    exact ⟨sampleGroup,List.mem_singleton_self _,rfl⟩
  · intro m member
    cases member

def stranger : Query := ⟨some 200,sampleParam 1,sampleParam 21,none,none,none,none⟩

def answered : Answers := ⟨true,true,true,true,"2024-01-01","2024-01-31",fun _ _ _ => true⟩

theorem strangerForeign (e : Endpoint) : ¬ NamesOwn 200 (sampleTables [31]) e stranger := by
  intro own
  obtain ⟨groupId,parsed,owned,_⟩ := own
  cases Option.some.inj parsed
  cases owned

theorem strangerSeesNoStatus : Isolated 200 .getStatus (boot (sampleTables [31])) stranger answered := by
  have spared : Spared 200 (boot (sampleTables [31])) stranger answered .getStatus := by
    refine .inl (fun groupId parsed => ?_)
    cases Option.some.inj parsed
    rfl
  exact (tenantIsolated (sampleSound [31] (by decide)) rfl answered .getStatus).mpr (.inr spared)
    (strangerForeign .getStatus)

theorem strangerPauses : ¬ (¬ NamesOwn 200 (sampleTables [31]) .pause stranger →
    Isolated 200 .pause (boot (sampleTables [31])) stranger answered) := by
  intro isolated
  have rows := (isolated (strangerForeign .pause)).rows
  exact absurd (congrArg (List.map Broadcast.status) rows) (by decide)

end WppGateway.TenantIsolation
