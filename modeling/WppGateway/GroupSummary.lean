import WppGateway.Service
import Mathlib.Algebra.Ring.Nat
import Mathlib.Algebra.Ring.Int.Defs
import Mathlib.Algebra.BigOperators.Group.List.Basic

/-! The loop that sums up a group, against the counts it is meant to come to, and the instances it leaves out. -/
namespace WppGateway.GroupSummary
open GoJson Domain Resources Manager Service

def countStatus (status : GroupStatus) : InstanceStatus → GroupStatus
  | .available => {status with available := status.available + 1}
  | .resting => {status with resting := status.resting + 1}
  | .warming => {status with warming := status.warming + 1}
  | .banned => {status with banned := status.banned + 1}
  | .disconnected | .connecting => {status with disconnected := status.disconnected + 1}
  | .suspect => status

def addInstance (s : State) (status : GroupStatus) (inst : InstanceRow) : GroupStatus :=
  let status := countStatus status inst.status
  {status with
    totalBudget := status.totalBudget + inst.dailyBudget
    totalSentToday := status.totalSentToday + inst.messagesToday
    instances := status.instances ++ [instanceInfo s inst]}

def blankStatus (group : GroupRow) (groupId : UUID) (isPaused : Bool) : GroupStatus :=
  ⟨groupId,group.name,group.strategy,group.isActive,isPaused,0,0,0,0,0,0,0,[]⟩

def getGroupStatus (s : State) (groupId : UUID) (find : Except String (Option GroupRow))
    (listing : Except String (List InstanceRow)) : Except String GroupStatus := do
  match ← find with
  | none => .error "group not found"
  | some group =>
    let instances ← listing
    .ok (instances.foldl (addInstance s) (blankStatus group groupId (s.paused groupId)))

def counted (status : GroupStatus) : Nat :=
  status.available + status.resting + status.warming + status.banned + status.disconnected

def withStatus (of : InstanceStatus) (rows : List InstanceRow) : Nat := rows.countP (fun i => i.status == of)

structure Partitions (s : State) (rows : List InstanceRow) (status : GroupStatus) : Prop where
  counters : counted status = status.instances.length
  listed : status.instances = rows.map (instanceInfo s)
  budget : status.totalBudget = (status.instances.map InstanceInfo.dailyBudget).sum
  sent : status.totalSentToday = (status.instances.map InstanceInfo.messagesToday).sum

def summed (s : State) (status : GroupStatus) (rows : List InstanceRow) : GroupStatus :=
  {status with
    available := status.available + withStatus .available rows
    resting := status.resting + withStatus .resting rows
    warming := status.warming + withStatus .warming rows
    banned := status.banned + withStatus .banned rows
    disconnected := status.disconnected + (withStatus .disconnected rows + withStatus .connecting rows)
    totalBudget := status.totalBudget + (rows.map (fun i => i.dailyBudget)).sum
    totalSentToday := status.totalSentToday + (rows.map (fun i => i.messagesToday)).sum
    instances := status.instances ++ rows.map (instanceInfo s)}

theorem withStatusCons (of : InstanceStatus) (inst : InstanceRow) (rest : List InstanceRow) :
    withStatus of (inst::rest) = (if inst.status = of then 1 else 0) + withStatus of rest := by
  simp only [withStatus,List.countP_cons,beq_iff_eq]
  exact add_comm ..

theorem addSummed (s : State) (status : GroupStatus) (inst : InstanceRow) (rest : List InstanceRow) :
    summed s (addInstance s status inst) rest = summed s status (inst::rest) := by
  simp only [summed,addInstance,withStatusCons,List.map_cons,List.sum_cons,List.append_assoc,List.singleton_append]
  cases inst.status <;> simp [countStatus,add_assoc,add_left_comm]

theorem loopSummed (s : State) (status : GroupStatus) (rows : List InstanceRow) :
    rows.foldl (addInstance s) status = summed s status rows := by
  induction rows generalizing status with
  | nil => simp [summed,withStatus]
  | cons inst rest ih => rw [List.foldl_cons,ih,addSummed]

theorem statusMade {s : State} {groupId : UUID} {find : Except String (Option GroupRow)}
    {listing : Except String (List InstanceRow)} {status : GroupStatus}
    (answered : getGroupStatus s groupId find listing = .ok status) : ∃ group rows, find = .ok (some group) ∧
      listing = .ok rows ∧ status = summed s (blankStatus group groupId (s.paused groupId)) rows := by
  cases find with
  | error e => cases answered
  | ok found =>
    cases found with
    | none => cases answered
    | some group =>
      cases listing with
      | error e => cases answered
      | ok rows => exact ⟨group,rows,rfl,rfl,(Except.ok.inj answered).symm.trans (loopSummed ..)⟩

theorem serviceStatus (s : State) (groupId : UUID) (a : Answers) : Service.getGroupStatus s groupId a =
    (getGroupStatus s groupId
      (match a.groupError with
        | none => .ok (groupById s.managed.rows groupId)
        | some error => .error error)
      (if a.read then .ok (instancesOf s.managed.rows groupId) else .error "failed to list instances")).toOption := by
  unfold Service.getGroupStatus getGroupStatus
  cases a.groupError with
  | some error => rfl
  | none =>
    cases found : groupById s.managed.rows groupId with
    | none => rfl
    | some group =>
      cases a.read with
      | false => rfl
      | true =>
        refine Eq.trans ?_ (congrArg some (loopSummed s (blankStatus group groupId (s.paused groupId)) _).symm)
        simp [summed,blankStatus,withStatus]

theorem everyStatus (rows : List InstanceRow) :
    withStatus .available rows + withStatus .resting rows + withStatus .warming rows + withStatus .banned rows +
      (withStatus .disconnected rows + withStatus .connecting rows) + withStatus .suspect rows = rows.length := by
  induction rows with
  | nil => rfl
  | cons inst rest ih =>
    simp only [withStatusCons,List.length_cons]
    cases inst.status <;> simp <;> omega

/-- The counters partition the group just when no instance is suspect. -/
theorem statusPartitions {s : State} {groupId : UUID} {find : Except String (Option GroupRow)}
    {rows : List InstanceRow} {status : GroupStatus}
    (answered : getGroupStatus s groupId find (.ok rows) = .ok status) :
    Partitions s rows status ↔ ∀ r ∈ rows, r.status ≠ .suspect := by
  obtain ⟨group,_,_,same,rfl⟩ := statusMade answered
  cases Except.ok.inj same
  have all := everyStatus rows
  have missing : withStatus .suspect rows = 0 ↔ ∀ r ∈ rows, r.status ≠ .suspect := by
    simp [withStatus,List.countP_eq_zero]
  rw [← missing]
  constructor
  · intro partitions
    have sizes := partitions.counters
    simp only [counted,summed,blankStatus,List.nil_append,List.length_map] at sizes
    omega
  · intro none_
    refine ⟨?_,?_,?_,?_⟩
    · simp only [counted,summed,blankStatus,List.nil_append,List.length_map]
      omega
    · simp [summed,blankStatus]
    · simp [summed,blankStatus,Function.comp_def,instanceInfo]
    · simp [summed,blankStatus,Function.comp_def,instanceInfo]

def sampleGroupRow : GroupRow := ⟨⟨1,100,.rotation⟩,text "vendas",.null,none,none,none,true⟩

def sampleMember (id : UUID) (status : InstanceStatus) : InstanceRow :=
  ⟨⟨id,1,none,status,0,200,30,7,0,1⟩,none,0⟩

def summary (rows : List InstanceRow) : Except String GroupStatus :=
  getGroupStatus (serving sampleRows) 1 (.ok (some sampleGroupRow)) (.ok rows)

theorem twoMembers : ∃ status, summary [sampleMember 11 .available,sampleMember 12 .connecting] = .ok status ∧
    Partitions (serving sampleRows) [sampleMember 11 .available,sampleMember 12 .connecting] status ∧ counted status = 2 ∧
    status.totalBudget = 400 := by
  have known : ∀ r ∈ [sampleMember 11 .available,sampleMember 12 .connecting], r.status ≠ .suspect := by decide
  have answered : summary [sampleMember 11 .available,sampleMember 12 .connecting] = .ok
      ([sampleMember 11 .available,sampleMember 12 .connecting].foldl (addInstance (serving sampleRows))
        (blankStatus sampleGroupRow 1 false)) := rfl
  exact ⟨_,answered,(statusPartitions answered).mpr known,rfl,rfl⟩

theorem suspectMissing : ∃ status, summary [sampleMember 11 .suspect] = .ok status ∧
    ¬ Partitions (serving sampleRows) [sampleMember 11 .suspect] status ∧ counted status = 0 ∧
    status.instances.length = 1 := by
  refine ⟨_,rfl,fun partitions => ?_,rfl,rfl⟩
  exact absurd partitions.counters (by decide)

end WppGateway.GroupSummary
