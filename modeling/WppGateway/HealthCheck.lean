import WppGateway.Lifecycle

/-! One check of the health monitor, and whether it takes an exhausted instance out of the pool. -/
namespace WppGateway.HealthCheck
open Domain Table Resources Manager Lifecycle

def checkInstance (m : Managed) (id : UUID) (client : Nat) (find update : Bool) : Managed :=
  match (if find then instanceById m.rows id else none) with
  | none => m
  | some inst =>
    if inst.status = .banned ∨ inst.status = .disconnected then m
    else match verdict inst (isConnected m ⟨inst.id,inst.groupId,client⟩) with
      | none => m
      | some status => updateStatus m inst.id status update

theorem checkAlone (m : Managed) (id : UUID) (client : Nat) (find update : Bool) :
    Alone none m (.checkInstance [(id,client)]) (checkInstance m id client find update) .done := by
  have ends : ∀ n, Alone none n (.checkInstance []) n .done :=
    fun n => aloneServed (answers true) (fun _ => rfl) (aloneHere n .done)
  have reads : ∀ writes, advance ⟨m,none,writes⟩ (answers find) (.checkInstance [(id,client)]) =
      some (match (if find then instanceById m.rows id else none) with
        | none => (.checkInstance [],.none,.keep)
        | some inst =>
          if inst.status = .banned ∨ inst.status = .disconnected then (.checkInstance [],.none,.keep)
          else (.checkSocket inst client [],.none,.keep)) := fun _ => rfl
  unfold checkInstance
  split
  · next missing =>
    have skips : ∀ writes, advance ⟨m,none,writes⟩ (answers find) (.checkInstance [(id,client)]) =
        some (.checkInstance [],.none,.keep) := fun writes => by rw [reads,missing]
    exact aloneServed (answers find) skips (ends m)
  next inst read =>
  split
  · next marked =>
    have skips : ∀ writes, advance ⟨m,none,writes⟩ (answers find) (.checkInstance [(id,client)]) =
        some (.checkInstance [],.none,.keep) := fun writes => by rw [reads,read]; exact congrArg some (if_pos marked)
    exact aloneServed (answers find) skips (ends m)
  next unmarked =>
  have looks : ∀ writes, advance ⟨m,none,writes⟩ (answers find) (.checkInstance [(id,client)]) =
      some (.checkSocket inst client [],.none,.keep) := fun writes => by rw [reads,read]; exact congrArg some (if_neg unmarked)
  refine aloneServed (answers find) looks ?_
  split
  · next judged =>
    have passes : ∀ writes, advance ⟨m,none,writes⟩ (answers true) (.checkSocket inst client []) =
        some (.checkInstance [],.none,.keep) := fun writes => by simp [advance,judged]
    exact aloneServed (answers true) passes (ends m)
  · next status judged =>
    have decides : ∀ writes, advance ⟨m,none,writes⟩ (answers true) (.checkSocket inst client []) =
        some (.checkWrite inst.id status [],.none,.keep) := fun writes => by simp [advance,judged]
    refine aloneServed (answers true) decides ?_
    have writes : ∀ writes, advance ⟨m,none,writes⟩ (answers update) (.checkWrite inst.id status []) =
        some (.checkInstance [],written update inst.id status .health,.keep) := fun _ => rfl
    refine aloneServed (answers update) writes ?_
    rw [performWritten]
    exact ends _

def lowRate (i : InstanceRow) : Prop := criticalRate ≤ i.deliveryRate ∧ i.deliveryRate < degradedRate ∧ 10 < i.messagesToday

instance (i : InstanceRow) : Decidable (lowRate i) := by unfold lowRate; infer_instance

theorem judgedNotAvailable {i : InstanceRow} {connected : Bool} {status : InstanceStatus}
    (judged : verdict i connected = some status) : status ≠ .available := by
  unfold verdict at judged
  split at judged
  · cases judged; nofun
  split at judged
  · split at judged <;> cases judged
    nofun
  split at judged <;> cases judged
  nofun

theorem exhaustedVerdict {i : InstanceRow} (connected : Bool) (available : i.status = .available)
    (exhausted : i.dailyBudget ≤ i.messagesToday) :
    (verdict i connected).isSome = true ↔ ¬ (connected = true ∧ lowRate i) := by
  unfold verdict lowRate
  cases connected with
  | false => simp
  | true =>
    rw [if_neg (by decide)]
    by_cases degraded : i.deliveryRate < degradedRate ∧ 10 < i.messagesToday
    · rw [if_pos degraded]
      by_cases critical : i.deliveryRate < criticalRate
      · simp [critical]
      · rw [if_neg critical]
        simp [degraded.1,degraded.2,not_lt.mp critical]
    · rw [if_neg degraded,if_pos ⟨exhausted,available⟩]
      simp only [Option.isSome_some,true_and,true_iff]
      exact fun low => degraded low.2

/-- A check takes an exhausted instance out of the pool exactly when it is not connected with a delivery rate
between the two thresholds and more than ten messages. -/
theorem exhaustedRests {m : Managed} {id : UUID} {client : Nat} {inst : InstanceRow}
    (found : instanceById m.rows id = some inst) (available : inst.status = .available)
    (exhausted : inst.dailyBudget ≤ inst.messagesToday) :
    (∀ after ∈ instanceById (checkInstance m id client true true).rows id, after.status ≠ .available) ↔
      ¬ (isConnected m ⟨id,inst.groupId,client⟩ = true ∧ lowRate inst) := by
  have own : inst.id = id := (findMember found).2
  rw [← exhaustedVerdict _ available exhausted]
  have runs : checkInstance m id client true true = match verdict inst (isConnected m ⟨id,inst.groupId,client⟩) with
      | none => m
      | some status => updateStatus m id status true := by
    simp [checkInstance,found,available,own]
  rw [runs]
  cases judged : verdict inst (isConnected m ⟨id,inst.groupId,client⟩) with
  | none => simp [found,available]
  | some status =>
    have written : instanceById (updateStatus m id status true).rows id = some {inst with status := status} :=
      (findUpdate m.rows.instances (fun i => {i with status := status}) (fun _ => rfl)).trans
        (congrArg (Option.map _) found)
    simp only [written,Option.mem_def,Option.some.injEq,forall_eq',Option.isSome_some,iff_true]
    exact judgedNotAvailable judged

def checked (today : Int) (rate : Rat) : Managed :=
  {rows := ⟨[groupRow 1 100],[⟨⟨11,1,none,.available,0,200,30,today,0,rate⟩,none,0⟩]⟩
   connections := [⟨11,1,0⟩], clients := [⟨11,true,true⟩]}

theorem healthyRests : (instanceById (checkInstance (checked 200 1) 11 0 true true).rows 11).isSome = true ∧
    ∀ after ∈ instanceById (checkInstance (checked 200 1) 11 0 true true).rows 11, after.status ≠ .available :=
  ⟨by decide +kernel,(exhaustedRests rfl rfl (by decide)).mpr (by decide +kernel)⟩

theorem lowRateStays :
    (instanceById (checkInstance (checked 200 (41/50)) 11 0 true true).rows 11).map (fun i => i.status) =
      some .available ∧
    ¬ ∀ (m : Managed) id client inst, instanceById m.rows id = some inst → inst.status = .available →
      inst.dailyBudget ≤ inst.messagesToday →
      ∀ after ∈ instanceById (checkInstance m id client true true).rows id, after.status ≠ .available := by
  have stays : (instanceById (checkInstance (checked 200 (41/50)) 11 0 true true).rows 11).map (fun i => i.status) =
      some .available := by decide +kernel
  refine ⟨stays,fun always => ?_⟩
  obtain ⟨after,found,available⟩ := Option.map_eq_some_iff.mp stays
  exact always _ 11 0 _ rfl rfl (by decide) after found available

end WppGateway.HealthCheck
