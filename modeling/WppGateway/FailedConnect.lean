import WppGateway.Clients

/-! What a failed StartInstance or PairPhone leaves of the map of connections. -/
namespace WppGateway.FailedConnect
open Domain Table Resources Manager Clients

inductive Call where
  | start | pair
  deriving DecidableEq, Repr

def run (s : Managed) (id : UUID) (a : Attempt) : Call → Managed × Bool
  | .start => ((startInstance s id a).1,(startInstance s id a).2.toBool)
  | .pair => ((pairPhone s id a).1,(pairPhone s id a).2.toBool)

def SameMap (s t : Managed) : Prop := ∀ id, connectionOf t id = connectionOf s id

def clientFails (a : Attempt) : Call → Bool
  | .start => (!a.paired && a.channel.isSome) || a.connect.isSome
  | .pair => a.connect.isSome || !a.pairing.toBool

/- The instance and its device are found, and StartInstance does not refuse the instance as connected. -/
def reachesClient (s : Managed) (id : UUID) (a : Attempt) : Call → Bool
  | .start => !(connectionOf s id).any (isConnected s) && known s id a
  | .pair => known s id a

section Calls
variable {s t : Managed} {id : UUID} {a : Attempt}

theorem unregisteredSame (others : ∀ other, connectionOf t other = if other = id then none else connectionOf s other) :
    SameMap s t ↔ connectionOf s id = none := by
  constructor
  · intro same
    rw [← same id,others,if_pos rfl]
  · intro absent other
    rw [others]
    split
    · next here => rw [here,absent]
    · rfl

theorem connectFails (a : Attempt) : (connect a).toBool = !clientFails a .start := by
  unfold connect clientFails
  cases a.paired <;> cases a.channel <;> cases a.connect <;> rfl

/- Before NewConnection nothing is changed; afterwards the entry of the instance is taken out if the client fails. -/
inductive Ending (s : Managed) (id : UUID) (a : Attempt) (c : Call) : Prop where
  | refused (early : reachesClient s id a c = false) (same : (run s id a c).1 = s)
  | tried (reached : reachesClient s id a c = true) (result : (run s id a c).2 = !clientFails a c)
      (undone : clientFails a c = true → ∀ other, connectionOf (run s id a c).1 other =
        if other = id then none else connectionOf s other)

theorem startEnding (s : Managed) (id : UUID) (a : Attempt) : Ending s id a .start := by
  by_cases connected : (connectionOf s id).any (isConnected s) = true
  · exact .refused (by simp [reachesClient,connected]) (by simp [run,startInstance,connected])
  cases found : device s id a with
  | error error =>
    have unknown := deviceUnknown found
    exact .refused (by simp [reachesClient,unknown]) (by simp [run,startInstance,connected,found])
  | ok inst =>
    have reached : reachesClient s id a .start = true := by simp [reachesClient,connected,deviceKnown found]
    cases ends : connect a with
    | error error =>
      refine .tried reached ?_ (fun _ other => ?_)
      · rw [← connectFails,ends]
        simp [run,startInstance,connected,found,ends,Except.toBool]
      · simp only [run,startInstance,connected,found,ends]
        simp
        split <;> rfl
    | ok needsQR =>
      have works := connectFails a
      rw [ends] at works
      refine .tried reached ?_ (fun failed => ?_)
      · rw [← works]
        simp [run,startInstance,connected,found,ends,Except.toBool]
      · rw [failed] at works; cases works

theorem pairEnding (s : Managed) (id : UUID) (a : Attempt) : Ending s id a .pair := by
  cases found : device s id a with
  | error error => exact .refused (deviceUnknown found) (by simp [run,pairPhone,found])
  | ok inst =>
    refine .tried (deviceKnown found) ?_ ?_
    all_goals simp only [run,pairPhone,found,clientFails]
    · cases a.connect <;> cases a.pairing <;> rfl
    · intro failed other
      cases connects : a.connect with
      | some error => simp; split <;> rfl
      | none => cases pairs : a.pairing with
        | error error => simp; split <;> rfl
        | ok code => rw [connects,pairs] at failed; cases failed

theorem ending (s : Managed) (id : UUID) (a : Attempt) (c : Call) : Ending s id a c := by
  cases c with
  | start => exact startEnding s id a
  | pair => exact pairEnding s id a

end Calls

/-- A call that returns an error leaves the map as it was exactly when its client does not fail, or fails for an
instance that had no entry. -/
theorem failureKeepsMap (s : Managed) (id : UUID) (a : Attempt) (c : Call) :
    ((run s id a c).2 = false → SameMap s (run s id a c).1) ↔
      (reachesClient s id a c = true → clientFails a c = true → connectionOf s id = none) := by
  cases ending s id a c with
  | refused early same =>
    rw [same,early]
    exact ⟨fun _ => nofun,fun _ _ _ => rfl⟩
  | tried reached result undone =>
    rw [result,reached]
    cases fails : clientFails a c with
    | false => exact ⟨fun _ _ => nofun,fun _ => nofun⟩
    | true =>
      rw [unregisteredSame (undone fails)]
      exact ⟨fun same _ _ => same rfl,fun absent _ => absent rfl rfl⟩

def connected : Managed := (startInstance (idle sampleRows) 11 succeeds).1

theorem pairingDropsEntry :
    (run connected 11 {succeeds with pairing := .error "timeout"} .pair).2 = false ∧
    (connectionOf connected 11).any (isConnected connected) = true ∧
    connectionOf (run connected 11 {succeeds with pairing := .error "timeout"} .pair).1 11 = none ∧
    ¬ ∀ s id a c, (run s id a c).2 = false → SameMap s (run s id a c).1 := by
  have gone : connectionOf (run connected 11 {succeeds with pairing := .error "timeout"} .pair).1 11 = none := by
    decide +kernel
  refine ⟨by decide +kernel,by decide +kernel,gone,fun always => ?_⟩
  have same := always connected 11 {succeeds with pairing := .error "timeout"} .pair (by decide +kernel) 11
  rw [gone] at same
  exact absurd same (by decide +kernel)

end WppGateway.FailedConnect
