import WppGateway.InstanceChoice

/-! HandleInstanceFailure beside SelectInstance: one chooses among the other available
rows of the group, the other among those that are connected as well. -/
namespace WppGateway.Failover
open Domain Store Table Selection Gateway InstanceChoice Leaders

inductive FailureError where
  | select (e : SelectError)
  | findInstances (err : String)
  | noCandidate
  | noneLeft
  deriving DecidableEq, Repr

def FailureError.message : FailureError → String
  | .select e => e.message
  | .findInstances err => "failed to find instances: " ++ err
  | .noCandidate => "no failover candidate available"
  | .noneLeft => "no instances available after failover"

def candidates (failed : UUID) (instances : List Instance) : List Instance :=
  instances.filter (fun i => i.id != failed && i.status == .available)

def failoverOnFailed (failed : UUID) (instances : List Instance) : Except FailureError Instance :=
  match candidates failed instances with
  | [] => .error .noCandidate
  | first::rest => .ok (rest.foldl (fun best i => if i.priority > best.priority then i else best) first)

def rotationOnFailed (failed : UUID) (instances : List Instance) : Except FailureError Instance :=
  (rotationSelect (candidates failed instances)).mapError .select

def hybridOnFailed (failed : UUID) (instances : List Instance) : Except FailureError Instance :=
  match candidates failed instances with
  | [] => .error .noneLeft
  | first::rest => (rotationSelect (first::rest)).mapError .select

def onInstanceFailed : Strategy → UUID → List Instance → Except FailureError Instance
  | .failover => failoverOnFailed
  | .rotation => rotationOnFailed
  | .hybrid => hybridOnFailed
  | .other name => fun _ _ => .error (.select (.unknownStrategy name))

/- The group's pause flag and the connections are not looked at. -/
def handleInstanceFailure (g : System) (groupId failed : UUID) (groupError : Option String)
    (listing : Except String (List Instance)) : Except FailureError Instance :=
  match getStrategy g g groupId groupError with
  | .error e => .error (.select e)
  | .ok s => match listing with
    | .error err => .error (.findInstances err)
    | .ok instances => onInstanceFailed s failed instances

def ofGroup (s : Tables) (groupId : UUID) : List Instance := s.instances.filter (fun i => i.groupId == groupId)

/- An answer of FindByGroupID. Rows of one priority come in the order of their creation. -/
def GroupListing (s : Tables) (groupId : UUID) (listing : List Instance) : Prop :=
  listing.Perm (ofGroup s groupId) ∧ listing.Pairwise (fun a b => a.priority ≥ b.priority)

instance (s : Tables) (groupId : UUID) (listing : List Instance) : Decidable (GroupListing s groupId listing) :=
  inferInstanceAs (Decidable (_ ∧ _))

theorem mapErrorOk {ε ε' α : Type} {f : ε → ε'} {r : Except ε α} {a : α} : r.mapError f = .ok a ↔ r = .ok a := by
  cases r <;> simp [Except.mapError]

theorem replacedIff {s : Strategy} (known : Known s) {failed : UUID} {instances : List Instance} {r : Instance} :
    onInstanceFailed s failed instances = .ok r ↔
      Leads (rank s) ((candidates failed instances).filter (fits s)) r := by
  rw [← selectedIff known]
  cases s with
  | failover =>
    simp only [onInstanceFailed,failoverOnFailed,strategySelect]
    cases candidates failed instances with
    | nil => simp [failoverSelect]
    | cons first rest => simp [failoverSelect]
  | rotation => exact mapErrorOk
  | hybrid =>
    simp only [onInstanceFailed,hybridOnFailed,strategySelect]
    cases candidates failed instances with
    | nil => simp [hybridSelect]
    | cons first rest => exact mapErrorOk
  | other name => cases known

theorem availableAfter (s : Tables) (groupId failed : UUID) {status : InstanceStatus}
    (unavailable : status ≠ .available) :
    availableOf (setInstanceStatus s failed status) groupId = candidates failed (ofGroup s groupId) := by
  simp only [availableOf,setInstanceStatus,updateInstance,candidates,ofGroup,update,List.filter_filter]
  induction s.instances with
  | nil => rfl
  | cons i rest ih =>
    simp only [List.map_cons,List.filter_cons,ih]
    by_cases here : i.id = failed
    · simp [here,unavailable]
    · simp [here,Bool.and_comm]

theorem strictlySorted {s : Tables} {groupId : UUID} {all : List Instance} (rows : GroupListing s groupId all)
    (distinct : Distinct Instance.priority (ofGroup s groupId)) : all.Pairwise (fun a b => b.priority < a.priority) := by
  have apart : Distinct Instance.priority all := (rows.1.map Instance.priority).nodup_iff.mpr distinct
  have unequal : all.Pairwise (fun a b => a.priority ≠ b.priority) := List.pairwise_map.mp apart
  refine (rows.2.and unequal).imp (fun both => ?_)
  exact lt_of_le_of_ne both.1 (Ne.symm both.2)

theorem sameListing {s : Tables} {groupId failed : UUID} {status : InstanceStatus} {all listing : List Instance}
    (unavailable : status ≠ .available) (rows : GroupListing s groupId all)
    (distinct : Distinct Instance.priority (ofGroup s groupId))
    (listed : Listing (setInstanceStatus s failed status) groupId listing) : listing = candidates failed all := by
  have perm : listing.Perm (candidates failed all) := by
    have available := listed.1
    rw [availableAfter s groupId failed unavailable] at available
    exact available.trans (rows.1.symm.filter _)
  have sorted : (candidates failed all).Pairwise (fun a b => b.priority < a.priority) :=
    List.Pairwise.sublist List.filter_sublist (strictlySorted rows distinct)
  have keys : Distinct Instance.priority (candidates failed all) :=
    List.pairwise_map.mpr (sorted.imp (fun less => Ne.symm (ne_of_lt less)))
  refine perm.eq_of_pairwise (fun a b left right more less => ?_) listed.2 (sorted.imp le_of_lt)
  exact sameRow keys (perm.subset left) right (le_antisymm less more)

def withFailed (g : System) (failed : UUID) (status : InstanceStatus) : System :=
  write g (setInstanceStatus g.store failed status)

/- The failure's replacement is the one that a selection would make once the row says so, and it is connected. -/
def SameReplacement (g : System) (groupId failed : UUID) (status : InstanceStatus) (groupError : Option String)
    (all listing : List Instance) (connected : UUID → Bool) : Prop :=
  ∀ r, (handleInstanceFailure g groupId failed groupError (.ok all) = .ok r ↔
      selectInstance (withFailed g failed status) (withFailed g failed status) (withFailed g failed status) groupId
        ⟨groupError,.ok listing,connected⟩ = .ok r) ∧
    (handleInstanceFailure g groupId failed groupError (.ok all) = .ok r → connected r.id = true)

/- Each other available instance that the strategy could take and that is not connected is outranked by one that is. -/
def Replaceable (s : Strategy) (t : Tables) (groupId failed : UUID) (connected : UUID → Bool) : Prop :=
  ∀ i ∈ (candidates failed (ofGroup t groupId)).filter (fits s), connected i.id = false →
    ∃ k ∈ (candidates failed (ofGroup t groupId)).filter (fits s), connected k.id = true ∧
      Outranks (rank s) Instance.priority k i

instance (s : Strategy) (k i : Instance) : Decidable (Outranks (rank s) Instance.priority k i) :=
  inferInstanceAs (Decidable (_ ∨ _))

instance (s : Strategy) (t : Tables) (groupId failed : UUID) (connected : UUID → Bool) :
    Decidable (Replaceable s t groupId failed connected) := by
  unfold Replaceable; infer_instance

/-- With distinct priorities the replacement for a failed instance is what SelectInstance would choose exactly where every
candidate that is not connected is outranked by a connected one. -/
theorem replacementExact (g : Orchestrator) (groupId failed : UUID) (status : InstanceStatus)
    (groupError : Option String) (all listing : List Instance) (connected : UUID → Bool)
    (running : g.paused groupId = false) (distinct : Distinct Instance.priority (ofGroup g.store groupId))
    (unavailable : status ≠ .available) (rows : GroupListing g.store groupId all)
    (listed : Listing (setInstanceStatus g.store failed status) groupId listing) :
    SameReplacement g.toSystem groupId failed status groupError all listing connected ↔
      ∀ s, getStrategy g.toSystem g.toSystem groupId groupError = .ok s → Replaceable s g.store groupId failed connected := by
  have perm : (candidates failed all).Perm (candidates failed (ofGroup g.store groupId)) := rows.1.filter _
  cases found : getStrategy g.toSystem g.toSystem groupId groupError with
  | error e =>
    -- without a strategy both fail
    have unselected : getStrategy (withFailed g.toSystem failed status) (withFailed g.toSystem failed status) groupId
        groupError = .error e := found
    refine ⟨fun _ s same => (by cases same),fun _ r => ?_⟩
    simp [handleInstanceFailure,selectedInstance,found,unselected]
  | ok s =>
    have known := getStrategyKnown found
    have selected : getStrategy (withFailed g.toSystem failed status) (withFailed g.toSystem failed status) groupId
        groupError = .ok s := found
    have replaces : ∀ r, handleInstanceFailure g.toSystem groupId failed groupError (.ok all) = .ok r ↔
        Leads (rank s) ((candidates failed all).filter (fits s)) r := by
      intro r
      simp only [handleInstanceFailure,found]
      exact replacedIff known
    have selects : ∀ r, selectInstance (withFailed g.toSystem failed status) (withFailed g.toSystem failed status)
        (withFailed g.toSystem failed status) groupId ⟨groupError,.ok listing,connected⟩ = .ok r ↔
        Leads (rank s) (((candidates failed all).filter (fits s)).filter (fun k => connected k.id)) r := by
      intro r
      have still : (withFailed g.toSystem failed status).paused groupId = false := running
      rw [selectedInstance,sameListing unavailable rows distinct listed]
      simp only [still,selected,true_and,Except.ok.injEq,exists_eq_left',chosenIff,selectedIff known]
      rw [List.filter_comm]
    have sorted : ((candidates failed all).filter (fits s)).Pairwise (fun a b => b.priority < a.priority) :=
      List.Pairwise.sublist (List.filter_sublist.trans List.filter_sublist) (strictlySorted rows distinct)
    have same : ∀ i, i ∈ (candidates failed all).filter (fits s) ↔
        i ∈ (candidates failed (ofGroup g.store groupId)).filter (fits s) := fun i => (perm.filter _).mem_iff
    simp only [SameReplacement,replaces,selects,Except.ok.injEq,forall_eq']
    rw [leaderAgrees,leaderPasses sorted]
    simp only [Replaceable,same]

def reserve (id : UUID) (priority : Int) : Instance := {sampleInstance with id := id, priority := priority}

def reserves : List Instance := [reserve 13 3,reserve 12 2,reserve 11 1]

def reserveGateway : Orchestrator := ⟨boot ⟨[sampleGroup],reserves,[],[],[]⟩,fun id s cached => (by cases cached)⟩

theorem reservesAgree : SameReplacement reserveGateway.toSystem 1 13 .banned none reserves
    [reserve 12 2,reserve 11 1] (fun id => id == 12) := by
  refine (replacementExact reserveGateway 1 13 .banned none reserves [reserve 12 2,reserve 11 1] (fun id => id == 12)
    rfl (by decide +kernel) (by decide) (by decide +kernel) (by decide +kernel)).mpr (fun s found => ?_)
  cases found
  decide +kernel

theorem deadReplacement :
    Distinct Instance.priority (ofGroup reserveGateway.store 1) ∧ GroupListing reserveGateway.store 1 reserves ∧
    Listing (setInstanceStatus reserveGateway.store 13 .banned) 1 [reserve 12 2,reserve 11 1] ∧
    handleInstanceFailure reserveGateway.toSystem 1 13 none (.ok reserves) = .ok (reserve 12 2) ∧
    selectInstance (withFailed reserveGateway.toSystem 13 .banned) (withFailed reserveGateway.toSystem 13 .banned)
      (withFailed reserveGateway.toSystem 13 .banned) 1 ⟨none,.ok [reserve 12 2,reserve 11 1],fun id => id == 11⟩ = .ok (reserve 11 1) ∧
    ¬ SameReplacement reserveGateway.toSystem 1 13 .banned none reserves [reserve 12 2,reserve 11 1]
      (fun id => id == 11) := by
  have handled : handleInstanceFailure reserveGateway.toSystem 1 13 none (.ok reserves) = .ok (reserve 12 2) := by
    decide +kernel
  refine ⟨by decide +kernel,by decide +kernel,by decide +kernel,handled,by decide +kernel,fun same => ?_⟩
  have joined := (same (reserve 12 2)).2 handled
  cases joined

end WppGateway.Failover
