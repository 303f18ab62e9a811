import WppGateway.InstanceChoice

/-! The instance that the failover strategy keeps active, over all orders that the query may return. -/
namespace WppGateway.ActiveInstance
open Domain Store Selection Leaders InstanceChoice

theorem failoverSame {first second : List Instance} :
    failoverSelect first = failoverSelect second ↔
      leader Instance.priority first = leader Instance.priority second := by
  rw [failoverLeader,failoverLeader]
  cases leader Instance.priority first <;> cases leader Instance.priority second <;> simp

theorem listingOrder {s : Tables} {groupId : UUID} {listing : List Instance} (listed : Listing s groupId listing)
    (connected : Instance → Bool) :
    (listing.filter connected).Perm ((availableOf s groupId).filter connected) ∧
      Descending Instance.priority (listing.filter connected) :=
  ⟨listed.1.filter _,listed.2.filter _⟩

/-- All orders by descending priority of a set of instances give the same active instance exactly when only one
instance has the highest priority. -/
theorem activeStable (instances : List Instance) :
    (∀ first second : List Instance, first.Perm instances → second.Perm instances →
      Descending Instance.priority first → Descending Instance.priority second →
      failoverSelect first = failoverSelect second) ↔
      ∀ i j, Top Instance.priority instances i → Top Instance.priority instances j → i = j := by
  simp only [failoverSame]
  exact leaderStable instances

theorem listingStable {s : Tables} {groupId : UUID} {first second : List Instance} {connected : Instance → Bool}
    (one : ∀ i j, Top Instance.priority ((availableOf s groupId).filter connected) i →
      Top Instance.priority ((availableOf s groupId).filter connected) j → i = j)
    (listed : Listing s groupId first) (again : Listing s groupId second) :
    failoverSelect (first.filter connected) = failoverSelect (second.filter connected) :=
  (activeStable _).mpr one _ _ (listingOrder listed connected).1 (listingOrder again connected).1
    (listingOrder listed connected).2 (listingOrder again connected).2

def twin : Instance := {Gateway.sampleInstance with id := 12}

theorem twinsSwitch :
    failoverSelect [Gateway.sampleInstance,twin] = .ok Gateway.sampleInstance ∧
    failoverSelect [twin,Gateway.sampleInstance] = .ok twin ∧
    ¬ ∀ instances first second : List Instance, first.Perm instances → second.Perm instances →
      Descending Instance.priority first → Descending Instance.priority second →
      failoverSelect first = failoverSelect second := by
  refine ⟨rfl,rfl,fun stable => ?_⟩
  have same := stable [Gateway.sampleInstance,twin] [Gateway.sampleInstance,twin] [twin,Gateway.sampleInstance]
    (List.Perm.refl _) (List.Perm.swap _ _ _) (by unfold Descending; decide) (by unfold Descending; decide)
  exact absurd same (by decide)

end WppGateway.ActiveInstance
