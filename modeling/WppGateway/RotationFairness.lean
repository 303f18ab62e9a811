import WppGateway.Capacity
import WppGateway.Levelling
import WppGateway.Runs

/-! How evenly the rotation takes from the instances. Each call sees some of the rows, as the database lists them and as
the connections are, and a message more is counted for the instance it chooses. -/
namespace WppGateway.RotationFairness
open Runs Domain Table Selection Leaders InstanceChoice Capacity Levelling

/- A call whose listing is not of the table is none. -/
def call (rows listing : List Instance) : Option (List Instance) :=
  if listing ⊆ rows then match rotationSelect listing with
    | .ok best => some (chargeAt best.id rows)
    | .error _ => some rows
  else none

def left (rows : List Instance) (id : UUID) : Int := ((rows.find? (fun i => i.id == id)).map dailyRemaining).getD 0

section Calls
variable {rows later listing : List Instance} {best : Instance}

theorem leftRow (distinct : Distinct Instance.id rows) {i : Instance} (member : i ∈ rows) : left rows i.id = dailyRemaining i := by
  rw [left,findKey distinct member]
  rfl

theorem chosenMost (chosen : rotationSelect listing = .ok best) :
    best ∈ listing ∧ ∀ i ∈ listing, 0 < hourRemaining i → dailyRemaining i ≤ dailyRemaining best := by
  obtain ⟨member,day,hour⟩ := rotationRoom chosen
  refine ⟨member,fun i inside room => ?_⟩
  rw [rotationLeader] at chosen
  cases found : leader dailyRemaining (listing.filter hasRoom) with
  | none => rw [found] at chosen; cases chosen
  | some top =>
    rw [found] at chosen
    cases chosen
    by_cases empty : 0 < dailyRemaining i
    · exact (leaderTop found).2 i (List.mem_filter.mpr ⟨inside,by simp [hasRoom,empty,room]⟩)
    · omega

theorem leftCharged (distinct : Distinct Instance.id rows) (member : best ∈ rows) :
    left (chargeAt best.id rows) = spend (left rows) best.id := by
  funext id
  by_cases same : id = best.id
  · subst same
    rw [spendSelf,leftRow distinct member,left,chargeAt,findUpdate rows charge (fun _ => rfl),findKey distinct member]
    simp only [Option.map_some,Option.getD_some,dailyRemaining,charge]
    omega
  · rw [spendOther _ same,left,chargeAt,findUpdateOther (f := charge) rows (fun _ => rfl) same]
    rfl

theorem callSource {next : List Instance} (made : call rows listing = some next) :
    listing ⊆ rows ∧ (next = rows ∨ ∃ best, rotationSelect listing = .ok best ∧ next = chargeAt best.id rows) := by
  unfold call at made
  split at made
  · next inside =>
    split at made
    · next best chosen => cases made; exact ⟨inside,.inr ⟨best,chosen,rfl⟩⟩
    · cases made; exact ⟨inside,.inl rfl⟩
  · cases made

structure Kept (rows next : List Instance) : Prop where
  distinct : Distinct Instance.id next
  ids : next.map Instance.id = rows.map Instance.id
  hours : ∀ i ∈ rows, ∀ j ∈ next, j.id = i.id → hourRemaining j ≤ hourRemaining i

theorem keptCall {next : List Instance} (distinct : Distinct Instance.id rows) (made : call rows listing = some next) :
    Kept rows next := by
  obtain ⟨_,same | ⟨best,_,charged⟩⟩ := callSource made
  · rw [same]
    exact ⟨distinct,rfl,fun i member j inside here => (by rw [sameRow distinct inside member here])⟩
  · rw [charged]
    refine ⟨chargedDistinct distinct,updateKeys (fun _ => rfl),fun i member j inside here => ?_⟩
    obtain ⟨old,before,rfl⟩ := memUpdate.mp inside
    split at here
    · cases sameRow distinct before member here
      rw [if_pos (by assumption)]
      simp only [hourRemaining,charge]
      omega
    · cases sameRow distinct before member here
      rw [if_neg (by assumption)]

theorem keptTrans {next last : List Instance} (first : Kept rows next) (second : Kept next last) : Kept rows last := by
  refine ⟨second.distinct,second.ids.trans first.ids,fun i member j inside here => ?_⟩
  have known : i.id ∈ next.map Instance.id := first.ids ▸ List.mem_map_of_mem member
  obtain ⟨k,there,same⟩ := List.mem_map.mp known
  exact Int.le_trans (second.hours k there j inside (here.trans same.symm)) (first.hours i member k there same)

theorem spentRun {listings : List (List Instance)} (distinct : Distinct Instance.id rows)
    (ran : run call rows listings = some later) : Kept rows later ∧ ∃ turns, Spent (left rows) turns (left later) ∧
      ∀ id, (∀ listing ∈ listings, ∃ i ∈ listing, i.id = id) → (∃ j ∈ later, j.id = id ∧ 0 < hourRemaining j) →
        ∀ turn ∈ turns, id ∈ turn.1 := by
  induction listings generalizing rows with
  | nil =>
    cases Option.some.inj ran
    exact ⟨⟨distinct,rfl,fun i member j inside here => (by rw [sameRow distinct inside member here])⟩,[],.nil _,
      fun _ _ _ _ none_ => (by cases none_)⟩
  | cons listing rest ih =>
    obtain ⟨next,made,ran⟩ := runCons ran
    have first := keptCall distinct made
    obtain ⟨second,turns,spent,always⟩ := ih first.distinct ran
    refine ⟨keptTrans first second,?_⟩
    obtain ⟨inside,same | ⟨best,chosen,charged⟩⟩ := callSource made
    · rw [same] at spent
      exact ⟨turns,spent,fun id listed room => always id (fun l member => listed l (List.mem_cons_of_mem _ member)) room⟩
    obtain ⟨member,most⟩ := chosenMost chosen
    let offered := (listing.filter (fun i => decide (0 < hourRemaining i))).map Instance.id
    have greedy : ∀ id ∈ offered, left rows id ≤ left rows best.id := by
      intro id among
      obtain ⟨i,filtered,rfl⟩ := List.mem_map.mp among
      obtain ⟨there,room⟩ := List.mem_filter.mp filtered
      rw [leftRow distinct (inside there),leftRow distinct (inside member)]
      exact most i there (by simpa using room)
    rw [charged,leftCharged distinct (inside member)] at spent
    refine ⟨(offered,best.id)::turns,.turn _ offered best.id turns _ greedy spent,fun id listed room turn among => ?_⟩
    rcases List.mem_cons.mp among with rfl | old
    · obtain ⟨i,there,here⟩ := listed listing List.mem_cons_self
      obtain ⟨j,last,same,more⟩ := room
      have before := (keptTrans first second).hours i (inside there) j last (same.trans here.symm)
      exact here ▸ List.mem_map_of_mem (List.mem_filter.mpr ⟨there,by simp; omega⟩)
    · exact always id (fun l member => listed l (List.mem_cons_of_mem _ member)) room turn old

end Calls

/-- Over any run of calls of the rotation there is a level: an instance that every call has seen and that still has hourly
room has at most one message more left than the level, and none that was used has less left than it. -/
theorem rotationLevels {rows later : List Instance} {listings : List (List Instance)} (distinct : Distinct Instance.id rows)
    (ran : run call rows listings = some later) : ∃ level : Int, ∀ i ∈ rows, ∀ j ∈ later, j.id = i.id →
      ((∀ listing ∈ listings, ∃ seen ∈ listing, seen.id = i.id) → 0 < hourRemaining j → dailyRemaining j ≤ level + 1) ∧
      (dailyRemaining j ≠ dailyRemaining i → level ≤ dailyRemaining j) := by
  obtain ⟨kept,turns,spent,always⟩ := spentRun distinct ran
  let steady := (later.filter (fun j => decide (0 < hourRemaining j) &&
    decide (∀ listing ∈ listings, ∃ seen ∈ listing, seen.id = j.id))).map Instance.id
  have offered : ∀ id ∈ steady, ∀ turn ∈ turns, id ∈ turn.1 := by
    intro id among
    obtain ⟨j,filtered,rfl⟩ := List.mem_map.mp among
    obtain ⟨inside,both⟩ := List.mem_filter.mp filtered
    obtain ⟨room,seen⟩ := Bool.and_eq_true_iff.mp both
    exact always j.id (of_decide_eq_true seen) ⟨j,inside,rfl,of_decide_eq_true room⟩
  obtain ⟨level,levels⟩ := levelled spent offered
  refine ⟨level,fun i member j inside here => ?_⟩
  have start := leftRow distinct member
  have last := leftRow kept.distinct inside
  rw [here] at last
  refine ⟨fun seen room => ?_,fun changed => ?_⟩
  · have above := levels.above i.id (here ▸ List.mem_map_of_mem (List.mem_filter.mpr ⟨inside,by simp [room,here]; exact seen⟩))
    rwa [last] at above
  · have below := levels.below i.id (by rw [last,start]; exact changed)
    rwa [last] at below

def listings : List (List Instance) := [pool.drop 1,chargeAt 12 pool]

theorem rotationLevelsPool : run call pool listings = some (chargeAt 11 (chargeAt 12 pool)) ∧
    ∃ level : Int, ∀ i ∈ pool, ∀ j ∈ chargeAt 11 (chargeAt 12 pool), j.id = i.id →
      ((∀ listing ∈ listings, ∃ seen ∈ listing, seen.id = i.id) → 0 < hourRemaining j → dailyRemaining j ≤ level + 1) ∧
      (dailyRemaining j ≠ dailyRemaining i → level ≤ dailyRemaining j) :=
  ⟨by decide +kernel,rotationLevels (show Distinct Instance.id pool by decide) (by decide +kernel)⟩

end WppGateway.RotationFairness
