import WppGateway.Purging

/-! Books that only grow along a run. What is settled after a run is settled in some books, and every allowed event
leaves it settled in larger ones. What was seen after two parts of one run stands in the same books, whichever of the two
is the longer. No program is named here. -/
namespace WppGateway.Ledgers
open Purging (Admitted admittedAppend)
variable {ε κ β : Type} {allowed : κ → ε → Prop} {grow : κ → ε → κ} {Grown : β → β → Prop} {Settled : κ → β → List ε → Prop}

structure Grows (allowed : κ → ε → Prop) (grow : κ → ε → κ) (Grown : β → β → Prop) (Settled : κ → β → List ε → Prop) :
    Prop where
  refl : ∀ b, Grown b b
  trans : ∀ a b c, Grown a b → Grown b c → Grown a c
  step : ∀ k b past e, Settled k b past → allowed k e → ∃ c, Grown b c ∧ Settled (grow k e) c (past ++ [e])

theorem settledRun (grows : Grows allowed grow Grown Settled) {k : κ} {b : β} {past rest : List ε} (settled : Settled k b past)
    (admitted : Admitted allowed grow k rest) : ∃ c, Grown b c ∧ Settled (rest.foldl grow k) c (past ++ rest) := by
  induction rest generalizing k b past with
  | nil => exact ⟨b,grows.refl b,by rw [List.append_nil]; exact settled⟩
  | cons e rest ih =>
    obtain ⟨first,later⟩ := admitted
    obtain ⟨next,more,stepped⟩ := grows.step k b past e settled first
    obtain ⟨c,most,ran⟩ := ih stepped later
    rw [List.append_assoc,List.singleton_append] at ran
    exact ⟨c,grows.trans b next c more most,ran⟩

theorem settledWithin (grows : Grows allowed grow Grown Settled) {k : κ} {b : β} {events part whole : List ε}
    (settled : Settled k b []) (admitted : Admitted allowed grow k events) (inside : part <+: whole) (all : whole <+: events) :
    ∃ later last c top, Grown c top ∧ Settled later c part ∧ Settled last top whole := by
  obtain ⟨rest,rfl⟩ := inside
  obtain ⟨tail,rfl⟩ := all
  obtain ⟨before,after⟩ := admittedAppend (admittedAppend admitted).1
  obtain ⟨c,_,there⟩ := settledRun grows settled before
  obtain ⟨top,more,ran⟩ := settledRun grows there after
  exact ⟨_,_,c,top,more,there,ran⟩

structure Shared (Grown : β → β → Prop) (Settled : κ → β → List ε → Prop) (first second : List ε) (b c top : β) : Prop where
  one : ∃ k, Settled k b first
  other : ∃ k, Settled k c second
  both : ∃ k whole, Settled k top whole
  left : Grown b top
  right : Grown c top

theorem shared (grows : Grows allowed grow Grown Settled) {k : κ} {b : β} {events first second : List ε}
    (settled : Settled k b []) (admitted : Admitted allowed grow k events) (one : first <+: events) (other : second <+: events) :
    ∃ c d top, Shared Grown Settled first second c d top := by
  rcases List.prefix_or_prefix_of_prefix one other with shorter | longer
  · obtain ⟨_,_,c,top,more,there,ran⟩ := settledWithin grows settled admitted shorter other
    exact ⟨c,top,top,⟨_,there⟩,⟨_,ran⟩,⟨_,_,ran⟩,more,grows.refl top⟩
  · obtain ⟨_,_,c,top,more,there,ran⟩ := settledWithin grows settled admitted longer one
    exact ⟨top,c,top,⟨_,ran⟩,⟨_,there⟩,⟨_,_,ran⟩,grows.refl top,more⟩

end WppGateway.Ledgers
