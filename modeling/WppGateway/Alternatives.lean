import Mathlib.Data.List.Basic

/-! Texts with alternatives: a sequence of leaves and of groups, each of which offers one or more such texts. No program
is named here. -/
namespace WppGateway.Alternatives
variable {α β γ : Type}

mutual

inductive Variants (α : Type) where
  | done
  | leaf (a : α) (rest : Variants α)
  | group (options : Options α) (rest : Variants α)

inductive Options (α : Type) where
  | last (t : Variants α)
  | more (t : Variants α) (rest : Options α)

end

mutual

/- What a text can come out as: the leaves in order, and for each group what one of its options comes out as. -/
def Yields (f : α → List β) : Variants α → List β → Prop
  | .done,y => y = []
  | .leaf a rest,y => ∃ z, Yields f rest z ∧ y = f a ++ z
  | .group options rest,y => ∃ x z, Offers f options x ∧ Yields f rest z ∧ y = x ++ z

def Offers (f : α → List β) : Options α → List β → Prop
  | .last t,y => Yields f t y
  | .more t rest,y => Yields f t y ∨ Offers f rest y

end

mutual

def spread (g : α → List γ) : Variants α → Variants γ
  | .done => .done
  | .leaf a rest => (g a).foldr Variants.leaf (spread g rest)
  | .group options rest => .group (spreadOptions g options) (spread g rest)

def spreadOptions (g : α → List γ) : Options α → Options γ
  | .last t => .last (spread g t)
  | .more t rest => .more (spread g t) (spreadOptions g rest)

end

def gather (f : γ → Variants α) : List γ → Options α
  | [] => .last .done
  | [c] => .last (f c)
  | c::d::rest => .more (f c) (gather f (d::rest))

theorem yieldsRow {f : γ → List β} (row : List γ) (t : Variants γ) (y : List β) :
    Yields f (row.foldr Variants.leaf t) y ↔ ∃ z, Yields f t z ∧ y = row.flatMap f ++ z := by
  induction row generalizing y with
  | nil => simp
  | cons c rest ih =>
    simp only [List.foldr_cons,Yields,ih,List.flatMap_cons,List.append_assoc]
    constructor
    · intro there
      obtain ⟨z,⟨x,yields,rfl⟩,rfl⟩ := there
      exact ⟨x,yields,rfl⟩
    · intro there
      obtain ⟨x,yields,rfl⟩ := there
      exact ⟨_,⟨x,yields,rfl⟩,rfl⟩

mutual

theorem yieldsSpread (f : γ → List β) (g : α → List γ) (t : Variants α) (y : List β) :
    Yields f (spread g t) y ↔ Yields (fun a => (g a).flatMap f) t y := by
  cases t with
  | done => exact Iff.rfl
  | leaf a rest => simp only [spread,yieldsRow,Yields,yieldsSpread f g rest]
  | group options rest => simp only [spread,Yields,offersSpread f g options,yieldsSpread f g rest]

theorem offersSpread (f : γ → List β) (g : α → List γ) (options : Options α) (y : List β) :
    Offers f (spreadOptions g options) y ↔ Offers (fun a => (g a).flatMap f) options y := by
  cases options with
  | last t => exact yieldsSpread f g t y
  | more t rest => simp only [spreadOptions,Offers,yieldsSpread f g t,offersSpread f g rest]

end

mutual

theorem yieldsSome (f : α → List β) (t : Variants α) : ∃ y, Yields f t y := by
  cases t with
  | done => exact ⟨[],rfl⟩
  | leaf a rest =>
    obtain ⟨z,yields⟩ := yieldsSome f rest
    exact ⟨_,z,yields,rfl⟩
  | group options rest =>
    obtain ⟨x,offers⟩ := offersSome f options
    obtain ⟨z,yields⟩ := yieldsSome f rest
    exact ⟨_,x,z,offers,yields,rfl⟩

theorem offersSome (f : α → List β) (options : Options α) : ∃ y, Offers f options y := by
  cases options with
  | last t => exact yieldsSome f t
  | more t rest =>
    obtain ⟨y,yields⟩ := yieldsSome f t
    exact ⟨y,.inl yields⟩

end

theorem offersGather {f : α → List β} {parse : γ → Variants α} {list : List γ} (some_ : list ≠ []) (y : List β) :
    Offers f (gather parse list) y ↔ ∃ c ∈ list, Yields f (parse c) y := by
  induction list with
  | nil => exact absurd rfl some_
  | cons c rest ih =>
    cases rest with
    | nil => simp [gather,Offers]
    | cons d rest =>
      have tail := ih (List.cons_ne_nil d rest)
      simp only [gather,Offers,tail,List.exists_mem_cons_iff]

end WppGateway.Alternatives
