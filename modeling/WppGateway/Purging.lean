import Mathlib.Data.List.Basic

/-! A system with replies, seen by one of those who use it. Its events are `mine` or somebody else's. What is known
grows with every event and says which events may come next. Where nobody else's event can be noticed, and the
observer's own do the same in states that look alike, a run looks as if nobody else had been there. No program is
named here. -/
namespace WppGateway.Purging
variable {σ ε ω κ : Type} {step : σ → ε → σ × ω} {mine : ε → Bool} {allowed : κ → ε → Prop} {grow : κ → ε → κ}
  {Alike : κ → σ → σ → Prop}

def final (step : σ → ε → σ × ω) (s : σ) (events : List ε) : σ := events.foldl (fun s e => (step s e).1) s

def replies (step : σ → ε → σ × ω) (mine : ε → Bool) : σ → List ε → List ω
  | _,[] => []
  | s,e::rest =>
    if mine e then (step s e).2::replies step mine (step s e).1 rest else replies step mine (step s e).1 rest

def Admitted (allowed : κ → ε → Prop) (grow : κ → ε → κ) : κ → List ε → Prop
  | _,[] => True
  | k,e::rest => allowed k e ∧ Admitted allowed grow (grow k e) rest

theorem admittedAppend {k : κ} {first later : List ε} (admitted : Admitted allowed grow k (first ++ later)) :
    Admitted allowed grow k first ∧ Admitted allowed grow (first.foldl grow k) later := by
  induction first generalizing k with
  | nil => exact ⟨trivial,admitted⟩
  | cons e rest ih =>
    obtain ⟨inside,last⟩ := ih admitted.2
    exact ⟨⟨admitted.1,inside⟩,last⟩

structure Unwinds (step : σ → ε → σ × ω) (mine : ε → Bool) (allowed : κ → ε → Prop) (grow : κ → ε → κ)
    (Alike : κ → σ → σ → Prop) : Prop where
  others : ∀ k s t e, Alike k s t → allowed k e → mine e = false → Alike (grow k e) (step s e).1 t
  own : ∀ k s t e, Alike k s t → allowed k e → mine e = true →
    (step s e).2 = (step t e).2 ∧ Alike (grow k e) (step s e).1 (step t e).1

theorem purged (unwinds : Unwinds step mine allowed grow Alike) {k : κ} {s t : σ} {events : List ε}
    (alike : Alike k s t) (admitted : Admitted allowed grow k events) :
    replies step mine s events = replies step mine t (events.filter mine) ∧
      Alike (events.foldl grow k) (final step s events) (final step t (events.filter mine)) := by
  induction events generalizing k s t with
  | nil => exact ⟨rfl,alike⟩
  | cons e rest ih =>
    obtain ⟨first,later⟩ := admitted
    cases own : mine e with
    | false =>
      have tail := ih (unwinds.others k s t e alike first own) later
      rw [List.filter_cons_of_neg (by simp [own]),replies,own]
      exact tail
    | true =>
      obtain ⟨same,next⟩ := unwinds.own k s t e alike first own
      have tail := ih next later
      rw [List.filter_cons_of_pos own,replies,replies,own,if_pos rfl,if_pos rfl,same,tail.1]
      exact ⟨rfl,tail.2⟩

end WppGateway.Purging
