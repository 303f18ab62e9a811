import Mathlib.Data.List.Basic

/-! Runs of a partial step function. Conditions on single steps, properties of
every state and of every step, and the transfer of all three along a view onto a
smaller system. No program is named here. -/
namespace WppGateway.Runs
variable {σ τ ε δ : Type}

def run (step : σ → ε → Option σ) : σ → List ε → Option σ
  | s,[] => some s
  | s,e::rest => do
    let t ← step s e
    run step t rest

/- The condition `ok` holds before every step. A step that is not enabled ends the condition. -/
def Guarded (step : σ → ε → Option σ) (ok : σ → ε → Prop) : σ → List ε → Prop
  | _,[] => True
  | s,e::rest => ok s e ∧ ∀ t, step s e = some t → Guarded step ok t rest

def Throughout (step : σ → ε → Option σ) (P : σ → Prop) : σ → List ε → Prop
  | s,[] => P s
  | s,e::rest => P s ∧ ∀ t, step s e = some t → Throughout step P t rest

def EveryStep (step : σ → ε → Option σ) (A : σ → ε → σ → Prop) : σ → List ε → Prop
  | _,[] => True
  | s,e::rest => ∀ t, step s e = some t → A s e t ∧ EveryStep step A t rest

variable {step : σ → ε → Option σ}

theorem runCons {s e rest u} (ran : run step s (e::rest) = some u) :
    ∃ t, step s e = some t ∧ run step t rest = some u := by
  simpa only [run,bind,Option.bind_eq_some_iff] using ran

theorem runAppend {s t first} (ran : run step s first = some t) (later : List ε) :
    run step s (first ++ later) = run step t later := by
  induction first generalizing s with
  | nil => cases Option.some.inj ran; rfl
  | cons e rest ih =>
    obtain ⟨m,moved,tail⟩ := runCons ran
    simp only [List.cons_append,run,moved,bind,Option.bind]
    exact ih tail

theorem runTotal (total : ∀ s e, ∃ t, step s e = some t) (s : σ) (events : List ε) : ∃ u, run step s events = some u := by
  induction events generalizing s with
  | nil => exact ⟨s,rfl⟩
  | cons e rest ih =>
    obtain ⟨t,moved⟩ := total s e
    obtain ⟨u,ran⟩ := ih t
    exact ⟨u,by simp only [run,moved,bind,Option.bind]; exact ran⟩

theorem guardedEach {ok : σ → ε → Prop} {events : List ε} (each : ∀ e ∈ events, ∀ s, ok s e) (s : σ) :
    Guarded step ok s events := by
  induction events generalizing s with
  | nil => trivial
  | cons e rest ih =>
    exact ⟨each e List.mem_cons_self s,fun t _ => ih (fun e member => each e (List.mem_cons_of_mem _ member)) t⟩

theorem guardedAnd {first second : σ → ε → Prop} {s events} (left : Guarded step first s events)
    (right : Guarded step second s events) : Guarded step (fun s e => first s e ∧ second s e) s events := by
  induction events generalizing s with
  | nil => trivial
  | cons e rest ih => exact ⟨⟨left.1,right.1⟩,fun t moved => ih (left.2 t moved) (right.2 t moved)⟩

theorem everyStep {A : σ → ε → σ → Prop} (related : ∀ s e t, step s e = some t → A s e t) (s : σ) (events : List ε) :
    EveryStep step A s events := by
  induction events generalizing s with
  | nil => trivial
  | cons e rest ih => exact fun t moved => ⟨related s e t moved,ih t⟩

theorem everyStepLast {A : σ → ε → σ → Prop} {s first e t} (related : EveryStep step A s (first ++ [e]))
    (ran : run step s (first ++ [e]) = some t) : ∃ m, run step s first = some m ∧ A m e t := by
  induction first generalizing s with
  | nil =>
    obtain ⟨m,moved,later⟩ := runCons ran
    cases Option.some.inj later
    exact ⟨s,rfl,(related t moved).1⟩
  | cons e' rest ih =>
    obtain ⟨m,moved,later⟩ := runCons ran
    obtain ⟨n,before,held⟩ := ih (related m moved).2 later
    exact ⟨n,by simp only [run,moved,bind,Option.bind]; exact before,held⟩

theorem throughoutMono {P Q : σ → Prop} (implies : ∀ s, P s → Q s) {s events}
    (always : Throughout step P s events) : Throughout step Q s events := by
  induction events generalizing s with
  | nil => exact implies s always
  | cons e rest ih => exact ⟨implies s always.1,fun t moved => ih (always.2 t moved)⟩

theorem throughoutAnd {P Q : σ → Prop} {s events} (left : Throughout step P s events) (right : Throughout step Q s events) :
    Throughout step (fun s => P s ∧ Q s) s events := by
  induction events generalizing s with
  | nil => exact ⟨left,right⟩
  | cons e rest ih => exact ⟨⟨left.1,right.1⟩,fun t moved => ih (left.2 t moved) (right.2 t moved)⟩

theorem throughoutGuarded {P : σ → Prop} {s events} (always : Throughout step P s events) :
    Guarded step (fun s _ => P s) s events := by
  induction events generalizing s with
  | nil => trivial
  | cons e rest ih => exact ⟨always.1,fun t moved => ih (always.2 t moved)⟩

theorem throughoutEnd {P : σ → Prop} {s events t} (always : Throughout step P s events)
    (ran : run step s events = some t) : P t := by
  induction events generalizing s with
  | nil => cases Option.some.inj ran; exact always
  | cons e rest ih =>
    obtain ⟨m,moved,later⟩ := runCons ran
    exact ih (always.2 m moved) later

theorem guardedEnd {P : σ → Prop} {s events t} (guarded : Guarded step (fun s _ => P s) s events)
    (ran : run step s events = some t) (last : P t) : Throughout step P s events := by
  induction events generalizing s with
  | nil => cases Option.some.inj ran; exact last
  | cons e rest ih =>
    obtain ⟨m,moved,later⟩ := runCons ran
    refine ⟨guarded.1,fun m' moved' => ?_⟩
    cases moved.symm.trans moved'
    exact ih (guarded.2 m moved) later

def checks (step : σ → ε → Option σ) (ok : σ → ε → Prop) [∀ s e, Decidable (ok s e)] : σ → List ε → Bool
  | _,[] => true
  | s,e::rest => decide (ok s e) && match step s e with
    | some t => checks step ok t rest
    | none => true

theorem checksExact {ok : σ → ε → Prop} [∀ s e, Decidable (ok s e)] {s events} :
    checks step ok s events = true ↔ Guarded step ok s events := by
  induction events generalizing s with
  | nil => exact ⟨fun _ => trivial,fun _ => rfl⟩
  | cons e rest ih =>
    simp only [checks,Guarded,Bool.and_eq_true,decide_eq_true_eq]
    refine and_congr_right (fun _ => ?_)
    cases step s e with
    | none => exact ⟨fun _ => nofun,fun _ => rfl⟩
    | some t =>
      simp only [Option.some.injEq,forall_eq']
      exact ih

theorem guardedChecks {ok : σ → ε → Prop} [∀ s e, Decidable (ok s e)] {s events}
    (passed : checks step ok s events = true) : Guarded step ok s events := checksExact.mp passed

instance {ok : σ → ε → Prop} [∀ s e, Decidable (ok s e)] (s : σ) (events : List ε) : Decidable (Guarded step ok s events) :=
  decidable_of_iff _ checksExact

section Invariant
variable {Inv : σ → Prop} {ok : σ → ε → Prop}
  (preserved : ∀ s e t, Inv s → ok s e → step s e = some t → Inv t)
include preserved

theorem guardedRun {s events t} (start : Inv s) (guarded : Guarded step ok s events)
    (ran : run step s events = some t) : Inv t := by
  induction events generalizing s with
  | nil => cases Option.some.inj ran; exact start
  | cons e rest ih =>
    obtain ⟨m,moved,later⟩ := runCons ran
    exact ih (preserved s e m start guarded.1 moved) (guarded.2 m moved) later

theorem guardedThroughout {s events} (start : Inv s) (guarded : Guarded step ok s events) :
    Throughout step Inv s events := by
  induction events generalizing s with
  | nil => exact start
  | cons e rest ih =>
    exact ⟨start,fun t moved => ih (preserved s e t start guarded.1 moved) (guarded.2 t moved)⟩

theorem guardedImplies {also : σ → ε → Prop} (implies : ∀ s e, Inv s → ok s e → also s e) {s events} (start : Inv s)
    (guarded : Guarded step ok s events) : Guarded step also s events := by
  induction events generalizing s with
  | nil => trivial
  | cons e rest ih =>
    exact ⟨implies s e start guarded.1,fun t moved => ih (preserved s e t start guarded.1 moved) (guarded.2 t moved)⟩

theorem guardedSteps {A : σ → ε → σ → Prop}
    (related : ∀ s e t, Inv s → ok s e → step s e = some t → A s e t)
    {s events} (start : Inv s) (guarded : Guarded step ok s events) : EveryStep step A s events := by
  induction events generalizing s with
  | nil => trivial
  | cons e rest ih =>
    intro t moved
    exact ⟨related s e t start guarded.1 moved,
      ih (preserved s e t start guarded.1 moved) (guarded.2 t moved)⟩

end Invariant

/- Where the condition decides, in every good state, whether the step leaves a
good state, it holds along a run exactly when every state of the run is good. -/
theorem exactGuard {Inv : σ → Prop} {ok : σ → ε → Prop}
    (exact : ∀ s e t, Inv s → step s e = some t → (Inv t ↔ ok s e))
    {s events u} (start : Inv s) (ran : run step s events = some u) :
    Throughout step Inv s events ↔ Guarded step ok s events := by
  constructor
  · intro good
    induction events generalizing s with
    | nil => trivial
    | cons e rest ih =>
      obtain ⟨m,moved,later⟩ := runCons ran
      have next : Inv m := by
        have tail := good.2 m moved
        cases rest with
        | nil => exact tail
        | cons => exact tail.1
      refine ⟨(exact s e m start moved).mp next,?_⟩
      intro t same
      cases Option.some.inj (moved.symm.trans same)
      exact ih next later (good.2 m moved)
  · exact guardedThroughout (fun s e t inv ok moved => (exact s e t inv moved).mpr ok) start

/-! A view onto a smaller system. An event of the large one is one event of the
small one, or leaves the view as it was. -/
section View
variable (step) (small : τ → δ → Option τ) (view : σ → τ) (event : σ → ε → Option δ)

def Follows (x y : τ) : Option δ → Prop
  | some d => small x d = some y
  | none => y = x

def Simulates : Prop := ∀ s e t, step s e = some t → Follows small (view s) (view t) (event s e)

variable {step small view event}

theorem simulatedExact (simulates : Simulates step small view event) {P : τ → Prop} {smallOk : τ → δ → Prop}
    (exact : ∀ x d y, P x → small x d = some y → (P y ↔ smallOk x d)) (s : σ) (e : ε) (t : σ)
    (good : P (view s)) (moved : step s e = some t) :
    P (view t) ↔ ∀ d ∈ event s e, smallOk (view s) d := by
  have related := simulates s e t moved
  cases seen : event s e with
  | none =>
    simp only [seen,Follows] at related
    rw [related]
    exact ⟨fun _ => nofun,fun _ => good⟩
  | some d =>
    simp only [seen,Follows] at related
    rw [exact (view s) d (view t) good related]
    exact ⟨fun safe b same => Option.some.inj same ▸ safe,fun safe => safe d rfl⟩

section Mirrored
variable {exact : ε → δ} (mirrors : ∀ s e, (step s e).map view = small (view s) (exact e))
include mirrors

theorem runMirrored (s : σ) (events : List ε) :
    (run step s events).map view = run small (view s) (events.map exact) := by
  induction events generalizing s with
  | nil => rfl
  | cons e rest ih =>
    simp only [run,List.map_cons,bind,← mirrors]
    cases step s e with
    | none => rfl
    | some t => exact ih t

theorem guardedMirrored {ok : τ → δ → Prop} {s : σ} {events : List ε}
    (guarded : Guarded small ok (view s) (events.map exact)) :
    Guarded step (fun s e => ok (view s) (exact e)) s events := by
  induction events generalizing s with
  | nil => trivial
  | cons e rest ih =>
    refine ⟨guarded.1,fun t moved => ih (guarded.2 (view t) ?_)⟩
    rw [← mirrors,moved]
    rfl

theorem throughoutMirrored {P : τ → Prop} {s : σ} {events : List ε}
    (always : Throughout small P (view s) (events.map exact)) : Throughout step (fun s => P (view s)) s events := by
  induction events generalizing s with
  | nil => exact always
  | cons e rest ih =>
    refine ⟨always.1,fun t moved => ih (always.2 (view t) ?_)⟩
    rw [← mirrors,moved]
    rfl

end Mirrored
end View
end WppGateway.Runs
