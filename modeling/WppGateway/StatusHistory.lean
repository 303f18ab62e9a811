import WppGateway.Transitions

/-! The status column of the broadcasts under every writer. No statement looks at the
status it overwrites, so finality depends on when the writers run. -/
namespace WppGateway.StatusHistory
open Runs Domain Store Table Gateway Transitions

def statuses (g : System) : List (UUID × BroadcastStatus) := g.store.broadcasts.map (fun b => (b.id,b.status))

def overwrite (column : List (UUID × BroadcastStatus)) :
    Option (UUID × BroadcastStatus) → List (UUID × BroadcastStatus)
  | none => column
  | some p => update Prod.fst p.1 (fun _ => p) column

def effectStatus : Effect → Option (UUID × BroadcastStatus)
  | .markStarted id => some (id,.processing)
  | .markCompleted id => some (id,.completed)
  | .updateStatus id status => some (id,status)
  | _ => none

def statusWritten (g : System) : Event → Option (UUID × BroadcastStatus)
  | .call k ok => do
    let c ← g.calls[k]?
    let (_,effect) ← callStep g ok c
    effectStatus effect
  | .worker j o => do
    let w ← g.workers[j]?
    let (_,effect) ← workerStep g j o w
    effectStatus effect
  | _ => none

theorem statusesKept (g : System) (id : UUID) (f : Broadcast → Broadcast)
    (kept : ∀ b, ((f b).id,(f b).status) = (b.id,b.status)) :
    statuses (write g (updateBroadcast g.store id f)) = statuses g := by
  simp only [statuses,write,updateBroadcast,update,List.map_map]
  apply List.map_congr_left
  intro b _
  simp only [Function.comp_apply]
  split
  · exact kept b
  · rfl

theorem statusesSet (g : System) (id : UUID) (status : BroadcastStatus) :
    statuses (write g (updateStatus g.store id status)) = overwrite (statuses g) (some (id,status)) := by
  simp only [statuses,write,updateStatus,updateBroadcast,overwrite,update,List.map_map]
  apply List.map_congr_left
  intro b _
  simp only [Function.comp_apply]
  split
  · next here => rw [here]
  · rfl

theorem statusesPerform (g : System) (effect : Effect) :
    statuses (perform g effect) = overwrite (statuses g) (effectStatus effect) := by
  cases effect with
  | markStarted id => exact statusesSet g id .processing
  | markCompleted id => exact statusesSet g id .completed
  | updateStatus id status => exact statusesSet g id status
  | updateProgress id sent failed => exact statusesKept g id _ (fun _ => rfl)
  | createMessage m => exact congrArg (List.map _) (createMessageFrame g.store m).2.1
  | stopJob id => exact congrArg (fun s => List.map _ (Tables.broadcasts s)) (stopJobFrame g id).1
  | _ => rfl

theorem requestStatus {g k o r next effect} (moved : requestStep g k o r = some (next,effect)) :
    effectStatus effect = none := by
  rcases requestArea moved with a | a | a | a <;> cases effect <;> first | rfl | cases a

theorem statusesAfter {g e t} (moved : step g e = some t) :
    statuses t = overwrite (statuses g) (statusWritten g e) := by
  cases e with
  | call k ok =>
    simp only [step,bind,Option.bind_eq_some_iff] at moved
    obtain ⟨c,found,⟨next,effect⟩,inner,moved⟩ := moved
    cases moved
    simp only [statusWritten,found,inner,bind,Option.bind]
    exact statusesPerform _ effect
  | worker j o =>
    simp only [step,bind,Option.bind_eq_some_iff] at moved
    obtain ⟨w,found,⟨next,effect⟩,inner,moved⟩ := moved
    cases moved
    simp only [statusWritten,found,inner,bind,Option.bind]
    exact statusesPerform _ effect
  | request k o =>
    simp only [step,bind,Option.bind_eq_some_iff] at moved
    obtain ⟨r,found,⟨next,effect⟩,inner,moved⟩ := moved
    cases moved
    rw [statusesPerform,requestStatus inner]
    rfl
  | _ => cases moved; rfl

theorem workerWrites {g : System} {j : Nat} {o : Oracle} {p : UUID × BroadcastStatus}
    (written : statusWritten g (.worker j o) = some p) :
    ∃ w, g.workers[j]? = some w ∧ live o w = true ∧ w.broadcast.id = p.1 ∧
      ((w.pc = .markStarted ∧ p.2 = .processing) ∨ (w.pc = .markCompleted ∧ p.2 = .completed)) := by
  simp only [statusWritten,bind,Option.bind_eq_some_iff] at written
  obtain ⟨w,found,⟨next,effect⟩,inner,written⟩ := written
  refine ⟨w,found,?_⟩
  cases workerStepSource inner with
  | started at_ answered => cases written; exact ⟨answered,rfl,.inl ⟨at_,rfl⟩⟩
  | completes at_ answered => cases written; exact ⟨answered,rfl,.inr ⟨at_,rfl⟩⟩
  | _ => cases written

def final : BroadcastStatus → Bool
  | .completed | .cancelled => true
  | _ => false

def finalIn (g : System) (id : UUID) : Bool := (statuses g).any (fun p => p.1 == id && final p.2)

def leaving : Pc → Bool
  | .exiting | .returned => true
  | _ => false

def callWritten (g : System) : Event → Option (UUID × BroadcastStatus)
  | .call k ok => statusWritten g (.call k ok)
  | _ => none

/- Pause and Resume write, and a worker is started, only while the status is not final. -/
def LeavesFinal (g : System) (e : Event) : Prop :=
  (∀ b ∈ started g e, finalIn g b.id = false) ∧
  ∀ p ∈ callWritten g e, p.2 ≠ .cancelled → finalIn g p.1 = false

/- Cancel writes after completion never, and only when no uncancelled worker is left. -/
def CancelsLast (g : System) (e : Event) : Prop :=
  ∀ p ∈ callWritten g e, p.2 = .cancelled → (p.1,BroadcastStatus.completed) ∉ statuses g ∧
    ∀ w ∈ g.workers, w.broadcast.id = p.1 → w.done = true ∨ leaving w.pc = true

/- A worker completes only when no other uncancelled worker has yet to mark the start. -/
def CompletesLast (g : System) (e : Event) : Prop :=
  ∀ m ∈ mover g e, m.1.pc = .markCompleted → live m.2 m.1 = true →
    ∀ w ∈ g.workers, w.broadcast.id = m.1.broadcast.id → w.done = true ∨ w.pc ≠ .markStarted

def StatusSafe (g : System) (e : Event) : Prop := LeavesFinal g e ∧ CancelsLast g e ∧ CompletesLast g e

instance (g : System) (e : Event) : Decidable (StatusSafe g e) := by
  unfold StatusSafe LeavesFinal CancelsLast CompletesLast
  infer_instance

def KeepsFinal (g : System) (_ : Event) (t : System) : Prop :=
  ∀ p ∈ statuses g, final p.2 = true → ∀ q ∈ statuses t, q.1 = p.1 → q.2 = p.2

structure Finality (g : System) : Prop where
  keys : Distinct Prod.fst (statuses g)
  cancelled : ∀ w ∈ g.workers, (w.broadcast.id,BroadcastStatus.cancelled) ∈ statuses g →
    w.done = true ∨ leaving w.pc = true
  completed : ∀ w ∈ g.workers, (w.broadcast.id,BroadcastStatus.completed) ∈ statuses g →
    w.done = true ∨ w.pc ≠ .markStarted

theorem notFinal {g : System} {id : UUID} (open_ : finalIn g id = false) {st : BroadcastStatus}
    (ends : final st = true) : (id,st) ∉ statuses g := by
  intro member
  have all := List.any_eq_false.mp open_ (id,st) member
  simp [ends] at all

theorem writeAgrees {g : System} {e : Event} {p q : UUID × BroadcastStatus} (inv : Finality g)
    (safe : StatusSafe g e) (written : statusWritten g e = some p) (member : q ∈ statuses g)
    (ends : final q.2 = true) (same : q.1 = p.1) : q.2 = p.2 := by
  obtain ⟨⟨_,calls⟩,cancels,_⟩ := safe
  obtain ⟨id,st⟩ := q
  cases same
  cases e with
  | call k ok =>
    by_cases cancel : p.2 = .cancelled
    · have never := (cancels p written cancel).1
      cases st with
      | cancelled => exact cancel.symm
      | completed => exact absurd member never
      | _ => cases ends
    · exact absurd member (notFinal (calls p written cancel) ends)
  | worker j o =>
    obtain ⟨w,found,alive,id,at_⟩ := workerWrites written
    have here := List.mem_of_getElem? found
    have open_ := (liveIff.mp alive).2
    cases st with
    | cancelled =>
      have gone := inv.cancelled w here (by rw [id]; exact member)
      rcases at_ with ⟨pc,_⟩ | ⟨pc,_⟩ <;> simp [open_,pc,leaving] at gone
    | completed =>
      rcases at_ with ⟨pc,_⟩ | ⟨_,value⟩
      · have gone := inv.completed w here (by rw [id]; exact member)
        simp [open_,pc] at gone
      · exact value.symm
    | _ => cases ends
  | _ => cases written

theorem keepsFinal {g e t} (inv : Finality g) (safe : StatusSafe g e) (moved : step g e = some t) :
    KeepsFinal g e t := by
  intro p member ends q after same
  rw [statusesAfter moved] at after
  -- keys are distinct, so the row found after the step is the one that was final before it
  cases written : statusWritten g e with
  | none =>
    rw [written] at after
    exact congrArg Prod.snd (sameRow inv.keys after member same)
  | some w =>
    rw [written] at after
    obtain ⟨old,before,rfl⟩ := memUpdate.mp after
    by_cases here : old.1 = w.1
    · rw [if_pos here] at same ⊢
      exact (writeAgrees inv safe written member ends same.symm).symm
    · rw [if_neg here] at same ⊢
      exact congrArg Prod.snd (sameRow inv.keys before member same)

theorem statusSource {g e t} (moved : step g e = some t) {p : UUID × BroadcastStatus}
    (after : p ∈ statuses t) : p ∈ statuses g ∨ statusWritten g e = some p := by
  rw [statusesAfter moved] at after
  cases written : statusWritten g e with
  | none => rw [written] at after; exact .inl after
  | some w =>
    rw [written] at after
    obtain ⟨old,before,rfl⟩ := memUpdate.mp after
    by_cases here : old.1 = w.1
    · exact .inr (by rw [if_pos here])
    · exact .inl (by rw [if_neg here]; exact before)

theorem statusKeys {g e t} (keys : Distinct Prod.fst (statuses g)) (moved : step g e = some t) :
    Distinct Prod.fst (statuses t) := by
  rw [statusesAfter moved]
  cases statusWritten g e with
  | none => exact keys
  | some w =>
    simp only [overwrite,Distinct,update,List.map_map]
    have same : (Prod.fst ∘ fun row : UUID × BroadcastStatus => if row.1 = w.1 then w else row) = Prod.fst := by
      funext row
      simp only [Function.comp_apply]
      split
      · next here => exact here.symm
      · rfl
    rw [same]
    exact keys

theorem workerSource {g e t} (moved : step g e = some t) {w : Worker} (after : w ∈ t.workers) :
    (∃ b, started g e = some b ∧ w.broadcast = b) ∨
    ∃ v ∈ g.workers, w.broadcast = v.broadcast ∧ (v.done = true → w.done = true) ∧
      (leaving v.pc = true → leaving w.pc = true) ∧ (w.pc = .markStarted → v.pc = .markStarted) := by
  obtain ⟨k,found⟩ := List.mem_iff_getElem?.mp after
  rcases workerOrigin (movedSource moved) found with ⟨b,starts,rfl,_⟩ | ⟨v,before,rfl | rfl⟩ |
    ⟨o,v,effect,rfl,before,inner⟩
  · exact .inl ⟨b,starts,rfl⟩
  · exact .inr ⟨_,List.mem_of_getElem? before,rfl,id,id,id⟩
  · exact .inr ⟨v,List.mem_of_getElem? before,rfl,fun _ => rfl,id,id⟩
  · obtain ⟨broadcast,done⟩ := workerKeeps inner
    refine .inr ⟨v,List.mem_of_getElem? before,broadcast,fun d => by rw [done]; exact d,?_,?_⟩
    · intro left
      cases inner <;> simp_all [leaving]
    · intro first
      cases inner <;> simp_all [afterSend] <;> split at first <;> cases first

theorem callWrites {g : System} {k : Nat} {ok : Bool} {p : UUID × BroadcastStatus}
    (written : statusWritten g (.call k ok) = some p) :
    p.2 ≠ .completed ∧ started g (.call k ok) = none := by
  simp only [statusWritten,bind,Option.bind_eq_some_iff] at written
  obtain ⟨c,found,⟨next,effect⟩,inner,written⟩ := written
  cases effect with
  | updateStatus id st =>
    cases written
    cases c with
    | pauseRead id => simp only [callStep] at inner; split at inner <;> cases inner
    | pauseWrite id => cases ok <;> cases inner; exact ⟨fun same => (by cases same),by simp only [started,found]⟩
    | resumeFind id =>
      simp only [callStep] at inner
      split at inner
      · cases inner
      · split at inner <;> cases inner
    | resumeWrite b => cases ok <;> cases inner; exact ⟨fun same => (by cases same),by simp only [started,found]⟩
    | cancelWrite id => cases ok <;> cases inner; exact ⟨fun same => (by cases same),by simp only [started,found]⟩
    | _ => cases inner
  | markStarted | markCompleted =>
    rcases callArea inner with a | a | a | a <;> cases a
    cases c <;> simp only [callStep] at inner <;> (repeat' split at inner) <;> cases inner
  | _ => cases written

theorem startedNotFinal {g e t} (safe : StatusSafe g e) (moved : step g e = some t) {b : Broadcast}
    (starts : started g e = some b) {st : BroadcastStatus} (ends : final st = true) : (b.id,st) ∉ statuses t := by
  intro member
  rcases statusSource moved member with old | written
  · exact notFinal (safe.1.1 b starts) ends old
  · cases e with
    | call k ok => rw [(callWrites written).2] at starts; cases starts
    | _ => cases starts <;> cases written

theorem finalityStep (g : System) (e : Event) (t : System) (inv : Finality g) (safe : StatusSafe g e)
    (moved : step g e = some t) : Finality t := by
  refine ⟨statusKeys inv.keys moved,?_,?_⟩
  · intro w after held_
    rcases workerSource moved after with ⟨b,starts,rfl⟩ | ⟨v,before,broadcast,done,left,_⟩
    · exact absurd held_ (startedNotFinal safe moved starts rfl)
    · have gone : v.done = true ∨ leaving v.pc = true := by
        rcases statusSource moved held_ with old | written
        · exact inv.cancelled v before (by rw [← broadcast]; exact old)
        · cases e with
          | call k ok => exact (safe.2.1 _ written rfl).2 v before (congrArg Broadcast.id broadcast.symm)
          | worker j o =>
            obtain ⟨_,_,_,_,⟨_,value⟩ | ⟨_,value⟩⟩ := workerWrites written <;> cases value
          | _ => cases written
      exact gone.imp done left
  · intro w after held_
    rcases workerSource moved after with ⟨b,starts,rfl⟩ | ⟨v,before,broadcast,done,_,first⟩
    · exact absurd held_ (startedNotFinal safe moved starts rfl)
    · have gone : v.done = true ∨ v.pc ≠ .markStarted := by
        rcases statusSource moved held_ with old | written
        · exact inv.completed v before (by rw [← broadcast]; exact old)
        · cases e with
          | call k ok => exact absurd rfl (callWrites written).1
          | worker j o =>
            obtain ⟨u,found,alive,id,⟨_,value⟩ | ⟨pc,_⟩⟩ := workerWrites written
            · cases value
            · exact safe.2.2 (u,o) (moverFound found o) pc alive v before (by rw [id,broadcast])
          | _ => cases written
      exact gone.imp done (fun other same => other (first same))

/-- In a run whose steps are all safe no final status is ever replaced. -/
theorem finalRun {g : System} {events : List Event} (fresh : Fresh g)
    (keys : Distinct Broadcast.id g.store.broadcasts) (safe : Guarded step StatusSafe g events) :
    EveryStep step KeepsFinal g events := by
  have start : Finality g := by
    refine ⟨?_,by simp [fresh.workers],by simp [fresh.workers]⟩
    simpa [Distinct,statuses,Function.comp_def] using keys
  exact guardedSteps finalityStep (fun _ _ _ inv ok moved => keepsFinal inv ok moved) start safe

def pausedThenCompleted : List Event :=
  .startBroadcast (sampleBroadcast 1)::works 0 3 accepts ++ .pauseBroadcast 21::calls 0 4 ++ works 0 2 accepts ++
    .resumeBroadcast 21::calls 1 3 ++ works 1 17 accepts

theorem pausedThenCompletedRun :
    EveryStep step KeepsFinal (boot (sampleTables [31])) pausedThenCompleted :=
  finalRun (freshBoot _) (by decide) (guardedChecks (by decide +kernel))

def pauseCompleted : List Event :=
  .startBroadcast (sampleBroadcast 1)::works 0 17 accepts ++ .pauseBroadcast 21::calls 0 1

theorem pauseReopens :
    Fresh (boot (sampleTables [31])) ∧ Distinct Broadcast.id (sampleTables [31]).broadcasts ∧
    (run step (boot (sampleTables [31])) pauseCompleted).map statuses = some [(21,.completed)] ∧
    (run step (boot (sampleTables [31])) (pauseCompleted ++ [.call 0 true])).map statuses = some [(21,.paused)] ∧
    ¬ EveryStep step KeepsFinal (boot (sampleTables [31])) (pauseCompleted ++ [.call 0 true]) := by
  have before : (run step (boot (sampleTables [31])) pauseCompleted).map statuses = some [(21,.completed)] := by
    decide +kernel
  have after : (run step (boot (sampleTables [31])) (pauseCompleted ++ [.call 0 true])).map statuses =
      some [(21,.paused)] := by decide +kernel
  refine ⟨freshBoot _,by decide,before,after,fun every => ?_⟩
  obtain ⟨t,ran,ends⟩ := Option.map_eq_some_iff.mp after
  obtain ⟨m,reached,kept⟩ := everyStepLast every ran
  rw [reached,Option.map_some,Option.some.injEq] at before
  have same := kept (21,.completed) (by simp [before]) rfl (21,.paused) (by simp [ends]) rfl
  cases same

end WppGateway.StatusHistory
