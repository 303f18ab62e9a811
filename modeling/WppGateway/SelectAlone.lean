import WppGateway.HeldRows

/-! SelectInstance without a step of another process between its reads, and a worker
that calls it so. -/
namespace WppGateway.SelectAlone
open Runs GoJson Domain Store Selection Gateway Transitions HeldRows

def Uses (g : System) (groupId : UUID) (s : Strategy) : Prop :=
  g.strategies groupId = some s ∨ (g.strategies groupId = none ∧ ∃ group,
    findGroup g.store groupId = some group ∧ newStrategy group.strategy = .ok s)

structure Selects (g : System) (groupId : UUID) (o : Oracle) (inst : Instance) : Prop where
  running : g.paused groupId = false
  answered : o.ok = true
  listing : Listing g.store groupId o.listing
  chosen : ∃ s, Uses g groupId s ∧ strategySelect s (o.listing.filter (fun i => o.connected i.id)) = .ok inst

def Reached (g u : System) (groupId : UUID) : Selecting → Prop
  | .pauseCheck => u.strategies = g.strategies
  | .lookup => g.paused groupId = false ∧ u.strategies = g.strategies
  | .group => g.paused groupId = false ∧ g.strategies groupId = none
  | .cache s | .listing s => g.paused groupId = false ∧ Uses g groupId s

def inSelection : Pc → Bool
  | .selecting _ _ _ => true
  | _ => false

theorem selectReached {g u : System} {groupId : UUID} {sel : Selecting} (alive : Bool) (o : Oracle)
    (store : u.store = g.store) (paused : u.paused = g.paused) (reached : Reached g u groupId sel) :
    match selectStep u groupId alive o sel with
    | some (.next next) => Reached g u groupId next
    | some (.cached s) => Reached g u groupId (.listing s)
    | some (.chose inst) => o.ok = true → Selects g groupId o inst
    | _ => True := by
  cases selected : selectStep u groupId alive o sel with
  | none => trivial
  | some result =>
    cases selectStepSource selected with
    | running running => exact ⟨paused ▸ running,reached⟩
    | known s cached =>
      rw [reached.2] at cached
      exact ⟨reached.1,.inl cached⟩
    | misses uncached =>
      rw [reached.2] at uncached
      exact ⟨reached.1,uncached⟩
    | made group s answered found made =>
      rw [store] at found
      exact ⟨reached.1,.inr ⟨reached.2,group,found,made⟩⟩
    | caches s => exact reached
    | chosen s inst answered listing some_ chosen =>
      rw [store] at listing
      exact fun answered => ⟨reached.1,answered,listing,s,reached.2,chosen⟩
    | _ => trivial

def Asking (g u : System) (groupId : UUID) (o : Oracle) : Pc → Prop
  | .selecting sel _ _ => Reached g u groupId sel
  | .sending inst _ _ _ => Selects g groupId o inst
  | _ => True

structure Alone (g : System) (j : Nat) (o : Oracle) (b : Broadcast) (u : System) : Prop where
  store : u.store = g.store
  paused : u.paused = g.paused
  worker : ∃ v, u.workers[j]? = some v ∧ v.broadcast = b ∧ Asking g u b.groupId o v.pc

def StillSelects (j : Nat) (g : System) (_ : Event) : Prop :=
  (g.workers[j]?).any (fun w => inSelection w.pc) = true

instance (j : Nat) (g : System) (e : Event) : Decidable (StillSelects j g e) :=
  inferInstanceAs (Decidable (_ = true))

theorem aloneStep {g u t : System} {j : Nat} {o : Oracle} {b : Broadcast} (inv : Alone g j o b u)
    (selects : StillSelects j u (.worker j o)) (moved : step u (.worker j o) = some t) : Alone g j o b t := by
  obtain ⟨v,found,own,asking⟩ := inv.worker
  simp only [StillSelects,found,Option.any_some] at selects
  cases movedSource moved with
  | opens e c call => cases call
  | worker j o v' next effect here inner =>
    cases Option.some.inj (found.symm.trans here)
    have after := workerAfter found inner j
    rw [if_pos rfl] at after
    cases inner with
    | selectNext sel next r rest at_ selected =>
      rw [at_] at asking
      have leads := selectReached (live o v) o inv.store inv.paused asking
      rw [own] at selected
      rw [selected] at leads
      exact ⟨inv.store,inv.paused,_,after,own,by cases next <;> exact leads⟩
    | selectCached sel s r rest at_ selected =>
      rw [at_] at asking
      have leads := selectReached (live o v) o inv.store inv.paused asking
      rw [own] at selected
      rw [selected] at leads
      exact ⟨inv.store,inv.paused,_,after,own,leads⟩
    | selectFailed sel e r rest at_ selected => exact ⟨inv.store,inv.paused,_,after,own,trivial⟩
    | selectChose sel inst r rest at_ selected order =>
      rw [at_] at asking
      have leads := selectReached (live o v) o inv.store inv.paused asking
      obtain ⟨_,_,alive,_⟩ := selectChose selected
      rw [own] at selected
      rw [selected] at leads
      exact ⟨inv.store,inv.paused,_,after,own,leads (liveIff.mp alive).1⟩
    | _ => simp_all [inSelection]

theorem aloneRun {g u t : System} {j n : Nat} {o : Oracle} {b : Broadcast} (inv : Alone g j o b u)
    (selects : Guarded step (StillSelects j) u (works j n o)) (ran : run step u (works j n o) = some t) :
    Alone g j o b t := by
  induction n generalizing u with
  | zero => cases Option.some.inj ran; exact inv
  | succ n ih =>
    obtain ⟨m,moved,later⟩ := runCons ran
    exact ih (aloneStep inv selects.1 moved) (selects.2 m moved) later

theorem workerSelects {g t : System} {j n : Nat} {o : Oracle} {w v : Worker} {r q : BroadcastRecipient}
    {rest left : List BroadcastRecipient} {inst : Instance} {sent : GoString} (found : g.workers[j]? = some w)
    (asks : w.pc = .selecting .pauseCheck r rest) (selects : Guarded step (StillSelects j) g (works j n o))
    (ran : run step g (works j n o) = some t) (chose : t.workers[j]? = some v)
    (sends : v.pc = .sending inst sent q left) :
    v.broadcast = w.broadcast ∧ Selects g w.broadcast.groupId o inst := by
  have start : Alone g j o w.broadcast g := ⟨rfl,rfl,w,found,rfl,by rw [asks]; exact rfl⟩
  obtain ⟨v',here,same,asking⟩ := (aloneRun start selects ran).worker
  cases Option.some.inj (chose.symm.trans here)
  rw [sends] at asking
  exact ⟨same,asking⟩

end WppGateway.SelectAlone
