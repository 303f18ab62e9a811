import WppGateway.CancelRegistry
import WppGateway.Transitions

/-! activeJobs and the workers as a table of cancellable jobs: which runs keep every
live worker within reach of its cancel function. -/
namespace WppGateway.WorkerRegistry
open Runs Domain Gateway Transitions CancelRegistry

def job (w : Worker) : Job UUID := ⟨w.broadcast.id,w.done,w.pc == .returned⟩

def registry (g : System) : Registry UUID := ⟨g.activeJobs,g.workers.map job⟩

def callAct : Call → Option (Act UUID)
  | .pauseCancel _ handle => some (.cancel handle)
  | .pauseDelete id => some (.drop id)
  | .cancelLock id => some (.stop id)
  | .resumeStart b => some (.register b.id)
  | _ => none

def workerAct (j : Nat) (w : Worker) : Option (Act UUID) := if w.pc = .exiting then some (.finish j) else none

def act (g : System) : Event → Option (Act UUID)
  | .startBroadcast b => some (.register b.id)
  | .call k _ => g.calls[k]?.bind callAct
  | .worker j _ => g.workers[j]?.bind (workerAct j)
  | _ => none

theorem registryStart (g : System) (b : Broadcast) :
    CancelRegistry.step (registry g) (.register b.id) = some (registry (startJob g b)) := by
  simp [CancelRegistry.step,registry,startJob,job,newWorker]

theorem registryCancel (g : System) (handle : Nat) :
    cancel (registry g) handle = registry (cancelJob g handle) := by
  simp only [cancel,registry,cancelJob,Registry.mk.injEq,true_and]
  apply List.ext_getElem?
  intro k
  simp only [List.getElem?_modify,List.getElem?_map]
  cases g.workers[k]? with
  | none => rfl
  | some w =>
    simp only [Option.map_some,Option.map_eq_map]
    split <;> rfl

theorem registryStop (g : System) (id : UUID) :
    CancelRegistry.step (registry g) (.stop id) = some (registry (stopJob g id)) := by
  have entry : (registry g).entry id = g.activeJobs id := rfl
  unfold stopJob
  cases job : g.activeJobs id with
  | none => simp only [CancelRegistry.step,entry,job]
  | some handle =>
    simp only [CancelRegistry.step,entry,job,registryCancel]
    rfl

theorem registryCall {g ok c next effect} (k : Nat) (moved : callStep g ok c = some (next,effect)) :
    Follows CancelRegistry.step (registry g) (registry (perform (setCall g k next) effect)) (callAct c) := by
  cases c with
  | pauseRead id => simp only [callStep] at moved; split at moved <;> cases moved <;> rfl
  | pauseCancel id handle => cases moved; exact congrArg some (registryCancel (setCall g k (.pauseDelete id)) handle)
  | pauseDelete id => cases moved; rfl
  | pauseWrite id => cases moved; cases ok <;> rfl
  | resumeFind id =>
    simp only [callStep] at moved
    split at moved
    · cases moved; rfl
    · split at moved <;> cases moved <;> rfl
  | resumeWrite b => cases ok <;> cases moved <;> rfl
  | resumeStart b => cases moved; exact registryStart (setCall g k (.returned true)) b
  | cancelLock id => cases moved; exact registryStop (setCall g k (.cancelWrite id)) id
  | cancelWrite id => cases moved; cases ok <;> rfl
  | returned ok => cases moved

theorem jobKept {g j o w next effect} (moved : WorkerStep g j o w next effect) (stays : w.pc ≠ .exiting) :
    job next = job w ∧ area effect ≠ .jobs := by
  cases moved with
  | returns at_ => exact absurd at_ stays
  | markUnsent r rest at_ | loseUnsent r rest at_ | markSent inst r rest at_ | loseSent inst r rest at_ =>
    refine ⟨?_,nofun⟩
    simp only [job,at_,afterSend]
    split <;> rfl
  | _ at_ => exact ⟨by simp_all [job],nofun⟩

theorem registryWorker {g j o w next effect} (found : g.workers[j]? = some w)
    (moved : WorkerStep g j o w next effect) :
    Follows CancelRegistry.step (registry g) (registry (perform (setWorker g j next) effect))
      (workerAct j w) := by
  have jobs : (registry g).jobs[j]? = some (job w) := by simp [registry,found]
  obtain ⟨inside,here⟩ := List.getElem?_eq_some_iff.mp jobs
  by_cases leaves : w.pc = .exiting
  · cases moved with
    | returns at_ =>
      simp only [workerAct,leaves,if_true,Follows,CancelRegistry.step,jobs,bind,Option.bind]
      simp only [perform,dropJob,setWorker,registry,List.map_set,drop]
      rfl
    | _ => simp_all
  · obtain ⟨kept,entry⟩ := jobKept moved leaves
    simp only [workerAct,if_neg leaves,Follows,registry,jobsPerform entry (workerArea moved).1,
      workersPerform (workerArea moved).1,setWorker,List.map_set,kept]
    congr 1
    rw [← here]
    exact List.set_getElem_self inside

theorem opensAct {g : System} {e : Event} {c : Call} (call : opened e = some c) : act g e = none := by
  cases e <;> first | rfl | simp [opened] at call

theorem registrySimulates : Simulates step CancelRegistry.step registry act := by
  intro g e t moved
  cases movedSource moved with
  | starts b => exact registryStart g b
  | opens _ c call => rw [opensAct call]; exact rfl
  | call k ok c next effect found inner =>
    simp only [act,found,Option.bind_some]
    exact registryCall k inner
  | worker j o w next effect found inner =>
    simp only [act,found,Option.bind_some]
    exact registryWorker found inner
  | request k o r next effect found inner =>
    have jobs : area effect ≠ .jobs ∧ area effect ≠ .workers := by
      rcases requestArea inner with a | a | a | a <;> rw [a] <;> decide
    simp only [act,Follows,registry,jobsPerform jobs.1 jobs.2,workersPerform jobs.2]
    rfl
  | _ => rfl

def Live (g : System) (id : UUID) (j : Nat) : Prop :=
  ∃ w, g.workers[j]? = some w ∧ w.broadcast.id = id ∧ w.done = false ∧ w.pc ≠ .returned

structure Reachable (g : System) : Prop where
  one : ∀ id j k, Live g id j → Live g id k → j = k
  entry : ∀ id j, Live g id j → g.activeJobs id = some j

theorem liveRunning {g : System} {id : UUID} {j : Nat} : Running (registry g) id j ↔ Live g id j := by
  simp only [Running,registry,List.getElem?_map,Option.map_eq_some_iff,Live]
  constructor
  · intro given
    obtain ⟨_,⟨w,found,rfl⟩,key,open_,active⟩ := given
    exact ⟨w,found,key,open_,by simpa [job] using active⟩
  · intro given
    obtain ⟨w,found,key,open_,active⟩ := given
    exact ⟨job w,⟨w,found,rfl⟩,key,open_,by simpa [job] using active⟩

theorem reachableStoppable {g : System} : Stoppable (registry g) ↔ Reachable g := by
  constructor
  · intro stoppable
    exact ⟨fun id j k a b => onlyOne stoppable (liveRunning.mpr a) (liveRunning.mpr b),
      fun id j a => stoppable id j (liveRunning.mpr a)⟩
  · intro good id j running
    exact good.entry id j (liveRunning.mp running)

/- Every registration and every deletion of an entry, where it happens, is about a
broadcast without another live worker. -/
def RegistrySafe (g : System) (e : Event) : Prop := ∀ a ∈ act g e, Safe (registry g) a

instance (g : System) (e : Event) : Decidable (RegistrySafe g e) :=
  inferInstanceAs (Decidable (∀ a ∈ act g e, Safe (registry g) a))

theorem reachableStep (g : System) (e : Event) (t : System) (good : Reachable g) (moved : step g e = some t) :
    Reachable t ↔ RegistrySafe g e := by
  rw [← reachableStoppable] at good ⊢
  exact simulatedExact registrySimulates (fun _ _ _ => stoppableStep) g e t good moved

def startsOf (g : System) (e : Event) (id : UUID) : Prop := ∃ b, started g e = some b ∧ b.id = id

def stopping : Call → Option UUID
  | .pauseCancel id _ | .pauseDelete id | .pauseWrite id | .cancelWrite id => some id
  | _ => none

def Stopped (g : System) : Call → Prop
  | .pauseCancel id handle => ∀ j, Live g id j → j = handle
  | .pauseDelete id | .pauseWrite id | .cancelWrite id => ∀ j, ¬ Live g id j
  | _ => True

/- No worker is started between the locked section of a Pause or Cancel and its return. -/
def StartsOutside (g : System) (e : Event) : Prop :=
  ∀ b ∈ started g e, ∀ c ∈ g.calls, stopping c ≠ some b.id

instance (g : System) (e : Event) : Decidable (StartsOutside g e) :=
  inferInstanceAs (Decidable (∀ b ∈ started g e, ∀ c ∈ g.calls, stopping c ≠ some b.id))

structure StopSafe (g : System) (e : Event) : Prop where
  registry : RegistrySafe g e
  starts : StartsOutside g e

instance (g : System) (e : Event) : Decidable (StopSafe g e) :=
  decidable_of_iff (RegistrySafe g e ∧ StartsOutside g e) ⟨fun h => ⟨h.1,h.2⟩,fun h => ⟨h.registry,h.starts⟩⟩

structure Stopping (g : System) : Prop where
  reachable : Reachable g
  calls : ∀ c ∈ g.calls, Stopped g c

theorem liveBefore {g e t} {id : UUID} {j : Nat} (moved : step g e = some t) (live_ : Live t id j) :
    Live g id j ∨ startsOf g e id := by
  obtain ⟨w,found,key,open_,active⟩ := live_
  rcases workerOrigin (movedSource moved) found with ⟨b,starts,rfl,_⟩ | ⟨v,before,rfl | rfl⟩ |
    ⟨o,v,effect,rfl,before,inner⟩
  · exact .inr ⟨b,starts,key⟩
  · exact .inl ⟨_,before,key,open_,active⟩
  · cases open_
  · obtain ⟨broadcast,done⟩ := workerKeeps inner
    exact .inl ⟨v,before,by rw [← broadcast]; exact key,by rw [← done]; exact open_,workerActive inner⟩

theorem stoppedKept {g e t c} (moved : step g e = some t) (stopped : Stopped g c)
    (starts : ∀ id, stopping c = some id → ¬ startsOf g e id) : Stopped t c := by
  cases c with
  | pauseCancel id handle =>
    intro j live_
    rcases liveBefore moved live_ with before | new
    · exact stopped j before
    · exact absurd new (starts id rfl)
  | pauseDelete id | pauseWrite id | cancelWrite id =>
    intro j live_
    rcases liveBefore moved live_ with before | new
    · exact stopped j before
    · exact absurd new (starts id rfl)
  | _ => trivial

theorem stoppedNext {g k ok c next effect} (inv : Stopping g) (found : g.calls[k]? = some c)
    (inner : callStep g ok c = some (next,effect)) (moved : step g (.call k ok) = some (perform (setCall g k next) effect)) :
    Stopped (perform (setCall g k next) effect) next := by
  have before := inv.calls c (List.mem_of_getElem? found)
  cases c with
  | pauseRead id =>
    simp only [callStep] at inner
    split at inner
    · next handle entry =>
      cases inner
      intro j live_
      exact Option.some.inj ((inv.reachable.entry id j live_).symm.trans entry)
    · next entry =>
      cases inner
      intro j live_
      rw [inv.reachable.entry id j live_] at entry; cases entry
  | pauseCancel id handle =>
    cases inner
    intro j live_
    have running := liveRunning.mpr live_
    rw [perform,← registryCancel] at running
    obtain ⟨old,other⟩ := runningCancel.mp running
    exact other (before j (liveRunning.mp old))
  | pauseDelete id => cases inner; exact before
  | cancelLock id =>
    cases inner
    intro j live_
    have stopped := registryStop (setCall g k (.cancelWrite id)) id
    exact stopIdle (reachableStoppable.mpr inv.reachable) stopped j (liveRunning.mpr live_)
  | pauseWrite id | cancelWrite id => cases inner; trivial
  | resumeFind id =>
    simp only [callStep] at inner
    split at inner
    · cases inner; trivial
    · split at inner <;> cases inner <;> trivial
  | resumeWrite b => cases ok <;> cases inner <;> trivial
  | resumeStart b => cases inner; trivial
  | returned ok => cases inner

theorem stoppingStep (g : System) (e : Event) (t : System) (inv : Stopping g) (safe : StopSafe g e)
    (moved : step g e = some t) : Stopping t := by
  refine ⟨(reachableStep g e t inv.reachable moved).mpr safe.registry,?_⟩
  have old : ∀ c ∈ g.calls, Stopped t c := fun c member =>
    stoppedKept moved (inv.calls c member) (fun id past ⟨b,starts,same⟩ =>
      safe.starts b starts c member (by rw [past,same]))
  intro c member
  cases source : movedSource moved with
  | opens _ call opening =>
    simp only [openCall,List.mem_append,List.mem_singleton] at member
    rcases member with before | rfl
    · exact old c before
    · cases e <;> simp [opened] at opening <;> subst opening <;> trivial
  | call k ok c' next effect found inner =>
    rw [callsPerform] at member
    rcases List.mem_or_eq_of_mem_set member with before | rfl
    · exact old c before
    · exact stoppedNext inv found inner moved
  | worker j o w next effect found inner => rw [callsPerform] at member; exact old c member
  | request k o r next effect found inner => rw [callsPerform] at member; exact old c member
  | _ => exact old c member

def returnsFrom (g : System) : Event → Option UUID
  | .call k _ => match g.calls[k]? with
    | some (.pauseWrite id) | some (.cancelWrite id) => some id
    | _ => none
  | _ => none

def StaysStopped (g : System) (e : Event) (t : System) : Prop :=
  ∀ id ∈ returnsFrom g e, ∀ later u, run step t later = some u →
    Guarded step (fun s e => ¬ startsOf s e id) t later → ∀ j, ¬ Live u id j

theorem returnsStopped {g e id} (inv : Stopping g) (returns : returnsFrom g e = some id) :
    (∀ j, ¬ Live g id j) ∧ ¬ startsOf g e id := by
  cases e with
  | call k ok =>
    simp only [returnsFrom] at returns
    split at returns <;> cases returns
    all_goals
      rename_i found
      refine ⟨inv.calls _ (List.mem_of_getElem? found),?_⟩
      intro given
      obtain ⟨b,starts,_⟩ := given
      simp only [started,found] at starts
      cases starts
  | _ => cases returns

theorem staysStopped (g : System) (e : Event) (t : System) (inv : Stopping g)
    (moved : step g e = some t) : StaysStopped g e t := by
  intro id returns later u ran none_
  obtain ⟨idle,quiet⟩ := returnsStopped inv returns
  have next : ∀ j, ¬ Live t id j := fun j live_ => (liveBefore moved live_).elim (idle j) quiet
  have kept : ∀ s e t, (∀ j, ¬ Live s id j) → ¬ startsOf s e id → step s e = some t → ∀ j, ¬ Live t id j :=
    fun s e t idle quiet moved j live_ => (liveBefore moved live_).elim (idle j) quiet
  exact guardedRun kept next none_ ran

theorem stoppingStart {g : System} (fresh : Fresh g) : Stopping g := by
  have none_ : ∀ id j, ¬ Live g id j := by
    rintro id j ⟨w,found,_⟩
    rw [fresh.workers] at found; cases found
  exact ⟨⟨fun id j _ a => absurd a (none_ id j),fun id j a => absurd a (none_ id j)⟩,
    by simp [fresh.calls]⟩

/-- A run keeps every live worker within reach exactly when each of its steps is
safe; where no start falls inside a Pause or Cancel, these leave no live worker. -/
theorem registryRun {g : System} {events : List Event} {t : System} (fresh : Fresh g)
    (ran : run step g events = some t) :
    (Throughout step Reachable g events ↔ Guarded step RegistrySafe g events) ∧
    (Guarded step StopSafe g events → EveryStep step StaysStopped g events) :=
  ⟨exactGuard (fun g e t good moved => reachableStep g e t good moved) (stoppingStart fresh).reachable ran,
    fun safe => guardedSteps stoppingStep (fun g e t inv _ moved => staysStopped g e t inv moved)
      (stoppingStart fresh) safe⟩

def isReturned : Call → Bool
  | .returned ok => ok
  | _ => false

def pauseThenResume : List Event :=
  .startBroadcast (sampleBroadcast 1)::works 0 3 accepts ++ .pauseBroadcast 21::calls 0 4 ++ works 0 2 accepts ++
    .resumeBroadcast 21::calls 1 3 ++ works 1 3 accepts

theorem pauseThenResumeRun :
    Throughout step Reachable (boot (sampleTables [31])) pauseThenResume ∧
    EveryStep step StaysStopped (boot (sampleTables [31])) pauseThenResume := by
  have some_ : (run step (boot (sampleTables [31])) pauseThenResume).isSome = true := by decide +kernel
  obtain ⟨t,ran⟩ := Option.isSome_iff_exists.mp some_
  have exact_ := registryRun (freshBoot _) ran
  exact ⟨exact_.1.mpr (guardedChecks (by decide +kernel)),exact_.2 (guardedChecks (by decide +kernel))⟩

def resumeActive : List Event :=
  .startBroadcast (sampleBroadcast 1)::.resumeBroadcast 21::calls 0 3 ++ .cancelBroadcast 21::calls 1 2

theorem resumeLosesWorker :
    Fresh (boot (sampleTables [31])) ∧ ¬ Throughout step Reachable (boot (sampleTables [31])) resumeActive ∧
    ∃ t, run step (boot (sampleTables [31])) resumeActive = some t ∧ t.calls.all isReturned = true ∧
      Live t 21 0 := by
  have ends : (run step (boot (sampleTables [31])) resumeActive).map (fun t =>
      (t.calls.all isReturned,t.activeJobs 21,t.workers.map (fun w => (w.broadcast.id,w.done,w.pc)))) =
      some (true,none,[(21,false,.markStarted),(21,true,.markStarted)]) := by decide +kernel
  obtain ⟨t,ran,values⟩ := Option.map_eq_some_iff.mp ends
  simp only [Prod.mk.injEq] at values
  obtain ⟨returned,entry,workers⟩ := values
  have live_ : Live t 21 0 := by
    obtain ⟨w,rest,split_,value,_⟩ := List.map_eq_cons_iff.mp workers
    simp only [Prod.mk.injEq] at value
    exact ⟨w,by rw [split_]; rfl,value.1,value.2.1,by rw [value.2.2]; nofun⟩
  refine ⟨freshBoot _,fun always => ?_,t,ran,returned,live_⟩
  have found := (throughoutEnd always ran).entry 21 0 live_
  rw [entry] at found; cases found

end WppGateway.WorkerRegistry
