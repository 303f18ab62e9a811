import WppGateway.HeldRows

/-! What is still handed to WhatsApp after a stop: through instances that have left the pool, by a worker whose context
is done, and for a group that is paused. Other requests write to the tables whatever they like in between. -/
namespace WppGateway.InFlight
open Domain Store Table Selection Gateway Transitions HeldRows Runs

inductive Event where
  | gateway (e : Gateway.Event)
  | elsewhere (s : Tables)

def step (g : System) : Event → Option System
  | .gateway e => Gateway.step g e
  | .elsewhere s => some (Gateway.write g s)

/- None of the instances is available, or is there at all. -/
def Retired (p : UUID → Bool) (g : System) : Prop := ∀ i ∈ g.store.instances, p i.id = true → i.status ≠ .available

def through (p : UUID → Bool) (g : System) : Nat := g.sends.countP (fun call => p call.instanceId)

def holds (p : UUID → Bool) : Pc → Bool
  | .sending inst _ _ _ => p inst.id
  | _ => false

def workerHolds (p : UUID → Bool) (w : Worker) : Bool := holds p w.pc

def requestHolds (p : UUID → Bool) : Request → Bool
  | .logging inst _ _ => p inst.id
  | .sending inst _ _ _ => p inst.id
  | _ => false

def holding (p : UUID → Bool) (g : System) : Nat := g.workers.countP (workerHolds p) + g.requests.countP (requestHolds p)

def handed (p : UUID → Bool) : Effect → Nat
  | .send call => if p call.instanceId then 1 else 0
  | _ => 0

section Retired
variable {p : UUID → Bool} {g t : System}

theorem throughPerform (p : UUID → Bool) (g : System) (effect : Effect) :
    through p (perform g effect) = through p g + handed p effect := by
  by_cases sends : area effect = .sends
  · cases effect with
    | send call => simp only [through,perform,handed,List.countP_append,List.countP_singleton]
    | _ => cases sends
  · have none_ : handed p effect = 0 := by
      cases effect with
      | send call => exact absurd rfl sends
      | _ => rfl
    rw [through,sendsPerform sends,none_]
    rfl

theorem chosenOutside {groupId : UUID} {alive : Bool} {o : Oracle} {sel : Selecting} {inst : Instance} (retired : Retired p g)
    (selected : selectStep g groupId alive o sel = some (.chose inst)) : p inst.id = false := by
  obtain ⟨_,_,_,listing,chosen⟩ := selectChose selected
  have listed := (List.mem_filter.mp (selectMember chosen)).1
  obtain ⟨inside,passes⟩ := List.mem_filter.mp (listing.1.mem_iff.mp listed)
  simp only [Bool.and_eq_true,beq_iff_eq] at passes
  cases held : p inst.id with
  | false => rfl
  | true => exact absurd (by tauto) (retired inst inside held)

theorem holdsAfter (p : UUID → Bool) (sent failed : Int) (rest : List BroadcastRecipient) :
    holds p (afterSend sent failed rest) = false := by
  unfold afterSend
  split <;> rfl

theorem workerHands {j : Nat} {o : Oracle} {w next : Worker} {effect : Effect} (retired : Retired p g)
    (moved : WorkerStep g j o w next effect) :
    handed p effect + (if workerHolds p next then 1 else 0) ≤ (if workerHolds p w then 1 else 0) := by
  cases moved with
  | selectChose sel inst r rest at_ selected order => simp [workerHolds,holds,handed,chosenOutside retired selected]
  | delivers inst text r rest at_ | refused inst text r rest at_ => simp [workerHolds,holds,handed,at_]
  | markUnsent | loseUnsent | markSent | loseSent => simp [workerHolds,holdsAfter,handed]
  | _ at_ => simp_all [workerHolds,holds,handed]

theorem requestHands {k : Nat} {o : Oracle} {r next : Request} {effect : Effect} (retired : Retired p g)
    (moved : requestStep g k o r = some (next,effect)) :
    handed p effect + (if requestHolds p next then 1 else 0) ≤ (if requestHolds p r then 1 else 0) := by
  cases r with
  | received r =>
    cases moved
    rcases checkSendSource g o.ok r with ⟨_,same⟩ | ⟨_,_,same⟩ <;> rw [same] <;> simp [requestHolds,handed]
  | selecting sel groupId input =>
    simp only [requestStep] at moved
    split at moved <;> cases moved
    · simp [requestHolds,handed]
    · simp [requestHolds,handed]
    · simp [requestHolds,handed]
    · next inst selected => simp [requestHolds,handed,chosenOutside retired selected]
  | logging inst groupId input =>
    simp only [requestStep] at moved
    split at moved <;> cases moved
    · rcases checkContentSource inst o.freshId input with ⟨_,same⟩ | ⟨_,same⟩ <;> rw [same]
      · simp [requestHolds,handed]
      · exact Nat.le_of_eq (Nat.zero_add _)
    · simp [requestHolds,handed]
  | sending inst log input text =>
    cases moved
    cases o.ok <;> exact Nat.le_refl _
  | updateFailed log message =>
    cases moved
    cases o.ok <;> simp [requestHolds,handed]
  | updateSent inst log =>
    cases moved
    cases o.ok <;> simp [requestHolds,handed]
  | answered response => cases moved

theorem outsideHolds {e : Gateway.Event} (outside : Outside g e t) :
    t.workers.countP (workerHolds p) = g.workers.countP (workerHolds p) := by
  rcases outside.workers with same | ⟨handle,modified⟩ | ⟨b,_,added⟩
  · rw [same]
  · rw [modified,countModify (f := Worker.cancel) (fun _ => rfl)]
  · rw [added,List.countP_append]
    rfl

theorem retiredStep (e : Event) (retired : Retired p g) (moved : step g e = some t) :
    through p t + holding p t ≤ through p g + holding p g := by
  cases e with
  | elsewhere s => cases moved; exact Nat.le_refl _
  | gateway e =>
    cases movedSource moved with
    | starts b =>
      have same : (startJob g b).workers.countP (workerHolds p) = g.workers.countP (workerHolds p) := by
        simp only [startJob,List.countP_append]; rfl
      simp only [holding,same]
      exact Nat.le_refl _
    | opens e c call => exact Nat.le_refl _
    | call k ok c next effect found inner =>
      have outside := callOutside found inner
      have areas := callArea inner
      have sends : area effect ≠ .sends := by rcases areas with a | a | a | a <;> rw [a] <;> decide
      simp only [holding,outsideHolds outside,requestsPerform,through,sendsPerform sends]
      exact Nat.le_refl _
    | worker j o w next effect found inner =>
      have hands := workerHands retired inner
      have counted := countSet (b := next) found (workerHolds p)
      rw [throughPerform]
      simp only [holding,requestsPerform,workersPerform (workerArea inner).1]
      change g.sends.countP _ + _ + ((g.workers.set j next).countP _ + _) ≤ g.sends.countP _ + _
      simp only [setWorker]
      omega
    | send r =>
      have same : (g.requests ++ [Request.received r]).countP (requestHolds p) = g.requests.countP (requestHolds p) := by
        rw [List.countP_append]; rfl
      simp only [holding,same]
      exact Nat.le_refl _
    | request k o r next effect found inner =>
      have hands := requestHands retired inner
      have counted := countSet (b := next) found (requestHolds p)
      have areas := requestArea inner
      rw [throughPerform]
      simp only [holding,requestsPerform,
        workersPerform (show area effect ≠ .workers by rcases areas with a | a | a | a <;> rw [a] <;> decide)]
      change g.sends.countP _ + _ + (_ + (g.requests.set k next).countP _) ≤ g.sends.countP _ + _
      simp only [setRequest]
      omega
    | pauses id => exact Nat.le_refl _
    | resumes id => exact Nat.le_refl _
    | status id st => exact Nat.le_refl _

end Retired

def ofWorker (j : Nat) : Origin → Bool
  | .worker i _ => i == j
  | .request _ => false

def ofRequest (k : Nat) : Origin → Bool
  | .worker _ _ => false
  | .request i => i == k

def sentBy (of : Origin → Bool) (g : System) : Nat := g.sends.countP (fun call => of call.origin)

def sends : Effect → Nat
  | .send _ => 1
  | _ => 0

section Processes
variable {g t : System} {j k : Nat} {w : Worker} {r : Request}

theorem sentPerform {of : Origin → Bool} {effect : Effect} (own : ∀ call, effect = .send call → of call.origin = true)
    (g : System) : sentBy of (perform g effect) = sentBy of g + sends effect := by
  by_cases hands : area effect = .sends
  · cases effect with
    | send call => simp only [sentBy,perform,sends,List.countP_append,List.countP_singleton,own call rfl,if_true]
    | _ => cases hands
  · have none_ : sends effect = 0 := by
      cases effect with
      | send call => exact absurd rfl hands
      | _ => rfl
    rw [sentBy,sendsPerform hands,none_]
    rfl

theorem sentOthers {of : Origin → Bool} {effect : Effect} (others : ∀ call, effect = .send call → of call.origin = false)
    (g : System) : sentBy of (perform g effect) = sentBy of g := by
  by_cases hands : area effect = .sends
  · cases effect with
    | send call => simp [sentBy,perform,others call rfl]
    | _ => cases hands
  · rw [sentBy,sendsPerform hands]
    rfl

theorem workerSends {o : Oracle} {next : Worker} {call : SendCall} (moved : WorkerStep g j o w next (.send call)) :
    ∃ row, call.origin = .worker j row := by
  cases moved <;> exact ⟨_,rfl⟩

theorem workerBound {underway : Worker → Bool} {e : Event} (found : g.workers[j]? = some w) (moved : step g e = some t)
    (cancelled : ∀ v : Worker, underway v.cancel = underway v)
    (hands : ∀ o next effect, WorkerStep g j o w next effect →
      sends effect + (underway next).toNat ≤ (underway w).toNat) :
    ∃ v, t.workers[j]? = some v ∧ v.broadcast = w.broadcast ∧ (w.done = true → v.done = true) ∧
      sentBy (ofWorker j) t + (underway v).toNat ≤ sentBy (ofWorker j) g + (underway w).toNat := by
  cases e with
  | elsewhere s => cases moved; exact ⟨w,found,rfl,id,Nat.le_refl _⟩
  | gateway e =>
    rcases workerOrOutside (movedSource moved) with outside | ⟨i,o,w',next,effect,rfl,before,inner,rfl⟩
    · have same : sentBy (ofWorker j) t = sentBy (ofWorker j) g := by
        rcases outside.sends with same | ⟨k,call,origin,added⟩
        · rw [sentBy,same]; rfl
        · rw [sentBy,added,List.countP_append,List.countP_singleton,origin]
          rfl
      obtain ⟨v,after,either⟩ := outsideKeeps outside found
      rcases either with rfl | rfl
      · exact ⟨v,after,rfl,id,Nat.le_of_eq (by rw [same])⟩
      · exact ⟨_,after,rfl,fun _ => rfl,Nat.le_of_eq (by rw [same,cancelled])⟩
    · by_cases here : i = j
      · subst here
        cases found.symm.trans before
        refine ⟨next,?_,(workerKeeps inner).1,fun done => (workerKeeps inner).2.trans done,?_⟩
        · rw [workerAfter before inner,if_pos rfl]
        · have own : ∀ call, effect = .send call → ofWorker i call.origin = true := by
            intro call is
            subst is
            obtain ⟨row,origin⟩ := workerSends inner
            rw [origin]
            exact beq_self_eq_true _
          have step_ := hands o next effect inner
          rw [sentPerform own]
          change sentBy (ofWorker i) g + _ + _ ≤ _
          omega
      · have others : ∀ call, effect = .send call → ofWorker j call.origin = false := by
          intro call is
          subst is
          obtain ⟨row,origin⟩ := workerSends inner
          rw [origin]
          exact beq_false_of_ne here
        refine ⟨w,?_,rfl,id,?_⟩
        · rw [workerAfter before inner,if_neg here]
          exact found
        · rw [sentOthers others]
          exact Nat.le_refl _

/-! A worker whose context is done. -/

def sending (w : Worker) : Bool := holds (fun _ => true) w.pc

theorem doneHands {o : Oracle} {next : Worker} {effect : Effect} (done : w.done = true) (moved : WorkerStep g j o w next effect) :
    sends effect + (sending next).toNat ≤ (sending w).toNat := by
  cases moved with
  | selectChose sel inst r rest at_ selected order =>
    obtain ⟨_,_,alive,_⟩ := selectChose selected
    rw [(liveIff.mp alive).2] at done
    cases done
  | markUnsent | loseUnsent | markSent | loseSent => simp [sending,holdsAfter,sends]
  | _ at_ => simp_all [sending,holds,sends]

theorem doneDrains {events : List Event} (found : g.workers[j]? = some w) (done : w.done = true)
    (ran : run step g events = some t) : sentBy (ofWorker j) t ≤ sentBy (ofWorker j) g + (sending w).toNat := by
  let Inv (u : System) : Prop := ∃ v, u.workers[j]? = some v ∧ v.done = true ∧
    sentBy (ofWorker j) u + (sending v).toNat ≤ sentBy (ofWorker j) g + (sending w).toNat
  have kept (u : System) (e : Event) (u' : System) (inv : Inv u) (_ : True) (moved : step u e = some u') : Inv u' := by
    obtain ⟨v,at_,stopped,inside⟩ := inv
    have cancelled : ∀ v : Worker, sending v.cancel = sending v := fun _ => rfl
    obtain ⟨v',after,_,still,less⟩ := workerBound at_ moved cancelled (fun _ _ _ inner => doneHands stopped inner)
    exact ⟨v',after,still stopped,Nat.le_trans less inside⟩
  have always : Guarded step (fun _ _ => True) g events := guardedEach (fun _ _ _ => trivial) g
  obtain ⟨_,_,_,less⟩ := guardedRun kept ⟨w,found,done,Nat.le_refl _⟩ always ran
  omega

/- PauseBroadcast with the cancel function that it has read, and the locked section of CancelBroadcast. -/
def Stops (g : System) (k j : Nat) : Prop :=
  ∃ id, g.calls[k]? = some (.pauseCancel id j) ∨ (g.calls[k]? = some (.cancelLock id) ∧ g.activeJobs id = some j)

/-- A worker that is stopped sends at most the one message that it was about to send. -/
theorem stoppedDrains {m : System} {ok : Bool} {events : List Event} (found : g.workers[j]? = some w) (stops : Stops g k j)
    (moved : Gateway.step g (.call k ok) = some m) (ran : run step m events = some t) :
    sentBy (ofWorker j) t ≤ sentBy (ofWorker j) g + (sending w).toNat := by
  have stopped : m.workers[j]? = some w.cancel ∧ m.sends = g.sends := by
    have modified : (g.workers.modify j Worker.cancel)[j]? = some w.cancel := by simp [found]
    obtain ⟨id,call | ⟨call,active⟩⟩ := stops
    · simp only [Gateway.step,call,bind,Option.bind,callStep] at moved
      cases moved
      exact ⟨modified,rfl⟩
    · simp only [Gateway.step,call,bind,Option.bind,callStep] at moved
      cases moved
      have made : stopJob (setCall g k (.cancelWrite id)) id = dropJob (cancelJob (setCall g k (.cancelWrite id)) j) id := by
        unfold stopJob
        rw [show (setCall g k (.cancelWrite id)).activeJobs id = some j from active]
      simp only [perform,made]
      exact ⟨modified,rfl⟩
  have less := doneDrains stopped.1 rfl ran
  have before : sentBy (ofWorker j) m = sentBy (ofWorker j) g := by rw [sentBy,stopped.2]; rfl
  rw [before] at less
  exact less

/-! A group that is paused. -/

def underway : Pc → Bool
  | .selecting sel _ _ => sel ≠ .pauseCheck
  | .sending _ _ _ _ => true
  | _ => false

def requestUnderway : Request → Bool
  | .selecting sel _ _ => sel ≠ .pauseCheck
  | .logging _ _ _ => true
  | .sending _ _ _ _ => true
  | _ => false

def Aims (id : UUID) : Request → Prop
  | .received r => r.groupId.parsed = some id
  | .selecting _ groupId _ => groupId = id
  | .logging _ groupId _ => groupId = id
  | _ => True

def past (w : Worker) : Bool := underway w.pc

theorem underwayAfter (sent failed : Int) (rest : List BroadcastRecipient) : underway (afterSend sent failed rest) = false := by
  unfold afterSend
  split <;> rfl

theorem checkRefuses {id : UUID} {alive : Bool} {o : Oracle} {result : Selected} (paused : g.paused id = true)
    (selected : selectStep g id alive o .pauseCheck = some result) : result = .failed .paused := by
  cases selectStepSource selected with
  | paused => rfl
  | running running => rw [paused] at running; cases running

theorem pausedHands {o : Oracle} {next : Worker} {effect : Effect} (paused : g.paused w.broadcast.groupId = true)
    (moved : WorkerStep g j o w next effect) : sends effect + (past next).toNat ≤ (past w).toNat := by
  cases moved with
  | selectNext sel next r rest at_ selected =>
    by_cases check : sel = .pauseCheck
    · subst check
      cases checkRefuses paused selected
    · simp only [past,at_,underway,sends,check,ne_eq,not_false_eq_true,decide_true]
      cases decide (next ≠ .pauseCheck) <;> decide
  | selectCached sel s r rest at_ selected =>
    by_cases check : sel = .pauseCheck
    · subst check
      cases checkRefuses paused selected
    · simp [past,at_,underway,sends,check]
  | selectChose sel inst r rest at_ selected order =>
    by_cases check : sel = .pauseCheck
    · subst check
      cases checkRefuses paused selected
    · simp [past,at_,underway,sends,check]
  | markUnsent | loseUnsent | markSent | loseSent => simp [past,underwayAfter,sends]
  | _ at_ => simp_all [past,underway,sends]

theorem checkAims {id : UUID} {ok : Bool} {request : SendRequest} (aims : request.groupId.parsed = some id) :
    Aims id (checkSend g ok request) := by
  rcases checkSendSource g ok request with ⟨_,same⟩ | ⟨groupId,input,same⟩
  · rw [same]; trivial
  · have here : groupId = id := by
      unfold checkSend at same
      split at same
      · cases same
      simp only [aims] at same
      repeat' split at same
      all_goals cases same
      rfl
    rw [same]
    exact here

theorem requestPausedHands {id : UUID} {o : Oracle} {next : Request} {effect : Effect} (paused : g.paused id = true)
    (aims : Aims id r) (moved : requestStep g k o r = some (next,effect)) :
    Aims id next ∧ sends effect + (requestUnderway next).toNat ≤ (requestUnderway r).toNat := by
  cases r with
  | received request =>
    cases moved
    refine ⟨checkAims aims,?_⟩
    rcases checkSendSource g o.ok request with ⟨_,same⟩ | ⟨_,_,same⟩ <;> rw [same] <;> simp [requestUnderway,sends]
  | selecting sel groupId input =>
    have here : groupId = id := aims
    subst here
    simp only [requestStep] at moved
    by_cases check : sel = .pauseCheck
    · subst check
      cases selected : selectStep g groupId o.ok o .pauseCheck with
      | none => rw [selected] at moved; cases moved
      | some result =>
        cases checkRefuses paused selected
        rw [selected] at moved
        cases moved
        exact ⟨trivial,Nat.le_refl _⟩
    · split at moved <;> cases moved
      · next next _ =>
        refine ⟨rfl,?_⟩
        simp only [requestUnderway,sends,check,ne_eq,not_false_eq_true,decide_true]
        cases decide (¬ next = .pauseCheck) <;> decide
      · simp [Aims,requestUnderway,sends,check]
      · simp [Aims,requestUnderway,sends,check]
      · simp [Aims,requestUnderway,sends,check]
  | logging inst groupId input =>
    simp only [requestStep] at moved
    split at moved <;> cases moved
    · rcases checkContentSource inst o.freshId input with ⟨_,same⟩ | ⟨_,same⟩ <;> rw [same] <;>
        simp [Aims,requestUnderway,sends]
    · simp [Aims,requestUnderway,sends]
  | sending inst log input text =>
    cases moved
    cases o.ok <;> exact ⟨trivial,Nat.le_refl _⟩
  | updateFailed log message =>
    cases moved
    cases o.ok <;> exact ⟨trivial,Nat.le_refl _⟩
  | updateSent inst log =>
    cases moved
    cases o.ok <;> exact ⟨trivial,Nat.le_refl _⟩
  | answered response => cases moved

theorem requestBound {id : UUID} {e : Event} (found : g.requests[k]? = some r) (aims : Aims id r) (paused : g.paused id = true)
    (moved : step g e = some t) : ∃ next, t.requests[k]? = some next ∧ Aims id next ∧
      sentBy (ofRequest k) t + (requestUnderway next).toNat ≤ sentBy (ofRequest k) g + (requestUnderway r).toNat := by
  cases e with
  | elsewhere s => cases moved; exact ⟨r,found,aims,Nat.le_refl _⟩
  | gateway e =>
    cases movedSource moved with
    | starts b => exact ⟨r,found,aims,Nat.le_refl _⟩
    | opens e c call => exact ⟨r,found,aims,Nat.le_refl _⟩
    | call i ok c next effect before inner =>
      have areas := callArea inner
      have others : area effect ≠ .sends := by rcases areas with a | a | a | a <;> rw [a] <;> decide
      refine ⟨r,by rw [requestsPerform]; exact found,aims,?_⟩
      rw [sentBy,sendsPerform others]
      exact Nat.le_refl _
    | worker j o w next effect before inner =>
      have others : ∀ call, effect = .send call → ofRequest k call.origin = false := by
        intro call is
        subst is
        obtain ⟨row,origin⟩ := workerSends inner
        rw [origin]
        rfl
      refine ⟨r,by rw [requestsPerform]; exact found,aims,?_⟩
      rw [sentOthers others]
      exact Nat.le_refl _
    | send request =>
      have inside := (List.getElem?_eq_some_iff.mp found).choose
      exact ⟨r,by rw [List.getElem?_append_left inside]; exact found,aims,Nat.le_refl _⟩
    | request i o r' next effect before inner =>
      by_cases here : i = k
      · subst here
        cases found.symm.trans before
        have inside := (List.getElem?_eq_some_iff.mp found).choose
        obtain ⟨still,less⟩ := requestPausedHands paused aims inner
        refine ⟨next,by rw [requestsPerform]; exact List.getElem?_set_self inside,still,?_⟩
        have own : ∀ call, effect = .send call → ofRequest i call.origin = true := by
          intro call is
          subst is
          rw [(requestSends inner).1]
          exact beq_self_eq_true _
        rw [sentPerform own]
        change sentBy (ofRequest i) g + _ + _ ≤ _
        omega
      · have others : ∀ call, effect = .send call → ofRequest k call.origin = false := by
          intro call is
          subst is
          rw [(requestSends inner).1]
          exact beq_false_of_ne here
        refine ⟨r,by rw [requestsPerform]; exact (List.getElem?_set_ne here).trans found,aims,?_⟩
        rw [sentOthers others]
        exact Nat.le_refl _
    | pauses _ => exact ⟨r,found,aims,Nat.le_refl _⟩
    | resumes _ => exact ⟨r,found,aims,Nat.le_refl _⟩
    | status _ _ => exact ⟨r,found,aims,Nat.le_refl _⟩

/-- While a group is paused, each of its workers and each request for it sends at most one more message, and only if it
was past the check when the group was paused. -/
theorem pausedDrains {id : UUID} {events : List Event} (paused : Throughout step (fun u => u.paused id = true) g events)
    (ran : run step g events = some t) :
    (∀ j w, g.workers[j]? = some w → w.broadcast.groupId = id →
      sentBy (ofWorker j) t ≤ sentBy (ofWorker j) g + (past w).toNat) ∧
    ∀ k r, g.requests[k]? = some r → Aims id r →
      sentBy (ofRequest k) t ≤ sentBy (ofRequest k) g + (requestUnderway r).toNat := by
  have guarded := throughoutGuarded paused
  refine ⟨fun j w found ofGroup => ?_,fun k r found aims => ?_⟩
  · let Inv (u : System) : Prop := ∃ v, u.workers[j]? = some v ∧ v.broadcast.groupId = id ∧
      sentBy (ofWorker j) u + (past v).toNat ≤ sentBy (ofWorker j) g + (past w).toNat
    have kept (u : System) (e : Event) (u' : System) (inv : Inv u) (still : u.paused id = true) (moved : step u e = some u') :
        Inv u' := by
      obtain ⟨v,at_,here,inside⟩ := inv
      have cancelled : ∀ v : Worker, past v.cancel = past v := fun _ => rfl
      obtain ⟨v',after,same,_,less⟩ := workerBound at_ moved cancelled (fun _ _ _ inner => pausedHands (here ▸ still) inner)
      exact ⟨v',after,same ▸ here,Nat.le_trans less inside⟩
    obtain ⟨_,_,_,less⟩ := guardedRun kept ⟨w,found,ofGroup,Nat.le_refl _⟩ guarded ran
    omega
  · let Inv (u : System) : Prop := ∃ next, u.requests[k]? = some next ∧ Aims id next ∧
      sentBy (ofRequest k) u + (requestUnderway next).toNat ≤ sentBy (ofRequest k) g + (requestUnderway r).toNat
    have kept (u : System) (e : Event) (u' : System) (inv : Inv u) (still : u.paused id = true) (moved : step u e = some u') :
        Inv u' := by
      obtain ⟨v,at_,here,inside⟩ := inv
      obtain ⟨next,after,same,less⟩ := requestBound at_ here still moved
      exact ⟨next,after,same,Nat.le_trans less inside⟩
    obtain ⟨_,_,_,less⟩ := guardedRun kept ⟨r,found,aims,Nat.le_refl _⟩ guarded ran
    omega

end Processes

def choosing : List Gateway.Event := .startBroadcast (sampleBroadcast 2)::works 0 9 accepts

def reached (events : List Gateway.Event) : System :=
  (run Gateway.step (boot (sampleTables [31,32])) events).getD (boot (sampleTables [31,32]))

def goesOn (n : Nat) (o : Oracle) : List Event := List.replicate n (.gateway (.worker 0 o))

def deleted : System := Gateway.write (reached choosing) ⟨[],[],[],[],[]⟩

instance (p : UUID → Bool) (g : System) : Decidable (Retired p g) := by unfold Retired; infer_instance

def cancelling : System := reached (choosing ++ [.cancelBroadcast 21])

theorem stoppedDrainsCancelled : ∃ m t w, cancelling.workers[0]? = some w ∧ Gateway.step cancelling (.call 0 true) = some m ∧
    run step m (goesOn 3 accepts) = some t ∧ sentBy (ofWorker 0) t ≤ sentBy (ofWorker 0) cancelling + (sending w).toNat := by
  obtain ⟨w,found⟩ := Option.isSome_iff_exists.mp (show (cancelling.workers[0]?).isSome = true by decide +kernel)
  have ends : ((Gateway.step cancelling (.call 0 true)).bind (fun m => (run step m (goesOn 3 accepts)).map (fun t => (m,t)))).isSome =
    true := by decide +kernel
  obtain ⟨⟨m,t⟩,both⟩ := Option.isSome_iff_exists.mp ends
  obtain ⟨m',moved,later⟩ := Option.bind_eq_some_iff.mp both
  obtain ⟨t',ran,same⟩ := Option.map_eq_some_iff.mp later
  cases same
  have stops : Stops cancelling 0 0 := ⟨21,.inr ⟨rfl,by decide +kernel⟩⟩
  exact ⟨m,t,w,found,moved,ran,stoppedDrains found stops moved ran⟩

def pausing : System := reached (choosing ++ [.pauseGroup 1])

theorem pausedDrainsSending : ∃ t w, pausing.workers[0]? = some w ∧ run step pausing (goesOn 6 accepts) = some t ∧
    sentBy (ofWorker 0) t ≤ sentBy (ofWorker 0) pausing + (past w).toNat := by
  obtain ⟨w,found⟩ := Option.isSome_iff_exists.mp (show (pausing.workers[0]?).isSome = true by decide +kernel)
  have ends : (run step pausing (goesOn 6 accepts)).any (fun t => t.paused 1) = true := by decide +kernel
  obtain ⟨t,ran,last⟩ := (Option.any_eq_true _ _).mp ends
  have always : Throughout step (fun u => u.paused 1 = true) pausing (goesOn 6 accepts) :=
    guardedEnd (guardedChecks (by decide +kernel)) ran last
  have group : (pausing.workers[0]?).all (fun w => w.broadcast.groupId == 1) = true := by decide +kernel
  rw [found] at group
  exact ⟨t,w,found,ran,(pausedDrains always ran).1 0 w found (eq_of_beq group)⟩

end WppGateway.InFlight
