import WppGateway.StrategyFlow

/-! The budget columns of the instances against what is really sent. Both send paths
read the columns through SelectInstance and neither advances them. -/
namespace WppGateway.Budgets
open Runs Domain Store Table Selection Gateway Transitions HeldRows StrategyFlow

def given (g : System) (i : UUID) : Nat := g.sends.countP (fun c => c.succeeded && c.instanceId == i)

def carries : Pc → Option UUID
  | .sending inst _ _ _ => some inst.id
  | _ => none

def requestCarries : Request → Option UUID
  | .logging inst _ _ | .sending inst _ _ _ => some inst.id
  | _ => none

def handed (g : System) (i : UUID) : Nat :=
  given g i + g.workers.countP (fun w => carries w.pc == some i) +
    g.requests.countP (fun r => requestCarries r == some i)

def reader (g : System) : Event → Option (UUID × Oracle)
  | .worker j o => match g.workers[j]? with
    | some w => match w.pc with
      | .selecting (.listing _) _ _ => if live o w then some (w.broadcast.groupId,o) else none
      | _ => none
    | none => none
  | .request k o => match g.requests[k]? with
    | some (.selecting (.listing _) groupId _) => if o.ok then some (groupId,o) else none
    | _ => none
  | _ => none

def offers (groupId i : UUID) (g : System) (e : Event) : Bool := (reader g e).any (fun q =>
  q.1 == groupId && q.2.listing.any (fun inst => inst.id == i && q.2.connected inst.id))

def offered (groupId i : UUID) : System → List Event → Nat
  | _,[] => 0
  | g,e::rest => (if offers groupId i g e then 1 else 0) + match step g e with
    | some t => offered groupId i t rest
    | none => 0

/- No instance of the group is read more often than its columns leave messages. -/
def Affords (groupId : UUID) (g : System) (events : List Event) : Prop :=
  ∀ i ∈ g.store.instances, i.groupId = groupId → 0 < min (dailyRemaining i) (hourRemaining i) →
    (offered groupId i.id g events : Int) ≤ min (dailyRemaining i) (hourRemaining i)

instance (groupId : UUID) (g : System) (events : List Event) : Decidable (Affords groupId g events) :=
  inferInstanceAs (Decidable (∀ i ∈ g.store.instances,i.groupId = groupId → _ → _))

structure BudgetedGroup (groupId : UUID) (g : System) : Prop where
  cached : ∀ s, g.strategies groupId = some s → Budgeted s
  row : ∀ group, findGroup g.store groupId = some group → Budgeted group.strategy

structure Row where
  id : UUID
  groupId : UUID
  daily : Int
  hour : Int

def budgets (s : Tables) : List Row :=
  s.instances.map (fun i => ⟨i.id,i.groupId,dailyRemaining i,hourRemaining i⟩)

def allowed (r : Row) : Int := max 0 (min r.daily r.hour)

def stage : Selecting → Prop
  | .cache s | .listing s => Budgeted s
  | _ => True

structure Ready (groupId : UUID) (g : System) : Prop where
  group : BudgetedGroup groupId g
  workers : ∀ w ∈ g.workers, w.broadcast.groupId = groupId → ∀ sel r rest, w.pc = .selecting sel r rest → stage sel
  requests : ∀ q ∈ g.requests, ∀ sel input, q = .selecting sel groupId input → stage sel

/- With the reads that are to come, no instance is handed more than its columns allow. -/
structure Budgeting (groupId : UUID) (rows : List Row) (g : System) (events : List Event) : Prop where
  ready : Ready groupId g
  budgets : budgets g.store = rows
  bound : ∀ r ∈ rows, r.groupId = groupId →
    handed g r.id + (if 0 < min r.daily r.hour then offered groupId r.id g events else 0) ≤ (allowed r).toNat

theorem budgetsMoved {g e t} (moved : Moved g e t) : budgets t.store = budgets g.store := by
  cases moved with
  | call | worker | request => exact congrArg (List.map _) instancesPerform
  | status id st =>
    simp only [budgets,write,setInstanceStatus,updateInstance,update,List.map_map]
    apply List.map_congr_left
    intro i _
    simp only [Function.comp_apply]
    split <;> rfl
  | _ => rfl

def delivered : Effect → Option UUID
  | .send call => if call.succeeded then some call.instanceId else none
  | _ => none

def one (c : Option UUID) (i : UUID) : Nat := if c == some i then 1 else 0

def Passes (before after : Option UUID) (effect : Effect) : Prop :=
  (delivered effect = none ∧ (after = none ∨ after = before)) ∨ (after = none ∧ delivered effect = before)

def Takes (before after : Option UUID) (effect : Effect) (i : UUID) : Prop :=
  before = none ∧ after = some i ∧ delivered effect = none

structure Chosen (g : System) (groupId : UUID) (o : Oracle) (s : Strategy) (inst : Instance) : Prop where
  listing : Listing g.store groupId o.listing
  chosen : strategySelect s (o.listing.filter (fun i => o.connected i.id)) = .ok inst

theorem givenPerform (g : System) (effect : Effect) (i : UUID) :
    given (perform g effect) i = given g i + one (delivered effect) i := by
  cases effect with
  | send call =>
    obtain ⟨origin,instanceId,toNumber,text,succeeded⟩ := call
    cases succeeded <;> simp [given,perform,delivered,one]
  | stopJob id => simp [given,perform,delivered,one,(stopJobFrame g id).2.1]
  | _ => rfl

theorem handedWorker {g j o w next effect} (found : g.workers[j]? = some w)
    (inner : WorkerStep g j o w next effect) (i : UUID) :
    handed (perform (setWorker g j next) effect) i + one (carries w.pc) i =
      handed g i + one (carries next.pc) i + one (delivered effect) i := by
  have set_ := countSet (b := next) found (fun w => carries w.pc == some i)
  simp only [handed,givenPerform,workersPerform (workerArea inner).1,requestsPerform,setWorker]
  simp only [given,one] at *
  omega

theorem handedRequest {g k o r next effect} (found : g.requests[k]? = some r)
    (inner : requestStep g k o r = some (next,effect)) (i : UUID) :
    handed (perform (setRequest g k next) effect) i + one (requestCarries r) i =
      handed g i + one (requestCarries next) i + one (delivered effect) i := by
  have set_ := countSet (b := next) found (fun r => requestCarries r == some i)
  have same : area effect ≠ .workers := by rcases requestArea inner with a | a | a | a <;> rw [a] <;> decide
  simp only [handed,givenPerform,workersPerform same,requestsPerform,setRequest]
  simp only [given,one] at *
  omega

theorem passesCount {before after effect} (passes : Passes before after effect) (i : UUID) :
    one after i + one (delivered effect) i ≤ one before i := by
  rcases passes with ⟨none_,rfl | rfl⟩ | ⟨rfl,same⟩
  · simp [none_,one]
  · simp [none_,one]
  · simp [same,one]

theorem takesCount {before after effect taken} (takes : Takes before after effect taken) (i : UUID) :
    one after i + one (delivered effect) i = one before i + if taken = i then 1 else 0 := by
  obtain ⟨rfl,rfl,none_⟩ := takes
  simp [none_,one]

@[simp] theorem carriesAfterSend (sent failed : Int) (rest : List BroadcastRecipient) :
    carries (afterSend sent failed rest) = none := by
  unfold afterSend
  split <;> rfl

theorem workerPasses {g j o w next effect} (inner : WorkerStep g j o w next effect) :
    Passes (carries w.pc) (carries next.pc) effect ∨
    ∃ s inst r rest, w.pc = .selecting (.listing s) r rest ∧ live o w = true ∧ Chosen g w.broadcast.groupId o s inst ∧
      Takes (carries w.pc) (carries next.pc) effect inst.id := by
  cases inner with
  | selectChose sel inst r rest at_ selected order =>
    obtain ⟨s,rfl,answered,listing,chosen⟩ := selectChose selected
    exact .inr ⟨s,inst,r,rest,at_,answered,⟨listing,chosen⟩,by rw [at_]; rfl,rfl,rfl⟩
  | delivers inst text r rest at_ accepted => exact .inl (.inr ⟨rfl,by rw [at_]; rfl⟩)
  | markUnsent r rest at_ | loseUnsent r rest at_ | markSent inst r rest at_ | loseSent inst r rest at_ =>
    exact .inl (.inl ⟨rfl,.inl (carriesAfterSend _ _ _)⟩)
  | _ => exact .inl (.inl ⟨rfl,.inl rfl⟩)

theorem requestPasses {g k o r next effect} (inner : requestStep g k o r = some (next,effect)) :
    Passes (requestCarries r) (requestCarries next) effect ∨
    ∃ s inst groupId input, r = .selecting (.listing s) groupId input ∧ o.ok = true ∧ Chosen g groupId o s inst ∧
      Takes (requestCarries r) (requestCarries next) effect inst.id := by
  cases r with
  | received r =>
    cases inner
    rcases checkSendSource g o.ok r with ⟨response,same⟩ | ⟨groupId,input,same⟩
    all_goals exact .inl (.inl ⟨rfl,.inl (by rw [same]; rfl)⟩)
  | selecting sel groupId input =>
    simp only [requestStep] at inner
    cases selected : selectStep g groupId o.ok o sel with
    | none => simp [selected] at inner
    | some result =>
      simp only [selected] at inner
      cases result with
      | chose inst =>
        cases inner
        obtain ⟨s,rfl,answered,listing,chosen⟩ := selectChose selected
        exact .inr ⟨s,inst,groupId,input,rfl,answered,⟨listing,chosen⟩,rfl,rfl,rfl⟩
      | _ => cases inner; exact .inl (.inl ⟨rfl,.inl rfl⟩)
  | logging inst groupId input =>
    simp only [requestStep] at inner
    split at inner <;> cases inner
    · rcases checkContentSource inst o.freshId input with ⟨response,same⟩ | ⟨text,same⟩
      · exact .inl (.inl ⟨rfl,.inl (by rw [same]; rfl)⟩)
      · exact .inl (.inl ⟨rfl,.inr (by rw [same]; rfl)⟩)
    · exact .inl (.inl ⟨rfl,.inl rfl⟩)
  | sending inst log input text =>
    cases inner
    cases ok : o.ok
    · exact .inl (.inl ⟨rfl,.inl rfl⟩)
    · exact .inl (.inr ⟨rfl,rfl⟩)
  | updateFailed log err => cases inner; exact .inl (.inl ⟨by split <;> rfl,.inl rfl⟩)
  | updateSent inst log => cases inner; exact .inl (.inl ⟨by split <;> rfl,.inl rfl⟩)
  | answered response => cases inner

section Ready
variable {groupId : UUID} {g : System}

theorem stageCarried {owner : UUID} {sel : Selecting} :
    Carried (fun id s => id = groupId → Budgeted s) owner sel ↔ (owner = groupId → stage sel) := by
  cases sel with
  | cache s | listing s => exact Iff.rfl
  | pauseCheck | lookup | group => exact ⟨fun _ _ => trivial,fun _ => trivial⟩

theorem readyFlows (ready : Ready groupId g) : Flows (fun id s => id = groupId → Budgeted s) g where
  made := fun _ group _ found made owns => budgetedNew (ready.group.row group (owns ▸ found)) made
  cached := fun _ s cached owns => ready.group.cached s (owns ▸ cached)
  workers := fun w member sel r rest at_ => stageCarried.mpr (fun owns => ready.workers w member owns sel r rest at_)
  requests := fun q member sel _ input at_ =>
    stageCarried.mpr (fun owns => ready.requests q member sel input (owns ▸ at_))

theorem readyStep {e t} (ready : Ready groupId g) (moved : Moved g e t) : Ready groupId t := by
  have flows := flowsStep (readyFlows ready) moved
  refine ⟨⟨fun s cached => flows.cached groupId s cached rfl,fun group found => ready.group.row group ?_⟩,
    fun w member owns sel r rest at_ => stageCarried.mp (flows.workers w member sel r rest at_) owns,
    fun q member sel input at_ => stageCarried.mp (flows.requests q member sel groupId input at_) rfl⟩
  rw [findGroup,← groupsMoved moved]
  exact found

end Ready

section Bound
variable {groupId : UUID} {rows : List Row} {g : System}

theorem chosenOffered {owner : UUID} {o : Oracle} {s : Strategy} {inst : Instance} {r : Row} {e : Event}
    (same : budgets g.store = rows) (keys : Distinct Row.id rows) (member : r ∈ rows) (own : r.groupId = groupId)
    (chosen : Chosen g owner o s inst) (here : inst.id = r.id) (looks : owner = groupId → Budgeted s)
    (read : reader g e = some (owner,o)) : offers groupId r.id g e = true ∧ 0 < min r.daily r.hour := by
  obtain ⟨listed,connected⟩ := List.mem_filter.mp (selectMember chosen.chosen)
  obtain ⟨inside,mine⟩ := List.mem_filter.mp (chosen.listing.1.subset listed)
  simp only [Bool.and_eq_true,beq_iff_eq] at mine
  have row : (⟨inst.id,inst.groupId,dailyRemaining inst,hourRemaining inst⟩ : Row) ∈ rows := by
    rw [← same]
    exact List.mem_map.mpr ⟨inst,inside,rfl⟩
  cases sameRow keys member row here.symm
  have owns := mine.1.symm.trans own
  obtain ⟨_,daily,hour⟩ := budgetedRoom (looks owns) chosen.chosen
  refine ⟨?_,lt_min daily hour⟩
  rw [offers,read,Option.any_some,owns,beq_self_eq_true,Bool.true_and]
  exact List.any_eq_true.mpr ⟨inst,listed,by simp [connected]⟩

theorem handedOutside {e t} (outside : Outside g e t) (sends : t.sends = g.sends)
    (requests : t.requests.countP (fun r => requestCarries r == some i) =
      g.requests.countP (fun r => requestCarries r == some i)) : handed t i = handed g i := by
  have workers : t.workers.countP (fun w => carries w.pc == some i) =
      g.workers.countP (fun w => carries w.pc == some i) := by
    rcases outside.workers with same | ⟨handle,modified⟩ | ⟨b,_,added⟩
    · rw [same]
    · rw [modified]
      exact countModify (f := Worker.cancel) (fun _ => rfl) g.workers handle
    · simp [added,newWorker,carries]
  simp only [handed,given,sends,workers,requests]

theorem handedStep {e : Event} {t : System} (ready : Ready groupId g) (same : budgets g.store = rows)
    (keys : Distinct Row.id rows) (moved : Moved g e t) {r : Row} (member : r ∈ rows) (own : r.groupId = groupId) :
    handed t r.id ≤ handed g r.id ∨
      (handed t r.id = handed g r.id + 1 ∧ offers groupId r.id g e = true ∧ 0 < min r.daily r.hour) := by
  cases moved with
  | worker j o w next effect found inner =>
    have counted := handedWorker found inner r.id
    rcases workerPasses inner with passes | ⟨s,inst,q,rest,at_,answered,chosen,takes⟩
    · have passed := passesCount passes r.id
      exact .inl (by omega)
    · have taken := takesCount takes r.id
      split at taken
      · next here =>
        have read : reader g (.worker j o) = some (w.broadcast.groupId,o) := by
          simp only [reader,found,at_,answered,if_true]
        have looks : w.broadcast.groupId = groupId → Budgeted s := fun owns =>
          ready.workers w (List.mem_of_getElem? found) owns (.listing s) q rest at_
        exact .inr ⟨by omega,chosenOffered same keys member own chosen here looks read⟩
      · exact .inl (by omega)
  | request k o q next effect found inner =>
    have counted := handedRequest found inner r.id
    rcases requestPasses inner with passes | ⟨s,inst,owner,input,at_,answered,chosen,takes⟩
    · have passed := passesCount passes r.id
      exact .inl (by omega)
    · have taken := takesCount takes r.id
      split at taken
      · next here =>
        have read : reader g (.request k o) = some (owner,o) := by simp only [reader,found,at_,answered,if_true]
        have looks : owner = groupId → Budgeted s := fun owns =>
          ready.requests q (List.mem_of_getElem? found) (.listing s) input (by rw [at_,owns])
        exact .inr ⟨by omega,chosenOffered same keys member own chosen here looks read⟩
      · exact .inl (by omega)
  | call k ok c next effect found inner =>
    have outside := callOutside found inner
    have quiet : (perform (setCall g k next) effect).sends = g.sends :=
      sendsPerform (by rcases callArea inner with a | a | a | a <;> rw [a] <;> decide)
    exact .inl (handedOutside outside quiet (by rw [requestsPerform]; rfl)).le
  | starts b =>
    have outside : Outside g (.startBroadcast b) (startJob g b) := ⟨rfl,.inr (.inr ⟨b,rfl,rfl⟩),.inl rfl,nofun⟩
    exact .inl (handedOutside outside rfl rfl).le
  | send q =>
    have outside : Outside g (.send q) {g with requests := g.requests ++ [.received q]} :=
      ⟨rfl,.inl rfl,.inl rfl,nofun⟩
    exact .inl (handedOutside outside rfl (by simp [requestCarries])).le
  | _ => exact .inl (Nat.le_refl _)

theorem budgetingStep {e : Event} {rest : List Event} {t : System} (keys : Distinct Row.id rows)
    (inv : Budgeting groupId rows g (e::rest)) (moved : step g e = some t) : Budgeting groupId rows t rest := by
  have source := movedSource moved
  refine ⟨readyStep inv.ready source,(budgetsMoved source).trans inv.budgets,fun r member own => ?_⟩
  have before := inv.bound r member own
  simp only [offered,moved] at before
  rcases handedStep inv.ready inv.budgets keys source member own with less | ⟨more,here,room⟩
  · by_cases room : 0 < min r.daily r.hour
    · rw [if_pos room] at before ⊢
      omega
    · rw [if_neg room] at before ⊢
      omega
  · rw [if_pos room] at before ⊢
    rw [if_pos here] at before
    omega

theorem budgetingRun {events : List Event} (keys : Distinct Row.id rows) (inv : Budgeting groupId rows g events) :
    Throughout step (fun t => ∀ r ∈ rows, r.groupId = groupId → handed t r.id ≤ (allowed r).toNat) g events := by
  induction events generalizing g with
  | nil => exact fun r member own => (Nat.le_add_right _ _).trans (inv.bound r member own)
  | cons e rest ih =>
    exact ⟨fun r member own => (Nat.le_add_right _ _).trans (inv.bound r member own),
      fun t moved => ih (budgetingStep keys inv moved)⟩

end Bound

def WithinBudget (groupId : UUID) (start t : System) : Prop :=
  ∀ i ∈ start.store.instances, i.groupId = groupId →
    (given t i.id : Int) ≤ max 0 (min (dailyRemaining i) (hourRemaining i))

/-- Where no instance of the group is read more often than its columns leave messages, none delivers more than they
allowed at the start. -/
theorem budgetRun {groupId : UUID} {g : System} {events : List Event} (fresh : Fresh g)
    (keys : Distinct Instance.id g.store.instances) (group : BudgetedGroup groupId g) (affords : Affords groupId g events) :
    Throughout step (WithinBudget groupId g) g events := by
  have distinct : Distinct Row.id (budgets g.store) := by
    simpa [Distinct,budgets,Function.comp_def] using keys
  have start : Budgeting groupId (budgets g.store) g events := by
    refine ⟨⟨group,by simp [fresh.workers],by simp [fresh.requests]⟩,rfl,fun r member own => ?_⟩
    obtain ⟨i,inside,rfl⟩ := List.mem_map.mp member
    have reads := affords i inside own
    simp only [handed,given,fresh.sends,fresh.workers,fresh.requests,List.countP_nil,allowed]
    split <;> omega
  refine throughoutMono (fun t within i member own => ?_) (budgetingRun distinct start)
  have bound := within ⟨i.id,i.groupId,dailyRemaining i,hourRemaining i⟩ (List.mem_map.mpr ⟨i,member,rfl⟩) own
  simp only [handed,allowed] at bound
  omega

def sharedEvents : List Event :=
  .startBroadcast (sampleBroadcast 2)::works 0 9 accepts ++ .send sampleSend::serves 0 6 accepts ++
    works 0 8 accepts

theorem sampleBudgeted (s : Tables) (group : s.groups = [sampleGroup]) : BudgetedGroup 1 (boot s) := by
  refine ⟨nofun,fun row found => ?_⟩
  simp only [boot,findGroup,group] at found
  cases Option.some.inj found
  trivial

theorem sharedWithinBudget : Throughout step (WithinBudget 1 (boot (sampleTables [31,32])))
    (boot (sampleTables [31,32])) sharedEvents :=
  budgetRun (freshBoot _) (by decide) (sampleBudgeted _ rfl) (by decide +kernel)

def lastInstance : Instance := {sampleInstance with dailyBudget := 1}
def lastTables : Tables := {sampleTables [31,32] with instances := [lastInstance]}
def lastEvents : List Event :=
  .startBroadcast (sampleBroadcast 2)::works 0 16 {accepts with listing := [lastInstance]}

theorem budgetOverrun :
    Fresh (boot lastTables) ∧ Distinct Instance.id lastTables.instances ∧ BudgetedGroup 1 (boot lastTables) ∧
    (run step (boot lastTables) lastEvents).map (fun t => given t 11) = some 2 ∧
    ¬ Throughout step (WithinBudget 1 (boot lastTables)) (boot lastTables) lastEvents := by
  have twice : (run step (boot lastTables) lastEvents).map (fun t => given t 11) = some 2 := by decide +kernel
  refine ⟨freshBoot _,by decide,sampleBudgeted _ rfl,twice,fun always => ?_⟩
  obtain ⟨t,ran,two⟩ := Option.map_eq_some_iff.mp twice
  have within := throughoutEnd always ran lastInstance (by decide) rfl
  rw [show lastInstance.id = 11 from rfl,two] at within
  revert within
  decide

end WppGateway.Budgets
