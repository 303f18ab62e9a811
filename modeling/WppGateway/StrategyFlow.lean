import WppGateway.HeldRows

/-! Where the strategies come from. What holds of every strategy that NewStrategy makes
of a group's row holds of those in the cache and of those on their way to it. -/
namespace WppGateway.StrategyFlow
open Runs Domain Store Selection Gateway Transitions HeldRows
variable {P : UUID → Strategy → Prop}

def Carried (P : UUID → Strategy → Prop) (groupId : UUID) : Selecting → Prop
  | .cache s | .listing s => P groupId s
  | _ => True

structure Flows (P : UUID → Strategy → Prop) (g : System) : Prop where
  made : ∀ id group s, findGroup g.store id = some group → newStrategy group.strategy = .ok s → P id s
  cached : ∀ id s, g.strategies id = some s → P id s
  workers : ∀ w ∈ g.workers, ∀ sel r rest, w.pc = .selecting sel r rest → Carried P w.broadcast.groupId sel
  requests : ∀ q ∈ g.requests, ∀ sel groupId input, q = .selecting sel groupId input → Carried P groupId sel

theorem selectCarries {g groupId sel} (alive : Bool) (o : Oracle) (flows : Flows P g) (before : Carried P groupId sel) :
    match selectStep g groupId alive o sel with
    | some (.next next) => Carried P groupId next
    | some (.cached s) => P groupId s
    | _ => True := by
  cases selected : selectStep g groupId alive o sel with
  | none => trivial
  | some result =>
    cases selectStepSource selected with
    | running | misses => trivial
    | known s cached => exact flows.cached groupId s cached
    | made group s answered found made => exact flows.made groupId group s found made
    | caches s => exact before
    | _ => trivial

theorem workerCarries {g j o w next effect} (flows : Flows P g) (found : g.workers[j]? = some w)
    (inner : WorkerStep g j o w next effect) :
    (∀ sel r rest, next.pc = .selecting sel r rest → Carried P w.broadcast.groupId sel) ∧
    ∀ id s, effect = .cacheStrategy id s → P id s := by
  have before := flows.workers w (List.mem_of_getElem? found)
  cases inner with
  | reaches r rest => exact ⟨fun sel r rest at_ => (by cases at_; trivial),fun id s made => (by cases made)⟩
  | selectNext sel next r rest at_ selected =>
    have leads := selectCarries (live o w) o flows (before sel r rest at_)
    rw [selected] at leads
    exact ⟨fun sel r rest at_ => (by cases at_; exact leads),fun id s made => (by cases made)⟩
  | selectCached sel s r rest at_ selected =>
    have leads := selectCarries (live o w) o flows (before sel r rest at_)
    rw [selected] at leads
    exact ⟨fun sel r rest at_ => (by cases at_; exact leads),fun id s made => (by cases made; exact leads)⟩
  | markUnsent r rest at_ | loseUnsent r rest at_ | markSent inst r rest at_ | loseSent inst r rest at_ =>
    refine ⟨fun sel r rest at_ => ?_,fun id s made => (by cases made)⟩
    simp only [afterSend] at at_
    split at at_ <;> cases at_
  | _ =>
    constructor
    · intro sel r rest made; cases made
    · intro id s made; cases made

theorem requestCarries {g k o r next effect} (flows : Flows P g) (found : g.requests[k]? = some r)
    (inner : requestStep g k o r = some (next,effect)) :
    (∀ sel groupId input, next = .selecting sel groupId input → Carried P groupId sel) ∧
    ∀ id s, effect = .cacheStrategy id s → P id s := by
  cases r with
  | received r =>
    cases inner
    refine ⟨fun sel groupId input made => ?_,fun id s made => (by cases made)⟩
    rcases checkSendSource g o.ok r with ⟨response,same⟩ | ⟨owner,input',same⟩
    all_goals rw [same] at made; cases made
    trivial
  | selecting sel owner input =>
    simp only [requestStep] at inner
    have leads := selectCarries o.ok o flows (flows.requests _ (List.mem_of_getElem? found) sel owner input rfl)
    cases selected : selectStep g owner o.ok o sel with
    | none => simp [selected] at inner
    | some result =>
      simp only [selected] at inner leads
      cases result with
      | next after =>
        cases inner
        exact ⟨fun sel groupId input made => (by cases made; exact leads),fun id s made => (by cases made)⟩
      | cached s =>
        cases inner
        exact ⟨fun sel groupId input made => (by cases made; exact leads),fun id s made => (by cases made; exact leads)⟩
      | _ => cases inner; exact ⟨fun sel groupId input made => (by cases made),fun id s made => (by cases made)⟩
  | logging inst owner input =>
    simp only [requestStep] at inner
    split at inner <;> cases inner
    · refine ⟨fun sel groupId input' made => ?_,fun id s made => (by cases made)⟩
      rcases checkContentSource inst o.freshId input with ⟨response,same⟩ | ⟨text,same⟩
      all_goals rw [same] at made; cases made
    · exact ⟨fun sel groupId input made => (by cases made),fun id s made => (by cases made)⟩
  | sending inst log input text =>
    cases inner
    refine ⟨fun sel groupId input' made => ?_,fun id s made => (by cases made)⟩
    split at made <;> cases made
  | updateFailed log err =>
    cases inner
    exact ⟨fun sel groupId input made => (by cases made),fun id s made => (by split at made <;> cases made)⟩
  | updateSent inst log =>
    cases inner
    exact ⟨fun sel groupId input made => (by cases made),fun id s made => (by split at made <;> cases made)⟩
  | answered response => cases inner

theorem cachedPerform {g : System} {effect : Effect} {id : UUID} {s : Strategy}
    (found : (perform g effect).strategies id = some s) :
    g.strategies id = some s ∨ effect = .cacheStrategy id s := by
  by_cases caches : area effect = .strategies
  · cases effect with
    | cacheStrategy owner made =>
      simp only [perform,Function.update_apply] at found
      split at found
      · next same => cases found; exact .inr (by rw [same])
      · exact .inl found
    | _ => cases caches
  · rw [strategiesPerform caches] at found
    exact .inl found

theorem cachedFlows {g e t} (flows : Flows P g) (moved : Moved g e t) : ∀ id s, t.strategies id = some s → P id s := by
  intro id s cached
  cases moved with
  | call k ok c next effect found inner =>
    rcases cachedPerform cached with old | rfl
    · exact flows.cached id s old
    · rcases callArea inner with a | a | a | a <;> cases a
  | worker j o w next effect found inner =>
    rcases cachedPerform cached with old | rfl
    · exact flows.cached id s old
    · exact (workerCarries flows found inner).2 id s rfl
  | request k o r next effect found inner =>
    rcases cachedPerform cached with old | rfl
    · exact flows.cached id s old
    · exact (requestCarries flows found inner).2 id s rfl
  | _ => exact flows.cached id s cached

theorem workersFlow {g e t} (flows : Flows P g) (moved : Moved g e t) :
    ∀ w ∈ t.workers, ∀ sel r rest, w.pc = .selecting sel r rest → Carried P w.broadcast.groupId sel := by
  intro v member sel r rest at_
  obtain ⟨k,found⟩ := List.mem_iff_getElem?.mp member
  rcases workerOrigin moved found with ⟨b,_,rfl,_⟩ | ⟨w,old,rfl | rfl⟩ | ⟨o,w,effect,rfl,here,inner⟩
  · cases at_
  · exact flows.workers v (List.mem_of_getElem? old) sel r rest at_
  · exact flows.workers w (List.mem_of_getElem? old) sel r rest at_
  · rw [(workerKeeps inner).1]
    exact (workerCarries flows here inner).1 sel r rest at_

theorem requestsFlow {g e t} (flows : Flows P g) (moved : Moved g e t) :
    ∀ q ∈ t.requests, ∀ sel groupId input, q = .selecting sel groupId input → Carried P groupId sel := by
  cases moved with
  | call k ok c next effect found inner => rw [requestsPerform]; exact flows.requests
  | worker j o w next effect found inner => rw [requestsPerform]; exact flows.requests
  | send r =>
    intro q member sel groupId input same
    rcases List.mem_append.mp member with old | new
    · exact flows.requests q old sel groupId input same
    · cases List.mem_singleton.mp new
      cases same
  | request k o r next effect found inner =>
    rw [requestsPerform]
    intro q member sel groupId input same
    rcases List.mem_or_eq_of_mem_set member with old | rfl
    · exact flows.requests q old sel groupId input same
    · exact (requestCarries flows found inner).1 sel groupId input same
  | _ => exact flows.requests

theorem flowsStep {g e t} (flows : Flows P g) (moved : Moved g e t) : Flows P t := by
  refine ⟨fun id group s found => flows.made id group s ?_,cachedFlows flows moved,workersFlow flows moved,
    requestsFlow flows moved⟩
  rw [findGroup,← groupsMoved moved]
  exact found

end WppGateway.StrategyFlow
