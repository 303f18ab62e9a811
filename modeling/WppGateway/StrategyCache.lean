import WppGateway.HeldRows
import WppGateway.ReadThrough

/-! Updates of groups beside calls of SelectInstance. The map of strategies is a cache
that the calls fill from the rows; no handler calls InvalidateStrategy. -/
namespace WppGateway.StrategyCache
open Runs Domain Store Table Selection Gateway Transitions HeldRows Http ReadThrough

structure UpdateRequest where
  tenant : Option UUID
  group : Param
  body : Option (Option Strategy)

/- GroupHandler.Update. Here `written` is the place of the write among the group's. -/
inductive Updating where
  | received (q : UpdateRequest)
  | writing (groupId : UUID) (strategy : Option Strategy)
  | answering (groupId : UUID) (written : Option Nat)
  | answered (failure : Option Response)

inductive Choosing where
  | stage (sel : Selecting)
  | ended (result : Except SelectError Instance)
  deriving DecidableEq

/- One call of SelectInstance; `since` is the last write answered when it began. -/
structure Choice where
  groupId : UUID
  since : Option Nat
  stage : Choosing
  deriving DecidableEq

/- Here `writes` lists the strategies that updates have written, `answered` the place of the last answered one. -/
structure Serving where
  g : System
  updates : List Updating
  calls : List Choice
  writes : UUID → List Strategy
  answered : UUID → Option Nat

inductive Served where
  | update (q : UpdateRequest)
  | advance (k : Nat) (ok : Bool)
  | select (groupId : UUID)
  | choose (j : Nat) (o : Oracle)

def checkUpdate (s : Tables) (ok : Bool) (q : UpdateRequest) : Updating :=
  match q.tenant with
  | none => .answered (some (errUnauthorized fresh "Tenant not found"))
  | some tenant => match q.group.parsed with
    | none => .answered (some (errBadRequest fresh (invalidUUID q.group)))
    | some groupId =>
      if ok = false then .answered (some (errInternal fresh "Failed to get group"))
      else if (findGroup s groupId).any (fun group => group.tenantId == tenant) then
        match q.body with
        | none => .answered (some (errBadRequest fresh "Invalid request body"))
        | some strategy => .writing groupId strategy
      else .answered (some (errNotFound fresh "Group not found"))

def setStrategy (s : Tables) (id : UUID) (strategy : Strategy) : Tables :=
  {s with groups := update Group.id id (fun group => {group with strategy := strategy}) s.groups}

/- The CHECK of the column lets through what NewStrategy knows. -/
def accepted (strategy : Strategy) : Bool := (newStrategy strategy).isOk

def setUpdate (s : Serving) (k : Nat) (u : Updating) : Serving := {s with updates := s.updates.set k u}

/- COALESCE keeps the strategy that is not given; an UPDATE that finds no row writes none. -/
def writeStrategy (s : Serving) (k : Nat) (id : UUID) : Option Strategy → Serving
  | none => setUpdate s k (.answering id none)
  | some strategy =>
    if accepted strategy = false then setUpdate s k (.answered (some (errInternal fresh "Failed to update group")))
    else if (findGroup s.g.store id).isSome then
      {setUpdate s k (.answering id (some (s.writes id).length)) with
        g := write s.g (setStrategy s.g.store id strategy)
        writes := Function.update s.writes id (s.writes id ++ [strategy])}
    else setUpdate s k (.answering id none)

def advance (s : Serving) (k : Nat) (ok : Bool) : Updating → Option Serving
  | .received q => some (setUpdate s k (checkUpdate s.g.store ok q))
  | .writing id strategy =>
    if ok then some (writeStrategy s k id strategy)
    else some (setUpdate s k (.answered (some (errInternal fresh "Failed to update group"))))
  | .answering _ none => some (setUpdate s k (.answered none))
  | .answering id (some n) => some
      {setUpdate s k (.answered none) with answered := Function.update s.answered id (latest (s.answered id) n)}
  | .answered _ => none

def setChoice (s : Serving) (j : Nat) (c : Choice) (stage : Choosing) : Serving :=
  {s with calls := s.calls.set j {c with stage := stage}}

def choose (s : Serving) (j : Nat) (o : Oracle) (c : Choice) : Option Serving :=
  match c.stage with
  | .ended _ => none
  | .stage sel => match selectStep s.g c.groupId o.ok o sel with
    | none => none
    | some (.next later) => some (setChoice s j c (.stage later))
    | some (.cached strategy) => some
        {setChoice s j c (.stage (.listing strategy)) with g := perform s.g (.cacheStrategy c.groupId strategy)}
    | some (.failed e) => some (setChoice s j c (.ended (.error e)))
    | some (.chose i) => some (setChoice s j c (.ended (.ok i)))

def serve (s : Serving) : Served → Option Serving
  | .update q => some {s with updates := s.updates ++ [.received q]}
  | .advance k ok => do advance s k ok (← s.updates[k]?)
  | .select groupId => some {s with calls := s.calls ++ [⟨groupId,s.answered groupId,.stage .pauseCheck⟩]}
  | .choose j o => do choose s j o (← s.calls[j]?)

def opening (g : System) : Serving := ⟨g,[],[],fun _ => [],fun _ => none⟩

def UsesConfigured (s : Serving) : Prop :=
  ∀ c ∈ s.calls, ∀ strategy, c.stage = .stage (.listing strategy) → ∀ n, c.since = some n →
    ∃ m, n ≤ m ∧ (s.writes c.groupId)[m]? = some strategy

def strategyWrite (s : Serving) : Served → Option (UUID × Strategy)
  | .advance k true => match s.updates[k]? with
    | some (.writing id (some strategy)) =>
      if accepted strategy && (findGroup s.g.store id).isSome then some (id,strategy) else none
    | _ => none
  | _ => none

def filling : Choosing → Option Strategy
  | .stage (.cache strategy) => some strategy
  | _ => none

/- An update writes only the strategy that is cached for the group, or about to be, if there is one. -/
def KeepsStrategy (s : Serving) (e : Served) : Prop :=
  ∀ w ∈ strategyWrite s e, (∀ old ∈ s.g.strategies w.1, old = w.2) ∧
    ∀ c ∈ s.calls, c.groupId = w.1 → ∀ old ∈ filling c.stage, old = w.2

instance (s : Serving) (e : Served) : Decidable (KeepsStrategy s e) := by
  unfold KeepsStrategy; infer_instance

def stageOf : Choosing → Stage Strategy
  | .stage .pauseCheck | .stage .lookup => .asks
  | .stage .group => .reads
  | .stage (.cache strategy) => .fills strategy
  | .stage (.listing strategy) => .holds strategy
  | .ended _ => .gone

def reader (c : Choice) : Reader UUID Strategy := ⟨c.groupId,c.since,stageOf c.stage⟩

def rowStrategy (s : Tables) (id : UUID) : Option Strategy :=
  (findGroup s id).bind (fun group => (newStrategy group.strategy).toOption)

def cache (s : Serving) : Cache UUID Strategy :=
  ⟨rowStrategy s.g.store,s.writes,s.answered,s.g.strategies,s.calls.map reader⟩

def choiceAct (j : Nat) (c : Choice) (s : Serving) (o : Oracle) : Option (Act UUID Strategy) :=
  match c.stage with
  | .ended _ => none
  | .stage sel => match selectStep s.g c.groupId o.ok o sel with
    | some (.next .lookup) => none
    | some (.failed _) | some (.chose _) => some (.leave j)
    | _ => some (.read j)

def act (s : Serving) : Served → Option (Act UUID Strategy)
  | .update _ => none
  | .advance k ok => match s.updates[k]? with
    | some (.writing _ _) => (strategyWrite s (.advance k ok)).map (fun w => .write w.1 w.2)
    | some (.answering id (some n)) => some (.acknowledge id n)
    | _ => none
  | .select groupId => some (.begin_ groupId)
  | .choose j o => match s.calls[j]? with
    | some c => choiceAct j c s o
    | none => none

def Placed (s : Serving) : Prop :=
  ∀ u ∈ s.updates, ∀ id n, u = .answering id (some n) → n < (s.writes id).length

@[simp] theorem cacheUpdate (s : Serving) (k : Nat) (u : Updating) : cache (setUpdate s k u) = cache s := rfl

@[simp] theorem cacheChoice (s : Serving) (j : Nat) (c : Choice) (stage : Choosing) :
    cache (setChoice s j c stage) = setReader (cache s) j {reader c with stage := stageOf stage} := by
  simp [cache,setChoice,setReader,List.map_set,reader]

theorem readerFound {s : Serving} {j : Nat} {c : Choice} (found : s.calls[j]? = some c) :
    (cache s).readers[j]? = some (reader c) := by
  simp [cache,found]

theorem readerStays {s : Serving} {j : Nat} {c : Choice} (found : s.calls[j]? = some c) {stage : Choosing}
    (same : stageOf stage = stageOf c.stage) : cache (setChoice s j c stage) = cache s := by
  obtain ⟨inside,here⟩ := List.getElem?_eq_some_iff.mp (readerFound found)
  have kept : {reader c with stage := stageOf stage} = reader c := by rw [same]; rfl
  rw [cacheChoice,kept,setReader,← here,List.set_getElem_self]

theorem readerLeaves {s : Serving} {j : Nat} {c : Choice} (found : s.calls[j]? = some c)
    (result : Except SelectError Instance) :
    ReadThrough.step (cache s) (.leave j) = some (cache (setChoice s j c (.ended result))) := by
  rw [cacheChoice]
  simp only [ReadThrough.step,readerFound found,bind,Option.bind]
  rfl

theorem choiceFollows {s t : Serving} {j : Nat} {o : Oracle} {c : Choice} (found : s.calls[j]? = some c)
    (moved : choose s j o c = some t) : Follows ReadThrough.step (cache s) (cache t) (choiceAct j c s o) := by
  unfold choose at moved
  unfold choiceAct
  cases at_ : c.stage with
  | ended result => simp only [at_] at moved; cases moved
  | stage sel =>
    have stage : (reader c).stage = stageOf (.stage sel) := congrArg stageOf at_
    simp only [at_] at moved ⊢
    cases selected : selectStep s.g c.groupId o.ok o sel with
    | none => simp only [selected] at moved; cases moved
    | some result =>
      simp only [selected] at moved ⊢
      cases selectStepSource selected with
      | running => cases moved; exact readerStays found (by rw [at_]; rfl)
      | known strategy cached =>
        cases moved
        have entered : (cache s).entry (reader c).key = some strategy := cached
        rw [cacheChoice]
        simp only [Follows,ReadThrough.step,readerFound found,bind,Option.bind,stage,entered,stageOf]
      | misses uncached =>
        cases moved
        have empty : (cache s).entry (reader c).key = none := uncached
        rw [cacheChoice]
        simp only [Follows,ReadThrough.step,readerFound found,bind,Option.bind,stage,empty,stageOf]
      | made group strategy answered row made =>
        cases moved
        have reads : (cache s).row (reader c).key = some strategy := by
          simp only [cache,rowStrategy,reader,row,Option.bind_some,made]
          rfl
        rw [cacheChoice]
        simp only [Follows,ReadThrough.step,readerFound found,bind,Option.bind,stage,reads,stageOf]
      | caches strategy =>
        cases moved
        simp only [Follows,ReadThrough.step,readerFound found,bind,Option.bind,stage,stageOf]
        simp [cache,setChoice,setReader,perform,List.map_set,reader,stageOf]
      | _ => cases moved; exact readerLeaves found _

theorem acceptedNew {strategy : Strategy} (passes : accepted strategy = true) : newStrategy strategy = .ok strategy := by
  cases strategy <;> first | rfl | cases passes

theorem findAfter (s : Tables) (id : UUID) (strategy : Strategy) (k : UUID) :
    findGroup (setStrategy s id strategy) k =
      (findGroup s k).map (fun group => if group.id = id then {group with strategy := strategy} else group) := by
  simp only [findGroup,setStrategy,update,List.find?_map]
  congr 2
  funext group
  simp only [Function.comp_apply]
  split <;> rfl

theorem rowWritten {s : Tables} {id : UUID} {strategy : Strategy} (passes : accepted strategy = true)
    (found : (findGroup s id).isSome = true) :
    rowStrategy (setStrategy s id strategy) = Function.update (rowStrategy s) id (some strategy) := by
  funext k
  unfold rowStrategy
  rw [findAfter]
  by_cases here : k = id
  · subst here
    obtain ⟨group,row⟩ := Option.isSome_iff_exists.mp found
    have own : group.id = k := (findMember row).2
    rw [row,Function.update_self,Option.map_some,Option.bind_some,if_pos own,acceptedNew passes]
    rfl
  · rw [Function.update_of_ne here]
    cases row : findGroup s k with
    | none => rfl
    | some group =>
      have other : group.id ≠ id := by rw [(findMember row).2]; exact here
      rw [Option.map_some,if_neg other]

theorem advanceFollows {s t : Serving} {k : Nat} {ok : Bool} {u : Updating} (placed : Placed s)
    (found : s.updates[k]? = some u) (moved : advance s k ok u = some t) :
    Follows ReadThrough.step (cache s) (cache t) (act s (.advance k ok)) := by
  cases u with
  | received q => cases moved; simp [act,found,Follows]
  | writing id strategy =>
    simp only [act,found]
    cases ok with
    | false => cases moved; simp [strategyWrite,Follows]
    | true =>
      simp only [advance,if_true] at moved
      cases moved
      cases strategy with
      | none => simp [strategyWrite,found,writeStrategy,Follows]
      | some strategy =>
        simp only [strategyWrite,found,writeStrategy]
        cases passes : accepted strategy with
        | false => simp [Follows]
        | true =>
          cases here : (findGroup s.g.store id).isSome with
          | false => simp [Follows]
          | true =>
            have row := rowWritten passes here
            simp only [Bool.and_self,if_true,Bool.true_eq_false,if_false,Option.map_some,Follows,ReadThrough.step]
            simp only [cache,write,row]
            rfl
  | answering id written =>
    cases written with
    | none => cases moved; simp [act,found,Follows]
    | some n =>
      cases moved
      have place : n < ((cache s).writes id).length := placed _ (List.mem_of_getElem? found) id n rfl
      simp only [act,found,Follows,ReadThrough.step,if_pos place]
      rfl
  | answered failure => cases moved

theorem placedSet {s : Serving} {k : Nat} {u : Updating} {writes : UUID → List Strategy} (placed : Placed s)
    (grown : ∀ id, (s.writes id).length ≤ (writes id).length)
    (place : ∀ id n, u = .answering id (some n) → n < (writes id).length) :
    ∀ v ∈ s.updates.set k u, ∀ id n, v = .answering id (some n) → n < (writes id).length := by
  intro v member id n waits
  rcases List.mem_or_eq_of_mem_set member with old | rfl
  · exact (placed v old id n waits).trans_le (grown id)
  · exact place id n waits

theorem placedAdvance {s t : Serving} {k : Nat} {ok : Bool} {u : Updating} (placed : Placed s)
    (moved : advance s k ok u = some t) : Placed t := by
  have plain : ∀ v : Updating, (∀ id n, v ≠ .answering id (some n)) → Placed (setUpdate s k v) :=
    fun v other => placedSet placed (fun _ => le_rfl) (fun id n same => absurd same (other id n))
  cases u with
  | received q =>
    cases moved
    refine plain _ (fun id n => ?_)
    unfold checkUpdate
    split
    · nofun
    split
    · nofun
    split
    · nofun
    split
    · split <;> nofun
    · nofun
  | writing id strategy =>
    simp only [advance] at moved
    split at moved <;> cases moved
    · cases strategy with
      | none => exact plain _ (fun _ _ => nofun)
      | some strategy =>
        simp only [writeStrategy]
        split
        · exact plain _ (fun _ _ => nofun)
        · split
          · refine placedSet placed (fun id' => ?_) (fun id' n same => ?_)
            · by_cases here : id' = id
              · subst here; simp
              · simp [Function.update_of_ne here]
            · cases same; simp
          · exact plain _ (fun _ _ => nofun)
    · exact plain _ (fun _ _ => nofun)
  | answering id written =>
    cases written with
    | none => cases moved; exact plain _ (fun _ _ => nofun)
    | some n => cases moved; exact plain _ (fun _ _ => nofun)
  | answered failure => cases moved

theorem served {s t : Serving} {e : Served} (placed : Placed s) (moved : serve s e = some t) :
    Placed t ∧ Follows ReadThrough.step (cache s) (cache t) (act s e) := by
  cases e with
  | update q =>
    cases moved
    refine ⟨fun u member id n waits => ?_,rfl⟩
    rcases List.mem_append.mp member with old | new
    · exact placed u old id n waits
    · cases List.mem_singleton.mp new
      cases waits
  | advance k ok =>
    simp only [serve,bind,Option.bind_eq_some_iff] at moved
    obtain ⟨u,found,moved⟩ := moved
    exact ⟨placedAdvance placed moved,advanceFollows placed found moved⟩
  | select groupId =>
    cases moved
    exact ⟨placed,by simp [act,Follows,ReadThrough.step,cache,reader,stageOf]⟩
  | choose j o =>
    simp only [serve,bind,Option.bind_eq_some_iff] at moved
    obtain ⟨c,found,moved⟩ := moved
    refine ⟨?_,by simpa only [act,found] using choiceFollows found moved⟩
    unfold choose at moved
    split at moved
    · cases moved
    · split at moved <;> cases moved <;> exact placed

theorem unrivalled {s : Serving} {e : Served} (keeps : KeepsStrategy s e) : ∀ a ∈ act s e, Unrivalled (cache s) a := by
  intro a same
  cases a with
  | write id strategy =>
    have writes : strategyWrite s e = some (id,strategy) := by
      cases e with
      | advance k ok =>
        simp only [act,Option.mem_def] at same
        split at same
        · obtain ⟨w,wrote,pair⟩ := Option.map_eq_some_iff.mp same
          cases pair
          exact wrote
        · cases same
        · cases same
      | choose j o =>
        simp only [act,choiceAct,Option.mem_def] at same
        repeat' split at same
        all_goals cases same
      | update q => cases same
      | select groupId => cases same
    obtain ⟨cached,fills⟩ := keeps (id,strategy) writes
    refine ⟨cached,fun r member own old at_ => ?_⟩
    obtain ⟨c,inside,rfl⟩ := List.mem_map.mp member
    refine fills c inside own old ?_
    obtain ⟨groupId,since,stage⟩ := c
    cases stage with
    | ended result => cases at_
    | stage sel =>
      cases sel <;> cases at_
      rfl
  | _ => trivial

theorem configuredStep (s : Serving) (e : Served) (t : Serving) (inv : Placed s ∧ Current (cache s))
    (keeps : KeepsStrategy s e) (moved : serve s e = some t) : Placed t ∧ Current (cache t) := by
  obtain ⟨placed,follows⟩ := served inv.1 moved
  refine ⟨placed,?_⟩
  have safe := unrivalled keeps
  cases seen : act s e with
  | none =>
    rw [seen] at follows
    rw [show cache t = cache s from follows]
    exact inv.2
  | some a =>
    rw [seen] at follows
    exact currentStep inv.2 (safe a seen) follows

/-- Where updates write only what the map holds or is about to, every call uses the strategy of the last update answered
before it began, or a later one. -/
theorem configuredRun (g : System) (events : List Served) (keeps : Guarded serve KeepsStrategy (opening g) events) :
    Throughout serve UsesConfigured (opening g) events := by
  have start : Placed (opening g) ∧ Current (cache (opening g)) := by
    refine ⟨fun u member => (by cases member),?_,?_,?_,?_,?_,?_⟩
    · intro k v _ w last; cases last
    · intro k v _ w last; cases last
    · intro r member; cases member
    · intro k n answered; cases answered
    · intro r member; cases member
    · intro r member; cases member
  refine throughoutMono (fun s inv c member strategy at_ => ?_) (guardedThroughout configuredStep start keeps)
  exact inv.2.held (reader c) (List.mem_map_of_mem member) strategy (by simp [reader,at_,stageOf])

def updateTo (strategy : Strategy) : UpdateRequest := ⟨some 100,sampleParam 1,some (some strategy)⟩

def updates (k : Nat) (strategy : Strategy) : List Served :=
  [.update (updateTo strategy),.advance k true,.advance k true,.advance k true]

def chooses (j n : Nat) : List Served := .select 1::List.replicate n (.choose j accepts)

theorem earlyUpdateConfigured : Throughout serve UsesConfigured (opening (boot (sampleTables [])))
    (updates 0 .hybrid ++ chooses 0 5 ++ chooses 1 3) :=
  configuredRun _ _ (guardedChecks (by decide +kernel))

def lateUpdate : List Served := chooses 0 5 ++ updates 0 .failover ++ chooses 1 2

def staleCall : Choice := ⟨1,some 0,.stage (.listing .rotation)⟩

theorem staleStrategy :
    (run serve (opening (boot (sampleTables []))) lateUpdate).map (fun s => (s.writes 1,s.calls[1]?)) =
      some ([.failover],some staleCall) ∧
    ¬ Throughout serve UsesConfigured (opening (boot (sampleTables []))) lateUpdate := by
  have ends : (run serve (opening (boot (sampleTables []))) lateUpdate).map (fun s => (s.writes 1,s.calls[1]?)) =
      some ([.failover],some staleCall) := by decide +kernel
  refine ⟨ends,fun always => ?_⟩
  obtain ⟨s,ran,after⟩ := Option.map_eq_some_iff.mp ends
  obtain ⟨written,found⟩ := Prod.mk.inj after
  obtain ⟨m,_,used⟩ := throughoutEnd always ran staleCall (List.mem_of_getElem? found) .rotation rfl 0 rfl
  have wrote : (s.writes 1)[m]? = some .rotation := used
  rw [written] at wrote
  cases List.mem_singleton.mp (List.mem_of_getElem? wrote)

end WppGateway.StrategyCache
