import WppGateway.Leaders
import WppGateway.StrategyFlow

/-! SelectInstance from its call to its answer. Each strategy answers with a leader of
the connected instances: by priority, or by what is left of the day among those with
something left. -/
namespace WppGateway.InstanceChoice
open Runs Domain Store Selection Gateway Transitions HeldRows StrategyFlow Leaders

def Known (s : Strategy) : Prop := newStrategy s = .ok s

instance (s : Strategy) : Decidable (Known s) := by
  cases s
  case other name => exact isFalse (fun known => (by cases known))
  all_goals exact isTrue rfl

structure Orchestrator extends System where
  known : ∀ id s, strategies id = some s → Known s

structure Lookups where
  groupError : Option String
  listing : Except String (List Instance)
  connected : UUID → Bool

def readStrategy (looked : System) (groupId : UUID) (groupError : Option String) : Except SelectError Strategy :=
  match groupError with
  | some err => .error (.findGroup err)
  | none => match findGroup looked.store groupId with
    | none => .error .groupNotFound
    | some group => newStrategy group.strategy

/- Other processes may act between the look at the map of strategies and the look at the row. -/
def getStrategy (mapped looked : System) (groupId : UUID) (groupError : Option String) : Except SelectError Strategy :=
  match mapped.strategies groupId with
  | some s => .ok s
  | none => readStrategy looked groupId groupError

def chooseConnected (s : Strategy) (a : Lookups) : Except SelectError Instance :=
  match a.listing with
  | .error err => .error (.findAvailable err)
  | .ok instances => match instances.filter (fun i => a.connected i.id) with
    | [] => .error .noConnected
    | connected => strategySelect s connected

/- They may also act after the look at the pause flag. -/
def selectInstance (asked mapped looked : System) (groupId : UUID) (a : Lookups) : Except SelectError Instance :=
  if asked.paused groupId then .error .paused
  else match getStrategy mapped looked groupId a.groupError with
    | .error e => .error e
    | .ok s => chooseConnected s a

def hasRoom (i : Instance) : Bool := 0 < dailyRemaining i && 0 < hourRemaining i

def rank : Strategy → Instance → Int
  | .failover => Instance.priority
  | _ => dailyRemaining

def fits : Strategy → Instance → Bool
  | .failover => fun _ => true
  | _ => hasRoom

theorem knownNew {s t : Strategy} (made : newStrategy s = .ok t) : Known t := by
  cases s <;> cases made <;> rfl

theorem failoverLeader (instances : List Instance) :
    failoverSelect instances = match leader Instance.priority instances with
      | none => .error .noAvailable
      | some best => .ok best := by
  cases instances with
  | nil => rfl
  | cons first rest =>
    simp only [failoverSelect,List.foldl_cons,lt_irrefl,gt_iff_lt,if_false]
    rfl

theorem rotationSkip {start : Option Instance × Int} {i : Instance} (spent : hasRoom i = false) :
    rotationTurn start i = start := by
  simp only [hasRoom,Bool.and_eq_false_iff,decide_eq_false_iff_not,not_lt] at spent
  unfold rotationTurn
  rcases spent with day | hour
  · rw [if_pos day]
  · rw [if_pos hour,ite_self]

theorem rotationTake {best : Option Instance} {remaining : Int} {i : Instance} (room : hasRoom i = true) :
    rotationTurn (best,remaining) i = if remaining < dailyRemaining i then (some i,dailyRemaining i) else (best,remaining) := by
  simp only [hasRoom,Bool.and_eq_true,decide_eq_true_eq] at room
  unfold rotationTurn
  rw [if_neg (by omega),if_neg (by omega)]

theorem rotationScan (instances : List Instance) (start : Instance) :
    instances.foldl rotationTurn (some start,dailyRemaining start) =
      (some ((instances.filter hasRoom).foldl (better dailyRemaining) start),
        dailyRemaining ((instances.filter hasRoom).foldl (better dailyRemaining) start)) := by
  induction instances generalizing start with
  | nil => rfl
  | cons i rest ih =>
    rw [List.foldl_cons,List.filter_cons]
    cases room : hasRoom i with
    | false => rw [rotationSkip room]; simpa using ih start
    | true =>
      rw [rotationTake room,if_pos rfl,List.foldl_cons,better]
      split
      · exact ih i
      · exact ih start

theorem rotationBest (instances : List Instance) :
    (instances.foldl rotationTurn (none,-1)).1 = leader dailyRemaining (instances.filter hasRoom) := by
  induction instances with
  | nil => rfl
  | cons i rest ih =>
    rw [List.foldl_cons,List.filter_cons]
    cases room : hasRoom i with
    | false => rw [rotationSkip room]; simpa using ih
    | true =>
      -- what is left is positive, so the first instance with room replaces the start value -1
      have positive : 0 < dailyRemaining i := by simp [hasRoom] at room; exact room.1
      rw [rotationTake room,if_pos (by omega),if_pos rfl,rotationScan]
      rfl

theorem rotationLeader (instances : List Instance) :
    rotationSelect instances = match leader dailyRemaining (instances.filter hasRoom) with
      | none => .error (if instances = [] then .noAvailable else .exhausted)
      | some best => .ok best := by
  cases instances with
  | nil => rfl
  | cons i rest =>
    simp only [rotationSelect,rotationBest]
    rfl

theorem hybridRotation (instances : List Instance) : hybridSelect instances = rotationSelect instances := by
  cases instances <;> rfl

theorem selectedLeader {s : Strategy} (known : Known s) (instances : List Instance) :
    ∃ e, strategySelect s instances = match leader (rank s) (instances.filter (fits s)) with
      | none => .error e
      | some best => .ok best := by
  cases s with
  | failover =>
    have all : instances.filter (fits .failover) = instances := List.filter_true instances
    exact ⟨.noAvailable,by rw [all]; exact failoverLeader instances⟩
  | rotation => exact ⟨_,rotationLeader instances⟩
  | hybrid => exact ⟨_,(hybridRotation instances).trans (rotationLeader instances)⟩
  | other name => cases known

theorem selectedIff {s : Strategy} (known : Known s) {instances : List Instance} {i : Instance} :
    strategySelect s instances = .ok i ↔ Leads (rank s) (instances.filter (fits s)) i := by
  obtain ⟨e,selects⟩ := selectedLeader known instances
  rw [selects,← leaderIff]
  cases leader (rank s) (instances.filter (fits s)) <;> simp

theorem refusedIff {s : Strategy} (known : Known s) {instances : List Instance} :
    (∃ e, strategySelect s instances = .error e) ↔ instances.filter (fits s) = [] := by
  obtain ⟨e,selects⟩ := selectedLeader known instances
  have none_ : leader (rank s) (instances.filter (fits s)) = none ↔ instances.filter (fits s) = [] := leaderNone
  rw [selects,← none_]
  cases leader (rank s) (instances.filter (fits s)) <;> simp

theorem chosenIff {s : Strategy} {a : Lookups} {i : Instance} :
    chooseConnected s a = .ok i ↔ ∃ instances, a.listing = .ok instances ∧
      strategySelect s (instances.filter (fun k => a.connected k.id)) = .ok i := by
  unfold chooseConnected
  cases a.listing with
  | error err => simp
  | ok instances =>
    simp only [Except.ok.injEq,exists_eq_left']
    split
    · next none_ =>
      refine ⟨fun failed => (by cases failed),fun chosen => ?_⟩
      rw [none_] at chosen
      exact absurd (selectMember chosen) List.not_mem_nil
    · exact Iff.rfl

theorem unchosenIff {s : Strategy} {a : Lookups} {instances : List Instance} (listed : a.listing = .ok instances) :
    (∃ e, chooseConnected s a = .error e) ↔
      ∃ e, strategySelect s (instances.filter (fun k => a.connected k.id)) = .error e := by
  simp only [chooseConnected,listed]
  split
  · next none_ =>
    refine ⟨fun _ => ?_,fun _ => ⟨_,rfl⟩⟩
    rw [none_]
    cases s <;> exact ⟨_,rfl⟩
  · exact Iff.rfl

theorem selectedInstance {asked mapped looked : System} {groupId : UUID} {a : Lookups} {i : Instance} :
    selectInstance asked mapped looked groupId a = .ok i ↔ asked.paused groupId = false ∧ ∃ s,
      getStrategy mapped looked groupId a.groupError = .ok s ∧ chooseConnected s a = .ok i := by
  unfold selectInstance
  cases asked.paused groupId with
  | true => simp
  | false => cases getStrategy mapped looked groupId a.groupError <;> simp

/-! The machine makes the call in stages; others may move between them. -/

inductive Calls (groupId : UUID) :
    Selecting → List (System × Bool × Oracle) → Except SelectError Instance → Prop where
  | next {g live o sel later met result} (moved : selectStep g groupId live o sel = some (.next later))
      (rest : Calls groupId later met result) : Calls groupId sel ((g,live,o)::met) result
  | cached {g live o sel s met result} (moved : selectStep g groupId live o sel = some (.cached s))
      (rest : Calls groupId (.listing s) met result) : Calls groupId sel ((g,live,o)::met) result
  | failed {g live o sel e} (moved : selectStep g groupId live o sel = some (.failed e)) :
      Calls groupId sel [(g,live,o)] (.error e)
  | chose {g live o sel i} (moved : selectStep g groupId live o sel = some (.chose i)) :
      Calls groupId sel [(g,live,o)] (.ok i)

theorem listingStep {g : System} {groupId : UUID} {live : Bool} {o : Oracle} {s : Strategy} {r : Selected}
    (moved : selectStep g groupId live o (.listing s) = some r) :
    r = match chooseConnected s ⟨none,if live then .ok o.listing else .error o.err,o.connected⟩ with
      | .error e => .failed e
      | .ok i => .chose i := by
  cases selectStepSource moved with
  | unlisted s lost => simp [chooseConnected,lost]
  | nobody s answered listing empty => simp only [chooseConnected,answered,if_true,empty]
  | exhausted s e answered listing some_ failed => simp only [chooseConnected,answered,if_true,failed]
  | chosen s inst answered listing some_ chosen => simp only [chooseConnected,answered,if_true,chosen]

theorem listingCalls {groupId : UUID} {s : Strategy} {met : List (System × Bool × Oracle)}
    {result : Except SelectError Instance} (calls : Calls groupId (.listing s) met result) :
    ∃ a : Lookups, a.groupError = none ∧ result = chooseConnected s a := by
  cases calls with
  | next moved rest => cases selectStepSource moved
  | cached moved rest => cases selectStepSource moved
  | @failed g live o _ e moved =>
    refine ⟨⟨none,if live then .ok o.listing else .error o.err,o.connected⟩,rfl,?_⟩
    have answer := listingStep moved
    split at answer <;> cases answer
    next made => exact made.symm
  | @chose g live o _ i moved =>
    refine ⟨⟨none,if live then .ok o.listing else .error o.err,o.connected⟩,rfl,?_⟩
    have answer := listingStep moved
    split at answer <;> cases answer
    next made => exact made.symm

theorem groupCalls {groupId : UUID} {met : List (System × Bool × Oracle)} {result : Except SelectError Instance}
    (calls : Calls groupId .group met result) : ∃ m ∈ met, ∃ a : Lookups,
      result = match readStrategy m.1 groupId a.groupError with
        | .error e => .error e
        | .ok s => chooseConnected s a := by
  cases calls with
  | @next g live o _ later met _ moved rest =>
    refine ⟨_,List.mem_cons_self,?_⟩
    cases selectStepSource moved with
    | made group s answered found made =>
      cases rest with
      | cached moved rest =>
        cases moved
        obtain ⟨a,answered,rfl⟩ := listingCalls rest
        exact ⟨a,by simp only [readStrategy,answered,found,made]⟩
      | _ moved => cases moved
  | @cached g live o _ s met _ moved rest => cases selectStepSource moved
  | @failed g live o _ e moved =>
    refine ⟨_,List.mem_cons_self,⟨if live then none else some o.err,.ok [],o.connected⟩,?_⟩
    cases selectStepSource moved with
    | unread lost => simp [readStrategy,lost]
    | absent answered missing => simp [readStrategy,answered,missing]
    | unknown group e answered found unknown => simp [readStrategy,answered,found,unknown]
  | @chose g live o _ i moved => cases selectStepSource moved

theorem lookupCalls {groupId : UUID} {met : List (System × Bool × Oracle)} {result : Except SelectError Instance}
    (calls : Calls groupId .lookup met result) : ∃ m ∈ met, ∃ n ∈ met, ∃ a : Lookups,
      result = match getStrategy m.1 n.1 groupId a.groupError with
        | .error e => .error e
        | .ok s => chooseConnected s a := by
  cases calls with
  | @next g live o _ later met _ moved rest =>
    cases selectStepSource moved with
    | known s cached =>
      obtain ⟨a,_,rfl⟩ := listingCalls rest
      exact ⟨_,List.mem_cons_self,_,List.mem_cons_self,a,by simp only [getStrategy,cached]⟩
    | misses uncached =>
      obtain ⟨n,member,a,rfl⟩ := groupCalls rest
      refine ⟨_,List.mem_cons_self,n,List.mem_cons_of_mem _ member,a,?_⟩
      simp only [getStrategy,uncached]
  | @cached g live o _ s met _ moved rest => cases selectStepSource moved
  | @failed g live o _ e moved => cases selectStepSource moved
  | @chose g live o _ i moved => cases selectStepSource moved

theorem callsSelect {groupId : UUID} {met : List (System × Bool × Oracle)} {result : Except SelectError Instance}
    (calls : Calls groupId .pauseCheck met result) : ∃ asked ∈ met, ∃ mapped ∈ met, ∃ looked ∈ met, ∃ a : Lookups,
      result = selectInstance asked.1 mapped.1 looked.1 groupId a := by
  cases calls with
  | @next g live o _ later met _ moved rest =>
    cases selectStepSource moved with
    | running running =>
      obtain ⟨m,member,n,other,a,same⟩ := lookupCalls rest
      refine ⟨_,List.mem_cons_self,m,List.mem_cons_of_mem _ member,n,List.mem_cons_of_mem _ other,a,?_⟩
      rw [same,selectInstance,running]
      rfl
  | cached moved rest => cases selectStepSource moved
  | @failed g live o _ e moved =>
    refine ⟨_,List.mem_cons_self,_,List.mem_cons_self,_,List.mem_cons_self,⟨none,.ok [],o.connected⟩,?_⟩
    cases selectStepSource moved with
    | paused paused => rw [selectInstance,if_pos paused]
  | chose moved => cases selectStepSource moved

def UsesStrategy (mapped looked : System) (groupId : UUID) (s : Strategy) : Prop :=
  mapped.strategies groupId = some s ∨ (mapped.strategies groupId = none ∧ ∃ group,
    findGroup looked.store groupId = some group ∧ newStrategy group.strategy = .ok s)

theorem getStrategyUses {mapped looked : System} {groupId : UUID} {err : Option String} {s : Strategy}
    (found : getStrategy mapped looked groupId err = .ok s) : UsesStrategy mapped looked groupId s := by
  unfold getStrategy at found
  split at found
  · next cached => cases found; exact .inl cached
  · next uncached =>
    unfold readStrategy at found
    split at found
    · cases found
    · split at found
      · cases found
      · next group row => exact .inr ⟨uncached,group,row,found⟩

theorem getStrategyKnown {g : Orchestrator} {looked : System} {groupId : UUID} {err : Option String} {s : Strategy}
    (found : getStrategy g.toSystem looked groupId err = .ok s) : Known s := by
  rcases getStrategyUses found with cached | ⟨_,group,_,made⟩
  · exact g.known groupId s cached
  · exact knownNew made

def Optimal (connected : Instance → Bool) (instances : List Instance) (i : Instance) : Strategy → Prop
  | .failover => ∀ k ∈ instances, connected k = true → k.priority ≤ i.priority
  | .rotation | .hybrid =>
    0 < dailyRemaining i ∧ 0 < hourRemaining i ∧
    (∀ k ∈ instances, connected k = true → hasRoom k = true → dailyRemaining k ≤ dailyRemaining i) ∧
    ∃ before after, instances = before ++ i::after ∧
      ∀ k ∈ before, connected k = true → hasRoom k = true → dailyRemaining k < dailyRemaining i
  | .other _ => False

theorem optimalLeads {s : Strategy} (known : Known s) {connected : Instance → Bool} {instances : List Instance}
    {i : Instance} (leads : Leads (rank s) ((instances.filter connected).filter (fits s)) i) :
    Optimal connected instances i s := by
  have room := (List.mem_filter.mp leads.member).2
  have most : ∀ k ∈ instances, connected k = true → fits s k = true → rank s k ≤ rank s i :=
    fun k member joined pass => leads.most k (List.mem_filter.mpr ⟨List.mem_filter.mpr ⟨member,joined⟩,pass⟩)
  rw [List.filter_filter] at leads
  obtain ⟨before,after,split,early⟩ := leadsFilter leads
  have first : ∀ k ∈ before, connected k = true → fits s k = true → rank s k < rank s i :=
    fun k member joined pass => early k member (by rw [joined,pass]; rfl)
  cases s with
  | failover => exact fun k member joined => most k member joined rfl
  | rotation | hybrid =>
    simp only [fits,hasRoom,Bool.and_eq_true,decide_eq_true_eq] at room
    exact ⟨room.1,room.2,most,before,after,split,first⟩
  | other name => cases known

theorem budgetedFits {s : Strategy} (known : Known s) {k : Instance} (unfit : fits s k = false) :
    Budgeted s ∧ hasRoom k = false := by
  cases s with
  | failover => cases unfit
  | rotation | hybrid => exact ⟨trivial,unfit⟩
  | other name => cases known

/-- SelectInstance answers with an optimal connected instance of the listing and only in a running group, by the strategy
that is cached or, where none is, by the row's; with its lookups answered it fails only where none is connected or none of
the connected has room. -/
theorem selectionCorrect (asked mapped looked : Orchestrator) (groupId : UUID) (a : Lookups) :
    (∀ i, selectInstance asked.toSystem mapped.toSystem looked.toSystem groupId a = .ok i →
      asked.paused groupId = false ∧ ∃ s instances,
        getStrategy mapped.toSystem looked.toSystem groupId a.groupError = .ok s ∧
        UsesStrategy mapped.toSystem looked.toSystem groupId s ∧
        a.listing = .ok instances ∧ i ∈ instances ∧ a.connected i.id = true ∧
        Optimal (fun k => a.connected k.id) instances i s) ∧
    (∀ s instances e, asked.paused groupId = false →
      getStrategy mapped.toSystem looked.toSystem groupId a.groupError = .ok s →
      a.listing = .ok instances → selectInstance asked.toSystem mapped.toSystem looked.toSystem groupId a = .error e →
      (∀ k ∈ instances, a.connected k.id = false) ∨
      (Budgeted s ∧ ∀ k ∈ instances, a.connected k.id = true → hasRoom k = false)) := by
  constructor
  · intro i selected
    obtain ⟨running,s,found,made⟩ := selectedInstance.mp selected
    obtain ⟨instances,listed,chosen⟩ := chosenIff.mp made
    have known := getStrategyKnown found
    have member := List.mem_filter.mp (selectMember chosen)
    exact ⟨running,s,instances,found,getStrategyUses found,listed,member.1,member.2,
      optimalLeads known ((selectedIff known).mp chosen)⟩
  · intro s instances e running found listed failed
    have known := getStrategyKnown found
    simp only [selectInstance,running,found,Bool.false_eq_true,if_false] at failed
    have refused := (unchosenIff listed).mp ⟨e,failed⟩
    have unfit := List.filter_eq_nil_iff.mp ((refusedIff known).mp refused)
    by_cases none_ : ∀ k ∈ instances, a.connected k.id = false
    · exact .inl none_
    · right
      have spent : ∀ k ∈ instances, a.connected k.id = true → fits s k = false :=
        fun k member joined => by simpa using unfit k (List.mem_filter.mpr ⟨member,joined⟩)
      simp only [not_forall,Bool.not_eq_false] at none_
      obtain ⟨k,member,joined⟩ := none_
      exact ⟨(budgetedFits known (spent k member joined)).1,
        fun k member joined => (budgetedFits known (spent k member joined)).2⟩

def pairOrchestrator : Orchestrator :=
  ⟨boot ⟨[sampleGroup],[],[],[],[]⟩,fun id s cached => (by cases cached)⟩

def pairListing : List Instance :=
  [{sampleInstance with id := 12, priority := 2},{sampleInstance with id := 13, priority := 1, messagesToday := 5},
    {sampleInstance with id := 14, messagesToday := 5}]

def pairLookups : Lookups := ⟨none,.ok pairListing,fun id => id != 12⟩

theorem pairSelects : ∃ s instances,
    getStrategy pairOrchestrator.toSystem pairOrchestrator.toSystem 1 none = .ok s ∧
    pairLookups.listing = .ok instances ∧
    Optimal (fun k => pairLookups.connected k.id) instances {sampleInstance with id := 13, priority := 1, messagesToday := 5} s := by
  obtain ⟨_,s,instances,found,_,listed,_,_,optimal⟩ :=
    (selectionCorrect pairOrchestrator pairOrchestrator pairOrchestrator 1 pairLookups).1
    {sampleInstance with id := 13, priority := 1, messagesToday := 5} (by decide +kernel)
  exact ⟨s,instances,found,listed,optimal⟩

end WppGateway.InstanceChoice
