import WppGateway.Domain

/-! The three strategies and the errors of SelectInstance. -/
namespace WppGateway.Selection
open Domain

inductive SelectError where
  | paused
  | findGroup (err : String)
  | groupNotFound
  | unknownStrategy (name : String)
  | findAvailable (err : String)
  | noConnected
  | noAvailable
  | exhausted
  deriving DecidableEq, Repr

def SelectError.message : SelectError → String
  | .paused => "group is paused"
  | .findGroup err => "failed to find group: " ++ err
  | .groupNotFound => "group not found"
  | .unknownStrategy name => "unknown strategy: " ++ name
  | .findAvailable err => "failed to find available instances: " ++ err
  | .noConnected => "no connected instances available in group"
  | .noAvailable => "no available instances"
  | .exhausted => "all instances exhausted their budget"

def newStrategy : Strategy → Except SelectError Strategy
  | .other name => .error (.unknownStrategy name)
  | s => .ok s

def failoverSelect : List Instance → Except SelectError Instance
  | [] => .error .noAvailable
  | first::rest => .ok ((first::rest).foldl (fun best i => if i.priority > best.priority then i else best) first)

def dailyRemaining (i : Instance) : Int := i.dailyBudget - i.messagesToday
def hourRemaining (i : Instance) : Int := i.hourlyBudget - i.messagesHour

def rotationTurn (best : Option Instance × Int) (i : Instance) : Option Instance × Int :=
  if dailyRemaining i ≤ 0 then best
  else if hourRemaining i ≤ 0 then best
  else if dailyRemaining i > best.2 then (some i,dailyRemaining i) else best

def rotationSelect : List Instance → Except SelectError Instance
  | [] => .error .noAvailable
  | instances => match (instances.foldl rotationTurn (none,-1)).1 with
    | none => .error .exhausted
    | some best => .ok best

def hybridSelect : List Instance → Except SelectError Instance
  | [] => .error .noAvailable
  | instances => rotationSelect instances

def strategySelect : Strategy → List Instance → Except SelectError Instance
  | .failover => failoverSelect
  | .rotation => rotationSelect
  | .hybrid => hybridSelect
  | .other name => fun _ => .error (.unknownStrategy name)

def Budgeted : Strategy → Prop
  | .rotation | .hybrid => True
  | _ => False

theorem budgetedNew {s t} (budgeted : Budgeted s) (made : newStrategy s = .ok t) : Budgeted t := by
  cases s <;> cases made <;> trivial

theorem rotationTurns {instances : List Instance} {start : Option Instance × Int} {best : Instance}
    (chosen : (instances.foldl rotationTurn start).1 = some best) :
    start.1 = some best ∨ (best ∈ instances ∧ 0 < dailyRemaining best ∧ 0 < hourRemaining best) := by
  induction instances generalizing start with
  | nil => exact .inl chosen
  | cons i rest ih =>
    rcases ih chosen with turned | ⟨member,room⟩
    · simp only [rotationTurn] at turned
      split at turned
      · exact .inl turned
      · split at turned
        · exact .inl turned
        · split at turned
          · cases Option.some.inj turned
            exact .inr ⟨List.mem_cons_self,by omega,by omega⟩
          · exact .inl turned
    · exact .inr ⟨List.mem_cons_of_mem _ member,room⟩

theorem rotationRoom {instances : List Instance} {best : Instance} (chosen : rotationSelect instances = .ok best) :
    best ∈ instances ∧ 0 < dailyRemaining best ∧ 0 < hourRemaining best := by
  cases instances with
  | nil => cases chosen
  | cons i rest =>
    simp only [rotationSelect] at chosen
    cases found : ((i::rest).foldl rotationTurn (none,-1)).1 with
    | none => simp only [found] at chosen; cases chosen
    | some b =>
      simp only [found] at chosen
      cases chosen
      rcases rotationTurns found with start | room
      · cases start
      · exact room

theorem rotationErrors {instances : List Instance} {e : SelectError}
    (failed : rotationSelect instances = .error e) : e = .noAvailable ∨ e = .exhausted := by
  cases instances with
  | nil => cases failed; exact .inl rfl
  | cons i rest =>
    simp only [rotationSelect] at failed
    split at failed <;> cases failed
    exact .inr rfl

theorem strategyErrors {s : Strategy} {instances : List Instance} {e : SelectError}
    (failed : strategySelect s instances = .error e) :
    e = .noAvailable ∨ e = .exhausted ∨ ∃ name, e = .unknownStrategy name := by
  cases s with
  | failover =>
    cases instances <;> cases failed
    exact .inl rfl
  | rotation => exact (rotationErrors failed).imp_right .inl
  | hybrid =>
    cases instances with
    | nil => cases failed; exact .inl rfl
    | cons i rest =>
      have inner : rotationSelect (i::rest) = .error e := failed
      exact (rotationErrors inner).imp_right .inl
  | other name => cases failed; exact .inr (.inr ⟨name,rfl⟩)

theorem budgetedRoom {s : Strategy} {instances : List Instance} {best : Instance} (budgeted : Budgeted s)
    (chosen : strategySelect s instances = .ok best) :
    best ∈ instances ∧ 0 < dailyRemaining best ∧ 0 < hourRemaining best := by
  cases s with
  | rotation => exact rotationRoom chosen
  | hybrid =>
    cases instances with
    | nil => cases chosen
    | cons i rest => exact rotationRoom chosen
  | failover => cases budgeted
  | other name => cases budgeted

theorem failoverTurns (instances : List Instance) (start : Instance) :
    instances.foldl (fun best i => if i.priority > best.priority then i else best) start ∈ start::instances := by
  induction instances generalizing start with
  | nil => exact List.mem_cons_self
  | cons i rest ih =>
    simp only [List.foldl_cons]
    rcases List.mem_cons.mp (ih (if i.priority > start.priority then i else start)) with turned | later
    · rw [turned]
      split <;> simp
    · exact List.mem_cons_of_mem _ (List.mem_cons_of_mem _ later)

theorem selectMember {s : Strategy} {instances : List Instance} {best : Instance}
    (chosen : strategySelect s instances = .ok best) : best ∈ instances := by
  cases s with
  | failover =>
    cases instances with
    | nil => cases chosen
    | cons first rest =>
      cases chosen
      simpa using failoverTurns (first::rest) first
  | rotation => exact (rotationRoom chosen).1
  | hybrid => exact (budgetedRoom (s := .hybrid) trivial chosen).1
  | other name => cases chosen

end WppGateway.Selection
