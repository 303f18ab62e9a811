import WppGateway.Runs
import WppGateway.Domain
import Mathlib.Logic.Function.Basic
import Mathlib.Algebra.Order.Ring.Rat
import Mathlib.Order.Monotone.Defs
import Mathlib.Order.Lattice

/-! A list of readings of a clock that forgets what is too old each time it is given the next one. While the clock does
not run backwards it is the whole history, filtered. No program is named here. -/
namespace WppGateway.SlidingWindow
variable {α : Type} [LinearOrder α]

/- `cutoff now` is the latest reading that is forgotten at `now`. -/
def kept (cutoff : α → α) (now : α) (readings : List α) : List α := readings.filter (fun t => decide (cutoff now < t))

def push (cutoff : α → α) (window : List α) (now : α) : List α := kept cutoff now window ++ [now]

theorem keptLater {cutoff : α → α} (mono : Monotone cutoff) {first second : α} (order : first ≤ second)
    (readings : List α) : kept cutoff second (kept cutoff first readings) = kept cutoff second readings := by
  rw [kept,kept,List.filter_filter]
  refine List.filter_congr (fun t _ => ?_)
  have earlier : cutoff second < t → cutoff first < t := (mono order).trans_lt
  rw [← Bool.decide_and,decide_eq_decide]
  exact ⟨And.left,fun young => ⟨young,earlier young⟩⟩

theorem pushHistory {cutoff : α → α} (mono : Monotone cutoff) (below : ∀ t, cutoff t < t) {history : List α}
    {last now : α} (order : last ≤ now) :
    push cutoff (kept cutoff last history) now = kept cutoff now (history ++ [now]) := by
  rw [push,keptLater mono order,kept,kept,List.filter_append,List.filter_cons_of_pos (by simpa using below now)]
  rfl

end WppGateway.SlidingWindow

/-! The reconnects that the anti-ban monitor remembers, and the signals it sends. A call of TrackReconnect is two steps,
the section under the mutex and the signal, with anything between them. -/
namespace WppGateway.Flapping
open Runs SlidingWindow Domain

inductive SignalType where
  | deliveryLow | deliveryCritical | shadowBan | reconnectFlap | budgetExhausted
  deriving DecidableEq

inductive Action where
  | throttle | pause | failover | alert
  deriving DecidableEq

structure Signal where
  instanceId : UUID
  groupId : UUID
  type : SignalType
  value : Rat
  threshold : Rat
  action : Action
  detectedAt : Int
  deriving DecidableEq

/- `emitting` holds the signals of the calls that are past their test and have not reached the channel. -/
structure Monitor where
  reconnects : UUID → List Int
  emitting : List Signal
  signals : List Signal

def newMonitor : Monitor := ⟨fun _ => [],[],[]⟩

def signalRoom : Nat := 100

def fiveMinutes : Int := 5 * 60 * 1000000000

def cutoff (now : Int) : Int := now - fiveMinutes

def flapSignal (instanceId groupId : UUID) (count : Nat) (now : Int) : Signal :=
  ⟨instanceId,groupId,.reconnectFlap,count,3,.failover,now⟩

def trackReconnect (m : Monitor) (instanceId groupId : UUID) (now : Int) : Monitor :=
  let recent := (m.reconnects instanceId).filter (fun t => decide (cutoff now < t)) ++ [now]
  {m with
    reconnects := Function.update m.reconnects instanceId recent
    emitting := if recent.length ≥ 3 then m.emitting ++ [flapSignal instanceId groupId recent.length now] else m.emitting}

def emit (m : Monitor) (sig : Signal) : Monitor :=
  if m.signals.length < signalRoom then {m with signals := m.signals ++ [sig]} else m

/- `check` is the signal of CheckDeliveryRate or CheckShadowBan, `receive` the processor taking one. -/
inductive Event where
  | track (instanceId groupId : UUID) (now : Int)
  | emit (n : Nat)
  | check (sig : Signal)
  | receive
  deriving DecidableEq

def step (m : Monitor) : Event → Option Monitor
  | .track instanceId groupId now => some (trackReconnect m instanceId groupId now)
  | .emit n => (m.emitting[n]?).map (emit {m with emitting := m.emitting.eraseIdx n})
  | .check sig => some (emit m sig)
  | .receive => match m.signals with
    | [] => none
    | _::rest => some {m with signals := rest}

def reading : Event → Option Int
  | .track _ _ now => some now
  | _ => none

def readings (events : List Event) : List Int := events.filterMap reading

def callOf (x : UUID) : Event → Option Int
  | .track instanceId _ now => if instanceId = x then some now else none
  | _ => none

def callsOf (x : UUID) (events : List Event) : List Int := events.filterMap (callOf x)

theorem cutoffMono {first second : Int} (order : first ≤ second) : cutoff first ≤ cutoff second := by
  simp only [cutoff]
  omega

theorem cutoffBelow (t : Int) : cutoff t < t := by
  simp only [cutoff,fiveMinutes]
  omega

theorem trackRecent (m : Monitor) (x g : UUID) (now : Int) :
    (trackReconnect m x g now).reconnects x = push cutoff (m.reconnects x) now := Function.update_self ..

theorem trackOthers (m : Monitor) {x y : UUID} (g : UUID) (now : Int) (other : y ≠ x) :
    (trackReconnect m x g now).reconnects y = m.reconnects y := Function.update_of_ne other ..

theorem emitKeeps (m : Monitor) (sig : Signal) : (emit m sig).reconnects = m.reconnects := by
  unfold emit
  split <;> rfl

theorem stepKeeps {m m' : Monitor} {e : Event} (silent : reading e = none) (moved : step m e = some m') :
    m'.reconnects = m.reconnects := by
  cases e with
  | track => cases silent
  | emit n =>
    obtain ⟨sig,_,rfl⟩ := Option.map_eq_some_iff.mp moved
    exact emitKeeps _ sig
  | check sig =>
    cases Option.some.inj moved
    exact emitKeeps m sig
  | receive =>
    simp only [step] at moved
    split at moved
    · cases moved
    · cases Option.some.inj moved
      rfl

def Pruned (past : List Event) (m : Monitor) : Prop :=
  ∀ x now, (∀ t ∈ readings past, t ≤ now) → push cutoff (m.reconnects x) now = kept cutoff now (callsOf x past ++ [now])

theorem prunedNew : Pruned [] newMonitor := by
  intro x now _
  have counted : decide (cutoff now < now) = true := decide_eq_true (cutoffBelow now)
  simp [newMonitor,push,kept,callsOf,counted]

theorem prunedStep {past : List Event} {m m' : Monitor} {e : Event} (pruned : Pruned past m)
    (clock : (readings (past ++ [e])).Pairwise (· ≤ ·)) (moved : step m e = some m') : Pruned (past ++ [e]) m' := by
  have split_ : readings (past ++ [e]) = readings past ++ (reading e).toList := by
    rw [readings,List.filterMap_append]
    cases h : reading e <;> simp [readings,h]
  cases e with
  | track x' g now' =>
    cases Option.some.inj moved
    have before : ∀ t ∈ readings past, t ≤ now' := by
      rw [split_] at clock
      exact fun t member => (List.pairwise_append.mp clock).2.2 t member now' List.mem_cons_self
    intro x now later
    by_cases same : x' = x
    · subst same
      have order : now' ≤ now := later now' (by rw [split_]; exact List.mem_append_right _ List.mem_cons_self)
      have calls : callsOf x' (past ++ [.track x' g now']) = callsOf x' past ++ [now'] := by
        simp [callsOf,List.filterMap_append,callOf]
      rw [trackRecent,pruned x' now' before,calls]
      exact pushHistory (fun _ _ => cutoffMono) cutoffBelow order
    · have calls : callsOf x (past ++ [.track x' g now']) = callsOf x past := by
        simp [callsOf,List.filterMap_append,callOf,same]
      rw [trackOthers m g now' (fun h => same h.symm),calls]
      exact pruned x now (fun t member => later t (by rw [split_]; exact List.mem_append_left _ member))
  | _ =>
    intro x now later
    have calls : ∀ e, reading e = none → callsOf x (past ++ [e]) = callsOf x past := by
      intro e silent
      cases e with
      | track => cases silent
      | _ => simp [callsOf,List.filterMap_append,callOf]
    rw [calls _ rfl,stepKeeps rfl moved]
    exact pruned x now (fun t member => later t (by rw [split_]; exact List.mem_append_left _ member))

theorem prunedRun {events past : List Event} {m m' : Monitor} (pruned : Pruned past m)
    (clock : (readings (past ++ events)).Pairwise (· ≤ ·)) (ran : run step m events = some m') :
    Pruned (past ++ events) m' := by
  induction events generalizing past m with
  | nil =>
    cases Option.some.inj ran
    rwa [List.append_nil]
  | cons e rest ih =>
    obtain ⟨mid,moved,later⟩ := runCons ran
    have first : (readings (past ++ [e])).Pairwise (· ≤ ·) :=
      clock.sublist ((List.Sublist.append_left (List.singleton_sublist.mpr List.mem_cons_self) past).filterMap _)
    have whole := ih (prunedStep pruned first moved) (by rwa [List.append_assoc]) later
    rwa [List.append_assoc] at whole

theorem trackEmitting (m : Monitor) (x g : UUID) (now : Int) {recent : List Int}
    (stored : (trackReconnect m x g now).reconnects x = recent) : (trackReconnect m x g now).emitting =
      m.emitting ++ if 3 ≤ recent.length then [flapSignal x g recent.length now] else [] := by
  rw [trackRecent] at stored
  subst stored
  change (if 3 ≤ (push cutoff (m.reconnects x) now).length then _ else _) = _
  split
  · rfl
  · exact (List.append_nil _).symm

theorem emitWaiting {m : Monitor} {n : Nat} {sig : Signal} (waits : m.emitting[n]? = some sig) :
    step m (.emit n) = some {m with
      emitting := m.emitting.eraseIdx n
      signals := if m.signals.length < 100 then m.signals ++ [sig] else m.signals} := by
  by_cases few : m.signals.length < 100
  · simp only [step,waits,Option.map_some,if_pos few]
    exact congrArg some (if_pos few)
  · simp only [step,waits,Option.map_some,if_neg few]
    exact congrArg some (if_neg few)

/-- The pruned list is the history of the last five minutes, at every call in every run. The call sends a signal with
its length just when it counts three or more, and the signal gets into the channel just when there is room. -/
theorem flappingExact {events : List Event} {m : Monitor} (ran : run step newMonitor events = some m) :
    (∀ x g now, (readings (events ++ [.track x g now])).Pairwise (· ≤ ·) →
      ∃ m' recent, step m (.track x g now) = some m' ∧ m'.reconnects x = recent ∧
        recent = (callsOf x events ++ [now]).filter (fun t => decide (now - fiveMinutes < t)) ∧
        (∀ y, y ≠ x → m'.reconnects y = m.reconnects y) ∧ m'.signals = m.signals ∧
        m'.emitting = m.emitting ++ if 3 ≤ recent.length then [flapSignal x g recent.length now] else []) ∧
    ∀ n sig, m.emitting[n]? = some sig → step m (.emit n) = some {m with
      emitting := m.emitting.eraseIdx n
      signals := if m.signals.length < 100 then m.signals ++ [sig] else m.signals} := by
  refine ⟨fun x g now clock => ?_,fun n sig => emitWaiting⟩
  have earlier : (readings events).Pairwise (· ≤ ·) :=
    clock.sublist ((List.sublist_append_left events _).filterMap _)
  have before : ∀ t ∈ readings events, t ≤ now := by
    rw [readings,List.filterMap_append] at clock
    exact fun t member => (List.pairwise_append.mp clock).2.2 t member now List.mem_cons_self
  have pruned := prunedRun prunedNew earlier ran x now before
  have stored : (trackReconnect m x g now).reconnects x = kept cutoff now (callsOf x events ++ [now]) :=
    (trackRecent m x g now).trans pruned
  exact ⟨_,_,rfl,stored,rfl,fun y other => trackOthers m g now other,rfl,trackEmitting m x g now stored⟩

theorem threeReconnects : (readings [Event.track 1 2 0,.track 1 2 0,.track 1 2 1]).Pairwise (· ≤ ·) ∧
    ∃ m, run step newMonitor [Event.track 1 2 0,.track 1 2 0] = some m ∧ ∃ m', step m (.track 1 2 1) = some m' ∧
      m'.reconnects 1 = [0,0,1] ∧ m'.emitting = [flapSignal 1 2 3 1] := by
  have clock : (readings [Event.track 1 2 0,.track 1 2 0,.track 1 2 1]).Pairwise (· ≤ ·) := by decide
  have ran : run step newMonitor [.track 1 2 0,.track 1 2 0] =
      some (trackReconnect (trackReconnect newMonitor 1 2 0) 1 2 0) := rfl
  obtain ⟨calls,_⟩ := flappingExact ran
  obtain ⟨m',recent,moved,stored,counted,_,_,sends⟩ := calls 1 2 1 clock
  have three : recent = [0,0,1] := counted.trans (by decide)
  subst three
  exact ⟨clock,_,ran,m',moved,stored,sends⟩

def flood : List Event :=
  [.track 1 2 0,.track 1 2 0] ++ (List.replicate 100 [Event.track 1 2 0,Event.emit 0]).flatten

theorem floodDropped : (readings (flood ++ [.track 1 2 0,.emit 0])).Pairwise (· ≤ ·) ∧
    (run step newMonitor (flood ++ [.track 1 2 0])).map (fun m => ((m.reconnects 1).length,m.emitting)) =
      some (103,[flapSignal 1 2 103 0]) ∧
    (run step newMonitor (flood ++ [.track 1 2 0,.emit 0])).map (fun m =>
      (m.emitting,m.signals.length,decide (flapSignal 1 2 103 0 ∈ m.signals))) = some ([],100,false) := by
  decide +kernel

end WppGateway.Flapping
