import WppGateway.Runs
import Mathlib.Logic.Function.Basic
import Mathlib.Algebra.Order.Ring.Int

/-! Counters under keys that disappear. An increment is one command and the deadline of its key a later one, with other
commands between them, and a key whose deadline has passed may disappear at any time. No program is named here. -/
namespace WppGateway.ExpiringCounters
open Runs
variable {κ : Type}

structure Entry where
  value : Int
  deadline : Option Nat
  deriving DecidableEq

abbrev Store (κ : Type) := κ → Option Entry

def get (s : Store κ) (key : κ) : Option Int := (s key).map Entry.value

def due (s : Store κ) (key : κ) (now : Nat) : Bool := ((s key).bind Entry.deadline).any (fun d => decide (d ≤ now))

/- `expiring` holds the keys whose new lifetime is on its way. -/
structure System (κ : Type) where
  store : Store κ
  expiring : List (κ × Nat)
  clock : Nat

def fresh : System κ := ⟨fun _ => none,[],0⟩

def current (s : System κ) (key : κ) : Int := (get s.store key).getD 0

/- What is left of a counter until its end: no deadline in force and none on its way comes before it. -/
structure Counting (key : κ) (close : Nat) (n : Int) (s : System κ) : Prop where
  exact : current s key = n
  inForce : ∀ entry, s.store key = some entry → ∀ d ∈ entry.deadline, close ≤ d
  coming : ∀ q ∈ s.expiring, q.1 = key → close ≤ s.clock + q.2

theorem countingFresh (key : κ) (close : Nat) : Counting key close 0 (fresh : System κ) :=
  ⟨rfl,fun _ h => (by cases h),fun _ h => (by cases h)⟩

theorem comingLater {key : κ} {close now : Nat} {n : Int} {s : System κ} (order : s.clock ≤ now)
    (counting : Counting key close n s) : ∀ q ∈ s.expiring, q.1 = key → close ≤ now + q.2 := by
  intro q member same
  have reach := counting.coming q member same
  omega

section Commands
variable [DecidableEq κ]

/- An absent key starts from zero, without a deadline. A deadline that is set stays. -/
def incr (s : Store κ) (key : κ) : Int × Store κ :=
  let entry := (s key).getD ⟨0,none⟩
  (entry.value + 1,Function.update s key (some {entry with value := entry.value + 1}))

def expire (s : Store κ) (key : κ) (deadline : Nat) : Store κ :=
  match s key with
  | some entry => Function.update s key (some {entry with deadline := some deadline})
  | none => s

def evict (s : Store κ) (key : κ) : Store κ := Function.update s key none

inductive Command (κ : Type) where
  | incr (key : κ) (ttl : Nat)
  | get (key : κ)
  | expire (n : Nat)
  | evict (key : κ)

structure Event (κ : Type) where
  time : Nat
  command : Command κ

def effect (s : System κ) (now : Nat) : Command κ → Option (System κ)
  | .incr key ttl => some ⟨(incr s.store key).2,s.expiring ++ [(key,ttl)],now⟩
  | .get _ => some {s with clock := now}
  | .expire n => (s.expiring[n]?).map (fun q => ⟨expire s.store q.1 (now + q.2),s.expiring.eraseIdx n,now⟩)
  | .evict key => if due s.store key now then some {s with store := evict s.store key,clock := now} else none

def step (s : System κ) (e : Event κ) : Option (System κ) := if s.clock ≤ e.time then effect s e.time e.command else none

def increments (key : κ) (e : Event κ) : Bool :=
  match e.command with
  | .incr other _ => decide (other = key)
  | _ => false

def Lasting (key : κ) (close : Nat) (e : Event κ) : Prop := ∀ ttl, e.command = .incr key ttl → close ≤ e.time + ttl

theorem stepClock {s t : System κ} {e : Event κ} (moved : step s e = some t) : s.clock ≤ e.time ∧ t.clock = e.time := by
  unfold step at moved
  split at moved
  · next order =>
    refine ⟨order,?_⟩
    cases shape : e.command with
    | incr key ttl =>
      rw [shape] at moved
      cases Option.some.inj moved
      rfl
    | get key =>
      rw [shape] at moved
      cases Option.some.inj moved
      rfl
    | expire n =>
      rw [shape] at moved
      obtain ⟨q,_,rfl⟩ := Option.map_eq_some_iff.mp moved
      rfl
    | evict key =>
      rw [shape] at moved
      simp only [effect] at moved
      split at moved
      · cases Option.some.inj moved
        rfl
      · cases moved
  · cases moved

theorem runClock {s t : System κ} {events : List (Event κ)} (ran : run step s events = some t) : s.clock ≤ t.clock := by
  induction events generalizing s with
  | nil =>
    cases Option.some.inj ran
    exact Nat.le_refl _
  | cons e rest ih =>
    obtain ⟨m,moved,later⟩ := runCons ran
    obtain ⟨order,now⟩ := stepClock moved
    have tail := ih later
    omega

section Step
variable {key : κ} {close : Nat} {n : Int} {s : System κ}

theorem countingIncr {ttl now : Nat} (order : s.clock ≤ now) (lasting : close ≤ now + ttl)
    (counting : Counting key close n s) :
    Counting key close (n + 1) ⟨(incr s.store key).2,s.expiring ++ [(key,ttl)],now⟩ := by
  refine ⟨?_,?_,?_⟩
  · have value := counting.exact
    simp only [current,get,incr,Function.update_self,Option.map_some,Option.getD_some] at value ⊢
    rw [← value]
    cases s.store key <;> rfl
  · intro entry found d member
    simp only [incr,Function.update_self,Option.some.injEq] at found
    rw [← found] at member
    cases stored : s.store key with
    | none => simp [stored] at member
    | some old =>
      rw [stored,Option.getD_some] at member
      exact counting.inForce old stored d member
  · intro q member same
    rcases List.mem_append.mp member with old | new
    · exact comingLater order counting q old same
    · cases List.mem_singleton.mp new
      exact lasting

theorem countingIncrOther {other : κ} (ttl : Nat) {now : Nat} (order : s.clock ≤ now) (different : other ≠ key)
    (counting : Counting key close n s) :
    Counting key close n ⟨(incr s.store other).2,s.expiring ++ [(other,ttl)],now⟩ := by
  have kept : (incr s.store other).2 key = s.store key := Function.update_of_ne different.symm ..
  refine ⟨?_,?_,?_⟩
  · simpa only [current,get,kept] using counting.exact
  · simpa only [kept] using counting.inForce
  · intro q member same
    rcases List.mem_append.mp member with old | new
    · exact comingLater order counting q old same
    · cases List.mem_singleton.mp new
      exact absurd same different

theorem countingExpire {i now : Nat} {q : κ × Nat} (order : s.clock ≤ now) (sent : s.expiring[i]? = some q)
    (counting : Counting key close n s) :
    Counting key close n ⟨expire s.store q.1 (now + q.2),s.expiring.eraseIdx i,now⟩ := by
  have rest : ∀ q' ∈ s.expiring.eraseIdx i, q'.1 = key → close ≤ now + q'.2 :=
    fun q' member => comingLater order counting q' (List.mem_of_mem_eraseIdx member)
  cases stored : s.store q.1 with
  | none =>
    simp only [expire,stored]
    exact ⟨counting.exact,counting.inForce,rest⟩
  | some entry =>
    by_cases same : q.1 = key
    · have reach := comingLater order counting q (List.mem_of_getElem? sent) same
      subst same
      have value := counting.exact
      refine ⟨?_,?_,rest⟩
      · simpa only [current,get,expire,stored,Function.update_self,Option.map_some] using value
      · intro entry' found d member
        simp only [expire,stored,Function.update_self,Option.some.injEq] at found
        rw [← found,Option.mem_some_iff] at member
        omega
    · have kept : expire s.store q.1 (now + q.2) key = s.store key := by
        rw [expire,stored]
        exact Function.update_of_ne (Ne.symm same) ..
      refine ⟨?_,?_,rest⟩
      · simpa only [current,get,kept] using counting.exact
      · simpa only [kept] using counting.inForce

theorem countingEvict {other : κ} {now : Nat} (order : s.clock ≤ now) (opened : now < close)
    (late : due s.store other now = true) (counting : Counting key close n s) :
    Counting key close n {s with store := evict s.store other,clock := now} := by
  have different : key ≠ other := by
    intro same
    subst same
    simp only [due,Option.any_eq_true,decide_eq_true_eq,Option.bind_eq_some_iff] at late
    obtain ⟨d,⟨entry,stored,set⟩,passed⟩ := late
    have reach := counting.inForce entry stored d set
    omega
  have kept : evict s.store other key = s.store key := Function.update_of_ne different ..
  refine ⟨?_,?_,comingLater (s := s) order counting⟩
  · simpa only [current,get,kept] using counting.exact
  · simpa only [kept] using counting.inForce

theorem stepCounting {t : System κ} {e : Event κ} (counting : Counting key close n s) (lasting : Lasting key close e)
    (moved : step s e = some t) (opened : t.clock < close) :
    Counting key close (n + if increments key e then 1 else 0) t := by
  obtain ⟨order,now⟩ := stepClock moved
  rw [now] at opened
  rw [step,if_pos order] at moved
  cases shape : e.command with
  | incr other ttl =>
    rw [shape] at moved
    cases Option.some.inj moved
    by_cases same : other = key
    · subst same
      simpa [increments,shape] using countingIncr order (lasting ttl shape) counting
    · simpa [increments,shape,same] using countingIncrOther ttl order same counting
  | get other =>
    rw [shape] at moved
    cases Option.some.inj moved
    simpa [increments,shape] using
      (⟨counting.exact,counting.inForce,comingLater (s := s) order counting⟩ :
        Counting key close n {s with clock := e.time})
  | expire i =>
    rw [shape] at moved
    obtain ⟨q,sent,rfl⟩ := Option.map_eq_some_iff.mp moved
    simpa [increments,shape] using countingExpire order sent counting
  | evict other =>
    rw [shape] at moved
    simp only [effect] at moved
    split at moved
    · next late =>
      cases Option.some.inj moved
      simpa [increments,shape] using countingEvict order opened late counting
    · cases moved

end Step

/- Until its end a counter says how often it was incremented, whatever happens to the other keys and however late the
lifetimes arrive. -/
theorem runCounting {key : κ} {close : Nat} {n : Int} {s t : System κ} {events : List (Event κ)}
    (counting : Counting key close n s) (lasting : ∀ e ∈ events, Lasting key close e)
    (ran : run step s events = some t) (opened : t.clock < close) :
    Counting key close (n + events.countP (increments key)) t := by
  induction events generalizing s n with
  | nil =>
    cases Option.some.inj ran
    simpa using counting
  | cons e rest ih =>
    obtain ⟨m,moved,later⟩ := runCons ran
    have early : m.clock < close := Nat.lt_of_le_of_lt (runClock later) opened
    have next := stepCounting counting (lasting e List.mem_cons_self) moved early
    have total := ih next (fun e' member => lasting e' (List.mem_cons_of_mem _ member)) later
    rw [List.countP_cons]
    cases mine : increments key e with
    | true => simpa [mine,Int.add_assoc,Int.add_comm,Int.add_left_comm] using total
    | false => simpa [mine] using total

end Commands

end WppGateway.ExpiringCounters
