import WppGateway.Runs
import Mathlib.Data.List.Forall2

/-! A bounded queue with one consumer, which tries each item a bounded number of times. No program is named here. -/
namespace WppGateway.RetryQueue
open Runs
variable {ι π ρ : Type}

/- Which items are wanted, what is tried for an item, whether a try gets as far as an answer, and which answers are
failures. -/
structure Policy (ι π ρ : Type) where
  slots : Nat
  tries : Nat
  wanted : ι → Bool
  prepare : ι → Option π
  reaches : π → Bool
  fails : ρ → Bool

structure Line (ι π ρ : Type) where
  queue : List ι
  hand : Option (ι × π × Nat)
  log : List (π × ρ)
  accepted : List ι

inductive Event (ι ρ : Type) where
  | offer (i : ι)
  | turn (r : ρ)

def empty : Line ι π ρ := ⟨[],none,[],[]⟩

def accepts (P : Policy ι π ρ) (s : Line ι π ρ) (i : ι) : Bool := P.wanted i && decide (s.queue.length < P.slots)

def offer (P : Policy ι π ρ) (s : Line ι π ρ) (i : ι) : Line ι π ρ :=
  if accepts P s i then {s with queue := s.queue ++ [i], accepted := s.accepted ++ [i]} else s

def turn (P : Policy ι π ρ) (s : Line ι π ρ) (r : ρ) : Option (Line ι π ρ) :=
  match s.hand with
  | some (i,p,k) =>
    if k < P.tries then
      if P.reaches p then some {s with log := s.log ++ [(p,r)], hand := if P.fails r then some (i,p,k+1) else none}
      else some {s with hand := some (i,p,k+1)}
    else some {s with hand := none}
  | none => match s.queue with
    | [] => none
    | i::rest => some {s with queue := rest, hand := (P.prepare i).map (fun p => (i,p,0))}

def step (P : Policy ι π ρ) (s : Line ι π ρ) : Event ι ρ → Option (Line ι π ρ)
  | .offer i => some (offer P s i)
  | .turn r => turn P s r

/- Failures up to the limit, or fewer of them and one success. -/
inductive Block (P : Policy ι π ρ) (p : π) : List (π × ρ) → Prop where
  | delivered (failures : List ρ) (r : ρ) (few : failures.length < P.tries) (all : ∀ f ∈ failures, P.fails f = true)
      (success : P.fails r = false) : Block P p ((failures ++ [r]).map (Prod.mk p))
  | exhausted (failures : List ρ) (most : failures.length = P.tries) (all : ∀ f ∈ failures, P.fails f = true) :
      Block P p (failures.map (Prod.mk p))

def Finished (P : Policy ι π ρ) (i : ι) (block : List (π × ρ)) : Prop :=
  match P.prepare i with
  | none => block = []
  | some p => if P.reaches p then Block P p block else block = []

def Partial_ (P : Policy ι π ρ) : Option (ι × π × Nat) → List (π × ρ) → Prop
  | none,current => current = []
  | some (i,p,k),current => P.prepare i = some p ∧ k ≤ P.tries ∧
      if P.reaches p then
        ∃ failures : List ρ, current = failures.map (Prod.mk p) ∧ failures.length = k ∧ ∀ f ∈ failures, P.fails f = true
      else current = []

def inHand (s : Line ι π ρ) : List ι := s.hand.toList.map Prod.fst

structure Served (P : Policy ι π ρ) (s : Line ι π ρ) (done : List ι) (blocks : List (List (π × ρ)))
    (current : List (π × ρ)) : Prop where
  order : s.accepted = done ++ inHand s ++ s.queue
  finished : List.Forall₂ (Finished P) done blocks
  log : s.log = blocks.flatten ++ current
  hand : Partial_ P s.hand current

def Orderly (P : Policy ι π ρ) (s : Line ι π ρ) : Prop := ∃ done blocks current, Served P s done blocks current

variable {P : Policy ι π ρ} {s t : Line ι π ρ}

theorem orderlyEmpty : Orderly P empty := ⟨[],[],[],rfl,.nil,rfl,rfl⟩

theorem orderlyOffer (orderly : Orderly P s) (i : ι) : Orderly P (offer P s i) := by
  obtain ⟨done,blocks,current,served⟩ := orderly
  unfold offer
  split
  · exact ⟨done,blocks,current,by simp [served.order,inHand],served.finished,served.log,served.hand⟩
  · exact ⟨done,blocks,current,served⟩

theorem finishedBlock {i : ι} {p : π} {block : List (π × ρ)} (prepared : P.prepare i = some p)
    (reached : P.reaches p = true) (ends : Block P p block) : Finished P i block := by
  simpa only [Finished,prepared,reached,if_true] using ends

theorem servedReleases {done : List ι} {blocks : List (List (π × ρ))} {block : List (π × ρ)} {i : ι} {log : List (π × ρ)}
    (order : s.accepted = done ++ [i] ++ s.queue) (finished : List.Forall₂ (Finished P) done blocks)
    (ends : Finished P i block) (logged : log = blocks.flatten ++ block) :
    Orderly P {s with log := log, hand := none} :=
  ⟨done ++ [i],blocks ++ [block],[],by simpa [inHand] using order,List.rel_append finished (.cons ends .nil),
    by simpa using logged,rfl⟩

section Turns
variable {i : ι} {p : π} {k : Nat}

theorem handOrder (held : s.hand = some (i,p,k)) {done : List ι} (order : s.accepted = done ++ inHand s ++ s.queue) :
    s.accepted = done ++ [i] ++ s.queue := by simpa [inHand,held] using order

theorem orderlyTries (orderly : Orderly P s) (held : s.hand = some (i,p,k)) (few : k < P.tries)
    (reached : P.reaches p = true) (r : ρ) :
    Orderly P {s with log := s.log ++ [(p,r)], hand := if P.fails r then some (i,p,k+1) else none} := by
  obtain ⟨done,blocks,current,order,finished,log,hand⟩ := orderly
  rw [held] at hand
  obtain ⟨prepared,_,tried⟩ := hand
  rw [if_pos reached] at tried
  obtain ⟨failures,rfl,rfl,all⟩ := tried
  have order := handOrder held order
  cases fails : P.fails r with
  | true =>
    -- one failure more, and the item stays in hand
    refine ⟨done,blocks,(failures ++ [r]).map (Prod.mk p),by simpa [inHand] using order,finished,?_,prepared,few,?_⟩
    · simp [log]
    · rw [if_pos reached]
      refine ⟨failures ++ [r],rfl,by simp,?_⟩
      intro f member
      rcases List.mem_append.mp member with old | new
      · exact all f old
      · exact List.mem_singleton.mp new ▸ fails
  | false =>
    have ends := finishedBlock prepared reached (.delivered failures r few all fails)
    exact servedReleases order finished ends (by simp [log])

theorem orderlyRefused (orderly : Orderly P s) (held : s.hand = some (i,p,k)) (few : k < P.tries)
    (refused : P.reaches p = false) : Orderly P {s with hand := some (i,p,k+1)} := by
  obtain ⟨done,blocks,current,order,finished,log,hand⟩ := orderly
  rw [held] at hand
  obtain ⟨prepared,_,tried⟩ := hand
  have order := handOrder held order
  simp only [refused,Bool.false_eq_true,if_false] at tried
  subst tried
  exact ⟨done,blocks,[],by simpa [inHand] using order,finished,log,prepared,few,by simp [refused]⟩

theorem orderlyGivesUp (orderly : Orderly P s) (held : s.hand = some (i,p,k)) (enough : ¬ k < P.tries) :
    Orderly P {s with hand := none} := by
  obtain ⟨done,blocks,current,order,finished,log,hand⟩ := orderly
  rw [held] at hand
  obtain ⟨prepared,most,tried⟩ := hand
  have order := handOrder held order
  cases reached : P.reaches p with
  | true =>
    rw [if_pos reached] at tried
    obtain ⟨failures,rfl,rfl,all⟩ := tried
    have ends := finishedBlock prepared reached (.exhausted failures (by omega) all)
    exact servedReleases order finished ends log
  | false =>
    simp only [reached,Bool.false_eq_true,if_false] at tried
    subst tried
    have ends : Finished P i [] := by simp [Finished,prepared,reached]
    exact servedReleases order finished ends log

theorem orderlyTakes {rest : List ι} (orderly : Orderly P s) (held : s.hand = none) (waiting : s.queue = i::rest) :
    Orderly P {s with queue := rest, hand := (P.prepare i).map (fun p => (i,p,0))} := by
  obtain ⟨done,blocks,current,order,finished,log,hand⟩ := orderly
  rw [held] at hand
  cases hand
  have order : s.accepted = done ++ [i] ++ rest := by simpa [inHand,held,waiting] using order
  cases prepared : P.prepare i with
  | none =>
    have ends : Finished P i [] := by rw [Finished,prepared]
    exact ⟨done ++ [i],blocks ++ [[]],[],by simpa [inHand] using order,List.rel_append finished (.cons ends .nil),
      by simpa using log,rfl⟩
  | some p =>
    refine ⟨done,blocks,[],by simpa [inHand] using order,finished,log,prepared,Nat.zero_le _,?_⟩
    split
    · exact ⟨[],rfl,rfl,fun f member => by cases member⟩
    · rfl

theorem orderlyTurn (orderly : Orderly P s) {r : ρ} (moved : turn P s r = some t) : Orderly P t := by
  unfold turn at moved
  split at moved
  · next i p k held =>
    split at moved
    · next few =>
      split at moved
      · next reached => cases moved; exact orderlyTries orderly held few reached r
      · next refused => cases moved; exact orderlyRefused orderly held few (Bool.eq_false_iff.mpr refused)
    · next enough => cases moved; exact orderlyGivesUp orderly held enough
  · next held =>
    split at moved
    · cases moved
    · next i rest waiting => cases moved; exact orderlyTakes orderly held waiting

end Turns

theorem orderlyStep (s : Line ι π ρ) (e : Event ι ρ) (t : Line ι π ρ) (orderly : Orderly P s) (_ : True)
    (moved : step P s e = some t) : Orderly P t := by
  cases e with
  | offer i => cases moved; exact orderlyOffer orderly i
  | turn r => exact orderlyTurn orderly moved

theorem orderlyRun {s : Line ι π ρ} (orderly : Orderly P s) (events : List (Event ι ρ)) :
    Throughout (step P) (Orderly P) s events :=
  guardedThroughout orderlyStep orderly (guardedEach (fun _ _ _ => trivial) s)

def Idle (s : Line ι π ρ) : Prop := s.hand = none ∧ s.queue = []

def remaining (P : Policy ι π ρ) (s : Line ι π ρ) : Nat :=
  s.queue.length * (P.tries + 2) + match s.hand with
    | none => 0
    | some (_,_,k) => P.tries - k + 1

theorem turnLess {r : ρ} (moved : turn P s r = some t) : remaining P t < remaining P s := by
  unfold turn at moved
  split at moved
  · next i p k held =>
    split at moved
    · split at moved <;> cases moved
      · cases fails : P.fails r <;> simp only [remaining,held,if_true,Bool.false_eq_true,if_false] <;> omega
      · simp only [remaining,held]; omega
    · cases moved
      simp only [remaining,held]; omega
  · next held =>
    split at moved <;> cases moved
    next i rest waiting =>
      simp only [remaining,held,waiting,List.length_cons,Nat.add_mul]
      cases P.prepare i <;> simp

theorem turnStops {r : ρ} (stopped : turn P s r = none) : Idle s := by
  unfold turn at stopped
  split at stopped
  · split at stopped
    · split at stopped <;> cases stopped
    · cases stopped
  · next held =>
    split at stopped
    · next waiting => exact ⟨held,waiting⟩
    · cases stopped

theorem turnAccepted {r : ρ} (moved : turn P s r = some t) : t.accepted = s.accepted := by
  unfold turn at moved
  split at moved
  · split at moved
    · split at moved <;> cases moved <;> rfl
    · cases moved
      rfl
  · split at moved <;> cases moved
    rfl

theorem drains (s : Line ι π ρ) (answers : Nat → ρ) :
    ∃ n t, run (step P) s ((List.range n).map (fun j => .turn (answers j))) = some t ∧ Idle t ∧
      t.accepted = s.accepted := by
  generalize bound : remaining P s = m
  induction m using Nat.strongRecOn generalizing s answers with
  | ind m ih =>
    cases moved : turn P s (answers 0) with
    | none => exact ⟨0,s,rfl,turnStops moved,rfl⟩
    | some t =>
      obtain ⟨n,u,ran,idle,same⟩ := ih _ (bound ▸ turnLess moved) t (fun j => answers (j+1)) rfl
      refine ⟨n+1,u,?_,idle,same.trans (turnAccepted moved)⟩
      rw [List.range_succ_eq_map,List.map_cons,List.map_map]
      simp only [run,step,moved,bind,Option.bind]
      exact ran

end WppGateway.RetryQueue
