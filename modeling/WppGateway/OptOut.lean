import WppGateway.Blacklist
import WppGateway.Transitions

/-! The dispatcher beside the blacklist of its groups. No statement of a worker reads
the table, so a number is kept out of a broadcast only by the order of the steps. -/
namespace WppGateway.OptOut
open Runs GoJson Domain Store Gateway Transitions Blacklist

structure Excluding where
  g : System
  blacklist : List BlacklistEntry

/- Each statement of an Add is a step of its own; `ok` says whether it is answered. -/
inductive Notice where
  | gateway (e : Event)
  | add (e : BlacklistEntry) (ok : Bool)
  | remove (groupId : UUID) (phone : GoString) (ok : Bool)

def inserted (s : Excluding) (e : BlacklistEntry) : List BlacklistEntry :=
  match insert (findGroup s.g.store e.groupId).isSome s.blacklist e with
  | some (rows,_) => rows
  | none => s.blacklist

def step (s : Excluding) : Notice → Option Excluding
  | .gateway e => do some {s with g := ← Gateway.step s.g e}
  | .add e ok => some {s with blacklist := if ok then inserted s e else s.blacklist}
  | .remove groupId phone ok => some {s with blacklist := if ok then remove s.blacklist groupId phone else s.blacklist}

def dialing : Pc → Option GoString
  | .sending _ _ r _ => some r.recipient
  | _ => none

def dialed (s : Excluding) : Notice → Option (UUID × GoString)
  | .gateway (.worker j _) => do
    let w ← s.g.workers[j]?
    let number ← dialing w.pc
    some (w.broadcast.groupId,number)
  | _ => none

def NotListed (s : Excluding) (n : Notice) (_ : Excluding) : Prop :=
  ∀ c ∈ dialed s n, isBlacklisted s.blacklist c.1 c.2 = false

def ahead : Pc → List BroadcastRecipient
  | .chunk rest | .progress rest | .noInstance _ _ rest | .sendFailed _ rest | .sendOk _ _ rest => rest
  | .selecting _ r rest | .sending _ _ r rest => r::rest
  | _ => []

def reads (s : Excluding) : Notice → Option (UUID × List BroadcastRecipient)
  | .gateway (.worker j o) => do
    let w ← s.g.workers[j]?
    if w.pc = .fetch ∧ live o w = true then
      some (w.broadcast.groupId,getPendingRecipients s.g.store w.broadcast.id chunkSize)
    else none
  | _ => none

/- No number on a page is listed when a worker reads it, and none is listed while a worker of the group is still to call
it. -/
def KeepsOut (s : Excluding) : Notice → Prop
  | .add e ok => ok = true → ∀ w ∈ s.g.workers, w.broadcast.groupId = e.groupId →
      ∀ r ∈ ahead w.pc, varchar 20 e.phone ≠ some r.recipient
  | n => ∀ page ∈ reads s n, ∀ r ∈ page.2, isBlacklisted s.blacklist page.1 r.recipient = false

instance (s : Excluding) (n : Notice) : Decidable (KeepsOut s n) := by
  cases n <;> unfold KeepsOut <;> infer_instance

def Clear (s : Excluding) : Prop :=
  ∀ w ∈ s.g.workers, ∀ r ∈ ahead w.pc, isBlacklisted s.blacklist w.broadcast.groupId r.recipient = false

theorem dialsAhead {pc : Pc} {number : GoString} (dials : dialing pc = some number) :
    ∃ r ∈ ahead pc, r.recipient = number := by
  cases pc with
  | sending inst words r rest => cases dials; exact ⟨r,List.mem_cons_self,rfl⟩
  | _ => cases dials

@[simp] theorem aheadAfterSend (sent failed : Int) (rest : List BroadcastRecipient) :
    ahead (afterSend sent failed rest) = rest := by
  unfold afterSend
  split <;> rfl

theorem aheadStep {g : System} {j : Nat} {o : Oracle} {w next : Worker} {effect : Effect}
    (moved : WorkerStep g j o w next effect) : (∀ r ∈ ahead next.pc, r ∈ ahead w.pc) ∨
      (w.pc = .fetch ∧ live o w = true ∧
        ∀ r ∈ ahead next.pc, r ∈ getPendingRecipients g.store w.broadcast.id chunkSize) := by
  cases moved with
  | page recipients at_ answered order => exact .inr ⟨at_,answered,fun r member => order.mem_iff.mp member⟩
  | markUnsent r rest at_ | loseUnsent r rest at_ | markSent inst r rest at_ | loseSent inst r rest at_ =>
    left
    intro q member
    rw [aheadAfterSend] at member
    rw [at_]
    exact member
  | reaches r rest at_ | selectNext sel next r rest at_ | selectCached sel s r rest at_ | selectChose sel inst r rest at_
  | markUnselected e r rest at_ | loseUnselected e r rest at_ | reports rest at_ | losesReport rest at_ =>
    left
    intro q member
    rw [at_]
    exact member
  | selectFailed sel e r rest at_ | delivers inst words r rest at_ | refused inst words r rest at_ =>
    left
    intro q member
    rw [at_]
    exact List.mem_cons_of_mem _ member
  | _ => exact .inl (fun _ none_ => (by cases none_))

theorem clearGateway {s : Excluding} {e : Event} {t : System} (clear : Clear s) (keeps : KeepsOut s (.gateway e))
    (moved : Moved s.g e t) : Clear {s with g := t} := by
  intro v member r inside
  obtain ⟨k,found⟩ := List.mem_iff_getElem?.mp member
  rcases workerOrigin moved found with ⟨b,_,rfl,_⟩ | ⟨w,old,rfl | rfl⟩ | ⟨o,w,effect,rfl,here,inner⟩
  · cases inside
  · exact clear v (List.mem_of_getElem? old) r inside
  · exact clear w (List.mem_of_getElem? old) r inside
  · rw [(workerKeeps inner).1]
    rcases aheadStep inner with kept | ⟨at_,answered,page⟩
    · exact clear w (List.mem_of_getElem? here) r (kept r inside)
    · have read : reads s (.gateway (.worker k o)) =
          some (w.broadcast.groupId,getPendingRecipients s.g.store w.broadcast.id chunkSize) := by
        simp only [reads,here,Option.bind_eq_bind,Option.bind_some,at_,answered,and_self,if_true]
      exact keeps _ read r (page r inside)

theorem clearInserted {s : Excluding} {e : BlacklistEntry} (clear : Clear s) (keeps : KeepsOut s (.add e true)) :
    Clear {s with blacklist := inserted s e} := by
  intro w member r inside
  have before := clear w member r inside
  unfold inserted
  split
  · next rows n inserted =>
    rw [Bool.eq_false_iff]
    intro listed
    rcases (insertListed inserted).mp listed with old | ⟨own,column⟩
    · rw [before] at old; cases old
    · exact keeps rfl w member own.symm r inside column
  · exact before

theorem clearStep (s : Excluding) (n : Notice) (t : Excluding) (clear : Clear s) (keeps : KeepsOut s n)
    (moved : step s n = some t) : Clear t := by
  cases n with
  | gateway e =>
    simp only [step,bind,Option.bind_eq_some_iff] at moved
    obtain ⟨g,moved,same⟩ := moved
    cases same
    exact clearGateway clear keeps (movedSource moved)
  | add e ok =>
    cases moved
    cases ok with
    | false => exact clear
    | true => exact clearInserted clear keeps
  | remove groupId phone ok =>
    cases moved
    cases ok with
    | false => exact clear
    | true =>
      intro w member r inside
      have before := clear w member r inside
      rw [Bool.eq_false_iff]
      intro listed
      rw [((removeListed _ _ _ _ _).mp listed).1] at before
      cases before

/-- Where no number is listed when its page is read, nor while it is still to be called, no worker calls a number of its
group's blacklist. -/
theorem excludedRun {s : Excluding} {events : List Notice} (fresh : Fresh s.g) (keeps : Guarded step KeepsOut s events) :
    EveryStep step NotListed s events := by
  refine guardedSteps clearStep (fun s n t clear _ _ c calls => ?_)
    (fun w member => by rw [fresh.workers] at member; cases member) keeps
  cases n with
  | gateway e =>
    cases e with
    | worker j o =>
      simp only [dialed,bind,Option.mem_def,Option.bind_eq_some_iff] at calls
      obtain ⟨w,found,number,dials,same⟩ := calls
      cases same
      obtain ⟨r,inside,rfl⟩ := dialsAhead dials
      exact clear w (List.mem_of_getElem? found) r inside
    | _ => cases calls
  | _ => cases calls

def optedOut (groupId : UUID) (phone : String) : BlacklistEntry := ⟨51,groupId,text phone,text "opt_out",0⟩

def excluding : Excluding := ⟨boot (sampleTables [31]),[]⟩

def broadcasts (n : Nat) : List Notice := (Event.startBroadcast (sampleBroadcast 1)::works 0 n accepts).map .gateway

theorem otherNumberExcluded : EveryStep step NotListed excluding (.add (optedOut 1 "5511888888888") true::broadcasts 10) :=
  excludedRun (freshBoot _) (guardedChecks (by decide +kernel))

def listedFirst : List Notice := .add (optedOut 1 "5511999999999") true::broadcasts 9

theorem listedNumberCalled :
    (run step excluding (listedFirst ++ [.gateway (.worker 0 accepts)])).map (fun s =>
      (s.blacklist.map (fun e => (e.groupId,e.phone)),s.g.sends.map (fun c => (c.toNumber,c.succeeded)))) =
      some ([(1,text "5511999999999")],[(text "5511999999999",true)]) ∧
    ¬ EveryStep step NotListed excluding (listedFirst ++ [.gateway (.worker 0 accepts)]) := by
  have ends : (run step excluding (listedFirst ++ [.gateway (.worker 0 accepts)])).map (fun s =>
      (s.blacklist.map (fun e => (e.groupId,e.phone)),s.g.sends.map (fun c => (c.toNumber,c.succeeded)))) =
      some ([(1,text "5511999999999")],[(text "5511999999999",true)]) := by decide +kernel
  have before : (run step excluding listedFirst).map (fun s => (dialed s (.gateway (.worker 0 accepts)),
      isBlacklisted s.blacklist 1 (text "5511999999999"))) =
      some (some (1,text "5511999999999"),true) := by decide +kernel
  refine ⟨ends,fun every => ?_⟩
  obtain ⟨t,ran,_⟩ := Option.map_eq_some_iff.mp ends
  obtain ⟨s,reached,excluded⟩ := everyStepLast every ran
  rw [reached,Option.map_some,Option.some.injEq,Prod.mk.injEq] at before
  have unlisted : isBlacklisted s.blacklist 1 (text "5511999999999") = false := excluded _ before.1
  rw [before.2] at unlisted
  cases unlisted

end WppGateway.OptOut
