import WppGateway.BroadcastCreate
import WppGateway.Uninterrupted
import Mathlib.Algebra.Group.Action.Defs
import Mathlib.Algebra.Order.BigOperators.Group.List
import Mathlib.Algebra.Order.Ring.Nat

/-! How long a broadcast sleeps, beside the minutes that its creation announces. -/
namespace WppGateway.Pacing
open Runs GoJson Domain Store Table Gateway Http BroadcastCreate Transitions HeldRows Progress Uninterrupted

/- Milliseconds; the draw of rand.IntN is below the difference. -/
def humanizedDelay (minMs maxMs draw : Nat) : Nat :=
  if maxMs ≤ minMs then minMs else minMs + draw % (maxMs - minMs)

structure Sleeps where
  messages : List Nat
  pauses : List Nat

def awake : Sleeps := ⟨[],[]⟩

def asleep (s : Sleeps) : Nat := s.messages.sum + s.pauses.sum

/- A worker sleeps when it has come through a recipient for which an instance was found, and after a page. -/
def nap (before after : Pc) (draw : Nat) (s : Sleeps) : Sleeps := match before,after with
  | .sendFailed _ _,.chunk _ | .sendOk _ _ _,.chunk _ | .progress _,.chunk _ =>
    {s with messages := s.messages ++ [humanizedDelay 2000 5000 draw]}
  | .chunk [],.loop => {s with pauses := s.pauses ++ [humanizedDelay 5000 15000 draw]}
  | _,_ => s

def timed (j : Nat) (x : (System × Log) × Sleeps) (e : Event × Nat) : Option ((System × Log) × Sleeps) :=
  (watched j x.1 e.1).map (fun y => (y,if moves j e.1 then nap (pcAt x.1.1 j) (pcAt y.1 j) e.2 x.2 else x.2))

def byWorker (j : Nat) (c : SendCall) : Bool := match c.origin with
  | .worker k _ => k == j
  | .request _ => false

def tried (j : Nat) (g : System) : Nat := g.sends.countP (byWorker j)

def owed : Pc → Nat
  | .sendFailed _ _ | .sendOk _ _ _ | .progress _ => 1
  | _ => 0

def inHand : Pc → Nat
  | .selecting _ _ _ | .sending _ _ _ _ => 1
  | _ => 0

def paging : Pc → Nat
  | .chunk _ | .selecting _ _ _ | .noInstance _ _ _ | .sending _ _ _ _ | .sendFailed _ _ | .sendOk _ _ _ | .progress _ => 1
  | _ => 0

structure Paced (pc : Pc) (calls : Nat) (l : Log) (s : Sleeps) : Prop where
  naps : s.messages.length + owed pc = calls
  tries : calls + inHand pc ≤ l.taken.length
  pauses : s.pauses.length + paging pc = l.chunks.length
  short : ∀ d ∈ s.messages, 2000 ≤ d ∧ d ≤ 4999
  long : ∀ d ∈ s.pauses, 5000 ≤ d ∧ d ≤ 14999

theorem delayBounds {minMs maxMs draw : Nat} (apart : minMs < maxMs) :
    minMs ≤ humanizedDelay minMs maxMs draw ∧ humanizedDelay minMs maxMs draw ≤ maxMs - 1 := by
  have less := Nat.mod_lt draw (show 0 < maxMs - minMs by omega)
  rw [humanizedDelay,if_neg (by omega)]
  omega

section Steps
variable {g t : System} {j : Nat} {o : Oracle} {w next : Worker} {effect : Effect} {l : Log} {s : Sleeps} {calls : Nat}

def sends : Pc → Nat
  | .sending _ _ _ _ => 1
  | _ => 0

theorem triedWorker (moved : WorkerStep g j o w next effect) :
    tried j (perform (setWorker g j next) effect) = tried j g + sends w.pc := by
  cases moved with
  | delivers inst text r rest at_ | refused inst text r rest at_ => simp [tried,perform,setWorker,at_,sends,byWorker]
  | _ => simp only [sends, *]; rfl

variable {pc : Pc}

theorem pacedStill {after : Pc} (paced : Paced pc calls l s) (owes : owed after = owed pc) (hand : inHand after ≤ inHand pc)
    (inside : paging after = paging pc) : Paced after calls {l with steps := l.steps + 1} s := by
  obtain ⟨naps,tries,pauses,short,long⟩ := paced
  exact ⟨by rw [owes]; exact naps,by dsimp only; omega,by rw [inside]; exact pauses,short,long⟩

theorem pacedNap (draw : Nat) (paced : Paced pc calls l s) (owes : owed pc = 1) (inside : paging pc = 1)
    (rest : List BroadcastRecipient) : Paced (.chunk rest) calls {l with steps := l.steps + 1}
      {s with messages := s.messages ++ [humanizedDelay 2000 5000 draw]} := by
  obtain ⟨naps,tries,pauses,short,long⟩ := paced
  refine ⟨?_,?_,?_,?_,long⟩
  · simp only [List.length_append,List.length_singleton,owed]
    omega
  · simp only [inHand]
    omega
  · simp only [paging]
    omega
  · intro d member
    rcases List.mem_append.mp member with old | new
    · exact short d old
    · exact List.mem_singleton.mp new ▸ delayBounds (by decide)

theorem pacedPause (draw : Nat) (paced : Paced (.chunk []) calls l s) : Paced .loop calls {l with steps := l.steps + 1}
    {s with pauses := s.pauses ++ [humanizedDelay 5000 15000 draw]} := by
  obtain ⟨naps,tries,pauses,short,long⟩ := paced
  refine ⟨naps,tries,?_,short,fun d member => ?_⟩
  · simp only [paging,List.length_append,List.length_singleton] at pauses ⊢
    omega
  · rcases List.mem_append.mp member with old | new
    · exact long d old
    · exact List.mem_singleton.mp new ▸ delayBounds (by decide)

theorem pacedWritten (draw : Nat) (r : BroadcastRecipient) (rest : List BroadcastRecipient) (sent failed : Int)
    (at_ : pc = .sendFailed r rest ∨ ∃ inst, pc = .sendOk inst r rest) (paced : Paced pc calls l s) :
    Paced (afterSend sent failed rest) (calls + sends pc) (note pc (afterSend sent failed rest) l)
      (nap pc (afterSend sent failed rest) draw s) := by
  have owes : owed pc = 1 ∧ paging pc = 1 := by rcases at_ with rfl | ⟨inst,rfl⟩ <;> exact ⟨rfl,rfl⟩
  have quiet_ : sends pc = 0 := by rcases at_ with rfl | ⟨inst,rfl⟩ <;> rfl
  rw [quiet_]
  unfold afterSend
  split
  · have still : Paced (.progress rest) calls {l with steps := l.steps + 1} s :=
      pacedStill paced owes.1.symm (Nat.zero_le _) owes.2.symm
    rcases at_ with rfl | ⟨inst,rfl⟩ <;> exact still
  · have slept := pacedNap draw paced owes.1 owes.2 rest
    rcases at_ with rfl | ⟨inst,rfl⟩ <;> exact slept

theorem pacedWorker (open_ : w.done = false) (draw : Nat) (paced : Paced w.pc calls l s)
    (moved : WorkerStep g j o w next effect) :
    Paced next.pc (calls + sends w.pc) (note w.pc next.pc l) (nap w.pc next.pc draw s) := by
  cases moved with
  | stopped at_ done | chunkStopped r rest at_ done => rw [open_] at done; cases done
  | page recipients at_ =>
    rw [at_] at paced ⊢
    obtain ⟨naps,tries,pauses,short,long⟩ := paced
    refine ⟨naps,tries,?_,short,long⟩
    simp only [note,nap,paging,List.length_append,List.length_singleton] at pauses ⊢
    omega
  | chunkEnd at_ => rw [at_] at paced ⊢; exact pacedPause draw paced
  | reaches r rest at_ =>
    rw [at_] at paced ⊢
    obtain ⟨naps,tries,pauses,short,long⟩ := paced
    refine ⟨naps,?_,pauses,short,long⟩
    simp only [note,inHand,sends,List.length_append,List.length_singleton] at tries ⊢
    omega
  | delivers inst text r rest at_ | refused inst text r rest at_ =>
    rw [at_] at paced ⊢
    obtain ⟨naps,tries,pauses,short,long⟩ := paced
    exact ⟨congrArg (· + 1) naps,tries,pauses,short,long⟩
  | markUnsent r rest at_ | loseUnsent r rest at_ => exact pacedWritten draw r rest _ _ (.inl at_) paced
  | markSent inst r rest at_ | loseSent inst r rest at_ => exact pacedWritten draw r rest _ _ (.inr ⟨inst,at_⟩) paced
  | reports rest at_ | losesReport rest at_ => rw [at_] at paced ⊢; exact pacedNap draw paced rfl rfl rest
  | selectFailed sel e r rest at_ => rw [at_] at paced ⊢; exact pacedStill paced rfl (Nat.zero_le _) rfl
  | selectNext sel after r rest at_ | selectCached sel strategy r rest at_ | selectChose sel inst r rest at_
  | markUnselected e r rest at_ | loseUnselected e r rest at_ =>
    rw [at_] at paced ⊢
    exact pacedStill paced rfl (Nat.le_refl _) rfl
  | started at_ | notStarted at_ | goesOn at_ | unread at_ | emptied at_ | totals at_ | losesTotals at_ | completes at_
  | losesCompletion at_ | returns at_ => rw [at_] at paced ⊢; exact pacedStill paced rfl (Nat.le_refl _) rfl

end Steps

section Run
variable {g : System} {j : Nat} {b : Broadcast}

def Steady (g : System) (j : Nat) (b : Broadcast) (x : (System × Log) × Sleeps) : Prop :=
  Good g j b x.1 ∧ Paced (pcAt x.1.1 j) (tried j x.1.1) x.1.2 x.2

theorem triedBeside {t : System} {e : Event} (aside : beside e = true) (moved : Moved g e t) : tried j t = tried j g := by
  rcases workerOrOutside moved with outside | ⟨_,_,_,_,_,rfl,_⟩
  · rcases outside.sends with same | ⟨k,call,origin,same⟩
    · rw [tried,same]
      rfl
    · simp [tried,same,byWorker,origin]
  · cases aside

theorem steadyStep (ready : Ready g j b) (x : (System × Log) × Sleeps) (e : Event × Nat) (y : (System × Log) × Sleeps)
    (steady : Steady g j b x) (alone : Undisturbed j x.1.1 e.1) (moved : timed j x e = some y) : Steady g j b y := by
  obtain ⟨good,paced⟩ := steady
  obtain ⟨z,watched_,rfl⟩ := Option.map_eq_some_iff.mp moved
  refine ⟨goodStep ready x.1 e.1 z good alone watched_,?_⟩
  obtain ⟨w,past,unread,found,written,inv⟩ := good
  obtain ⟨t,stepped,rfl⟩ := Option.map_eq_some_iff.mp watched_
  have source := movedSource stepped
  cases own : moves j e.1 with
  | false =>
    have aside : beside e.1 = true := by simpa [own] using alone.1
    have same : pcAt t j = pcAt x.1.1 j := by rw [pcAt,pcAt,(besideFrame aside source j).1]
    simp only [Bool.false_eq_true,if_false,same,triedBeside aside source]
    exact paced
  | true =>
    cases event : e.1 with
    | worker k o =>
      rw [event] at own source
      cases beq_iff_eq.mp own
      cases source with
      | opens e c call => cases call
      | worker _ _ v next effect here inner =>
        cases Option.some.inj (found.symm.trans here)
        have after := workerAfter found inner j
        rw [if_pos rfl] at after
        rw [pcFound found] at paced ⊢
        simp only [if_true,pcFound after,triedWorker inner]
        exact pacedWorker inv.open_ e.2 paced inner
    | _ => rw [event] at own; cases own

def system (x : (System × Log) × Sleeps) : System := x.1.1

theorem timedStep (x : (System × Log) × Sleeps) (e : Event × Nat) : (timed j x e).map system = step (system x) e.1 := by
  simp [timed,watched,system,Function.comp_def]

theorem steadyStart (ready : Ready g j b) : Steady g j b ((g,blank),awake) := by
  have none_ : tried j g = 0 := by
    refine List.countP_eq_zero.mpr (fun c member mine => ?_)
    unfold byWorker at mine
    split at mine
    · next k row origin => exact ready.unsent c member row (origin.trans (by rw [beq_iff_eq.mp mine]))
    · cases mine
  refine ⟨goodStart ready,?_⟩
  rw [pcFound ready.worker,none_]
  exact ⟨rfl,Nat.le_refl _,rfl,nofun,nofun⟩

theorem sumBounds {low high : Nat} {xs : List Nat} (each : ∀ x ∈ xs, low ≤ x ∧ x ≤ high) :
    low * xs.length ≤ xs.sum ∧ xs.sum ≤ high * xs.length := by
  have least := List.card_nsmul_le_sum xs low (fun x member => (each x member).1)
  have most := List.sum_le_card_nsmul xs high (fun x member => (each x member).2)
  rw [smul_eq_mul,Nat.mul_comm] at least most
  exact ⟨least,most⟩

structure Slept (n m : Nat) (s : Sleeps) : Prop where
  tries : m ≤ n
  least : 2000 * m + 5000 * ((n + 19) / 20) ≤ asleep s
  most : asleep s ≤ 4999 * m + 14999 * ((n + 19) / 20)

theorem sleptRun (ready : Ready g j b) {events : List (Event × Nat)} {t : System}
    (alone : Guarded step (Undisturbed j) g (events.map Prod.fst)) (ran : run step g (events.map Prod.fst) = some t)
    (stopped : pcAt t j = .returned) : ∃ l s, run (timed j) ((g,blank),awake) events = some ((t,l),s) ∧
      Slept (pendingOf g.store b.id).length (tried j t) s := by
  have mirrored := runMirrored (timedStep (j := j)) ((g,blank),awake) events
  rw [system,ran] at mirrored
  obtain ⟨⟨⟨_,l⟩,s⟩,reached,rfl⟩ := Option.map_eq_some_iff.mp mirrored
  have guarded := guardedMirrored (s := ((g,blank),awake)) (timedStep (j := j)) alone
  obtain ⟨good,paced⟩ := guardedRun (steadyStep ready) (steadyStart ready) guarded reached
  refine ⟨l,s,reached,?_⟩
  have done := processed ready good stopped
  obtain ⟨naps,tries,pauses,short,long⟩ := paced
  dsimp only [system] at stopped naps tries pauses short long done ⊢
  rw [stopped] at naps tries pauses
  simp only [owed,inHand,paging,Nat.add_zero] at naps tries pauses
  have taken := done.taken.length_eq
  have pages := done.chunks
  have first := sumBounds short
  have second := sumBounds long
  rw [naps] at first
  rw [pauses,pages] at second
  exact ⟨by omega,by simp only [asleep]; omega,by simp only [asleep]; omega⟩

theorem sleptMinutes {n m : Nat} {s : Sleeps} (slept : Slept n m s) : (asleep s : Int) < 60000 * (estimateDuration n + 2) ∧
    (m = n → 60000 * (estimateDuration n - 1) ≤ 3 * asleep s) := by
  obtain ⟨tries,least,most⟩ := slept
  simp only [estimateDuration]
  omega

end Run

section Created
variable {jsonb : Json → Option Json} {before g : System} {tenant : Option UUID} {group : Param} {body : Option Json}
  {a : Answers}

structure Launched (jsonb : Json → Option Json) (before g : System) (body : Option Json) (a : Answers)
    (total minutes : Int) : Prop where
  made : ∃ groupId json s b full, body = some json ∧
    create jsonb before.store a.id a.createdAt groupId (decodeCreateBroadcastInput json).value = some (s,b) ∧
    createRecipients s a.ids b.id (decodeCreateBroadcastInput json).value.recipients = some full ∧
    total = b.total ∧ minutes = estimateDuration b.total ∧
    g = if (decodeCreateBroadcastInput json).value.options.scheduleAt = none then startJob (write before full) b
      else write before full

theorem answeredSource {response : Response} {id : UUID} {status : BroadcastStatus} {total minutes createdAt : Int}
    (made : broadcastCreate jsonb before tenant group body a = (g,response))
    (answered : response.body = some (.data (.created id status total minutes createdAt))) :
    Launched jsonb before g body a total minutes := by
  unfold broadcastCreate at made
  split at made
  · cases made; cases answered
  split at made
  · cases made; cases answered
  next groupId _ =>
  split at made
  · cases made; cases answered
  split at made
  · split at made
    · cases made; cases answered
    next json =>
    dsimp only at made
    split at made
    · cases made; cases answered
    split at made
    · cases made; cases answered
    split at made
    · cases made; cases answered
    unfold insertBroadcast at made
    split at made
    · cases made; cases answered
    next s b row =>
    split at row <;> try contradiction
    split at made
    · cases made; cases answered
    next full batch =>
    split at batch <;> try contradiction
    obtain ⟨rfl,rfl⟩ := Prod.mk.inj made
    cases answered
    exact ⟨groupId,json,s,b,full,rfl,row,batch,rfl,rfl,rfl⟩
  · cases made; cases answered

theorem createdRow {s t : Tables} {id groupId : UUID} {at_ : Int} {input : CreateBroadcastInput} {b : Broadcast}
    (made : create jsonb s id at_ groupId input = some (t,b)) :
    b.total = input.recipients.length ∧ t.recipients = s.recipients := by
  simp only [create,bind,Option.bind_eq_some_iff] at made
  obtain ⟨_,_,_,_,_,_,_,_,_,_,_,_,made⟩ := made
  cases made
  exact ⟨rfl,rfl⟩

theorem launchedReady {total minutes : Int} (launched : Launched jsonb before g body a total minutes)
    (unscheduled : ∀ json ∈ body, (decodeCreateBroadcastInput json).value.options.scheduleAt = none)
    (keys : Distinct BroadcastRecipient.id g.store.recipients) (new : ∀ r ∈ before.store.recipients, r.broadcastId ≠ a.id)
    (unsent : ∀ c ∈ before.sends, ∀ row, c.origin ≠ .worker before.workers.length row) :
    ∃ b, Ready g before.workers.length b ∧ total = (pendingOf g.store b.id).length ∧ minutes = estimateDuration total := by
  obtain ⟨groupId,json,s,b,full,rfl,row,batch,rfl,rfl,rfl⟩ := launched.made
  rw [if_pos (unscheduled json rfl)] at keys ⊢
  simp only [createRecipients,bind,Option.bind_eq_some_iff] at batch
  obtain ⟨rows,added,batch⟩ := batch
  cases batch
  have whole := recipientRowsMade added
  obtain ⟨total,same⟩ := createdRow row
  have key := (createId row).1
  refine ⟨b,⟨List.getElem?_concat_length,keys,unsent⟩,?_,rfl⟩
  have old : s.recipients.filter (fun r => r.broadcastId == b.id && r.status == .pending) = [] :=
    List.filter_eq_nil_iff.mpr (fun r member => by simp [key,new r (same ▸ member)])
  have mine : rows.filter (fun r => r.broadcastId == b.id && r.status == .pending) = rows :=
    List.filter_eq_self.mpr (fun r member => by simp [whole.pending r member])
  simp only [pendingOf,startJob,write,List.filter_append,old,mine,List.nil_append,whole.length,total]

/-- Once the worker of a new broadcast has gone through all its numbers undisturbed, it has slept less than two minutes more
than the answer to the creation announced, whatever was drawn; and it has slept a third of all but one of these minutes if
there was an instance for every number. -/
theorem estimateHolds {response : Response} {id : UUID} {status : BroadcastStatus} {total minutes createdAt : Int}
    (made : broadcastCreate jsonb before tenant group body a = (g,response))
    (answered : response.body = some (.data (.created id status total minutes createdAt)))
    (unscheduled : ∀ json ∈ body, (decodeCreateBroadcastInput json).value.options.scheduleAt = none)
    (keys : Distinct BroadcastRecipient.id g.store.recipients) (new : ∀ r ∈ before.store.recipients, r.broadcastId ≠ a.id)
    (unsent : ∀ c ∈ before.sends, ∀ row, c.origin ≠ .worker before.workers.length row)
    {events : List (Event × Nat)} {t : System}
    (alone : Guarded step (Undisturbed before.workers.length) g (events.map Prod.fst))
    (ran : run step g (events.map Prod.fst) = some t) (stopped : pcAt t before.workers.length = .returned) :
    ∃ l s, run (timed before.workers.length) ((g,blank),awake) events = some ((t,l),s) ∧
      Slept total.toNat (tried before.workers.length t) s ∧ (asleep s : Int) < 60000 * (minutes + 2) ∧
      (tried before.workers.length t = total → 60000 * (minutes - 1) ≤ 3 * asleep s) := by
  obtain ⟨b,ready,whole,rfl⟩ := launchedReady (answeredSource made answered) unscheduled keys new unsent
  obtain ⟨l,s,reached,slept⟩ := sleptRun ready alone ran stopped
  obtain ⟨less,more⟩ := sleptMinutes slept
  rw [whole]
  exact ⟨l,s,reached,slept,less,fun all => more (Int.ofNat.inj all)⟩

end Created

def twoNumbers : Json :=
  .obj [(text "recipients",.arr [.str (text "5511999999999"),.str (text "5511888888888")]),(text "type",.str (text "text")),
    (text "content",sampleContent)]

def empty_ : System := boot ⟨[sampleGroup],[sampleInstance],[],[],[]⟩

def newBroadcast : System × Response :=
  broadcastCreate some empty_ (some 100) (sampleParam 1) (some twoNumbers) ⟨true,true,true,21,0,[31,32]⟩

def drawn : List (Event × Nat) := straightRun.map (fun e => (e,2999))

theorem estimateHoldsTwo : ∃ t l s, run (timed 0) ((newBroadcast.1,blank),awake) drawn = some ((t,l),s) ∧
    tried 0 t = 2 ∧ Slept 2 (tried 0 t) s ∧ (asleep s : Int) < 60000 * (1 + 2) ∧
      (tried 0 t = (2 : Int) → 60000 * (1 - 1) ≤ 3 * (asleep s : Int)) := by
  have ends : (run step newBroadcast.1 (drawn.map Prod.fst)).map (fun t => (pcAt t 0,tried 0 t)) = some (.returned,2) := by
    decide +kernel
  obtain ⟨t,ran,values⟩ := Option.map_eq_some_iff.mp ends
  simp only [Prod.mk.injEq] at values
  have alone : Guarded step (Undisturbed 0) newBroadcast.1 (drawn.map Prod.fst) := guardedChecks (by decide +kernel)
  have answered : newBroadcast.2.body = some (.data (.created 21 .pending 2 1 0)) := rfl
  have made : broadcastCreate some empty_ (some 100) (sampleParam 1) (some twoNumbers) ⟨true,true,true,21,0,[31,32]⟩ =
      (newBroadcast.1,newBroadcast.2) := rfl
  have unscheduled : ∀ json ∈ some twoNumbers, (decodeCreateBroadcastInput json).value.options.scheduleAt = none :=
    fun json same => (by cases same; rfl)
  obtain ⟨l,s,reached,slept,less,more⟩ := estimateHolds made answered unscheduled (by decide +kernel) nofun nofun alone ran
    values.1
  exact ⟨t,l,s,reached,values.2,slept,less,more⟩

end WppGateway.Pacing
