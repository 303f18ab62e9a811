import WppGateway.BroadcastCreate
import WppGateway.HeldRows

/-! What the workers of a broadcast send is what its row held when it was created:
no write changes the content, the variables, the options or a recipient's number. -/
namespace WppGateway.Payload
open Runs GoJson Domain Store Table Gateway MessageText Transitions HeldRows BroadcastCreate

structure SameMessage (a b : Broadcast) : Prop where
  group : a.groupId = b.groupId
  content : a.content = b.content
  vars : a.vars = b.vars
  options : a.options = b.options

theorem SameMessage.body {a b} (same : SameMessage a b) : broadcastBody a = broadcastBody b := by
  rw [broadcastBody,broadcastBody,same.content]

/- A text that can be built for a recipient. -/
def Written (b : Broadcast) (recipient text : GoString) : Prop :=
  ∃ order choices, order.Perm (recipientVars b recipient) ∧ text = messageText b order choices

theorem SameMessage.written {a b recipient text} (same : SameMessage a b) (written : Written a recipient text) :
    Written b recipient text := by
  obtain ⟨order,choices,perm,rfl⟩ := written
  refine ⟨order,choices,?_,?_⟩
  · rw [recipientVars,← same.vars]; exact perm
  · unfold messageText broadcastOptions
    rw [same.body,same.options]

def callRow : Call → Option Broadcast
  | .resumeWrite b | .resumeStart b => some b
  | _ => none

structure Carries (b : Broadcast) (To : GoString → Prop) (w : Worker) : Prop where
  message : SameMessage w.broadcast b
  page : ∀ r ∈ held w.pc, To r.recipient
  text : ∀ inst text r rest, w.pc = .sending inst text r rest → Written b r.recipient text

structure Carried (b : Broadcast) (To : GoString → Prop) (g : System) : Prop where
  rows : ∀ a ∈ g.store.broadcasts, a.id = b.id → SameMessage a b
  recipients : ∀ r ∈ g.store.recipients, r.broadcastId = b.id → To r.recipient
  calls : ∀ c ∈ g.calls, ∀ a, callRow c = some a → a.id = b.id → SameMessage a b
  workers : ∀ w ∈ g.workers, w.broadcast.id = b.id → Carries b To w
  known : ∀ call ∈ g.sends, ∀ j row, call.origin = .worker j row → j < g.workers.length
  sends : ∀ call ∈ g.sends, ∀ j row w, call.origin = .worker j row → g.workers[j]? = some w →
    w.broadcast.id = b.id → To call.toNumber ∧ Written b call.toNumber call.text

def StartsSame (b : Broadcast) (_ : System) (e : Event) : Prop :=
  ∀ a, e = .startBroadcast a → a.id = b.id → SameMessage a b

section Step
variable {b : Broadcast} {To : GoString → Prop} {g : System}

theorem appliedMessage (effect : Effect) (a : Broadcast) : SameMessage (applied effect a) a := by
  cases effect <;> dsimp only [applied] <;> (try split) <;> exact ⟨rfl,rfl,rfl,rfl⟩

theorem rowBefore {e t} (moved : Moved g e t) {a : Broadcast} (after : a ∈ t.store.broadcasts) :
    ∃ old ∈ g.store.broadcasts, a.id = old.id ∧ SameMessage a old := by
  have wrote : ∀ (h : System) (effect : Effect), h.store.broadcasts = g.store.broadcasts →
      a ∈ (perform h effect).store.broadcasts → ∃ old ∈ g.store.broadcasts, a.id = old.id ∧ SameMessage a old := by
    intro h effect same member
    rw [broadcastsApplied,same] at member
    obtain ⟨old,before,rfl⟩ := List.mem_map.mp member
    exact ⟨old,before,(appliedKeeps effect old).1,appliedMessage effect old⟩
  cases moved with
  | call k ok c next effect => exact wrote (setCall g k next) effect rfl after
  | worker j o w next effect => exact wrote (setWorker g j next) effect rfl after
  | request k o r next effect => exact wrote (setRequest g k next) effect rfl after
  | _ => exact ⟨a,after,rfl,rfl,rfl,rfl,rfl⟩

theorem callBefore {ok c next effect} (inner : callStep g ok c = some (next,effect)) {a : Broadcast}
    (read : callRow next = some a) : callRow c = some a ∨ a ∈ g.store.broadcasts := by
  cases c with
  | pauseRead id => simp only [callStep] at inner; split at inner <;> cases inner <;> cases read
  | resumeFind id =>
    simp only [callStep] at inner
    split at inner
    · cases inner; cases read
    · split at inner
      · cases inner; cases read
      · next found =>
        cases inner
        cases read
        exact .inr (findBroadcastMember found).1
  | resumeWrite b =>
    simp only [callStep] at inner
    split at inner <;> cases inner <;> cases read
    exact .inl rfl
  | _ => cases inner <;> cases read

theorem callsCarried {e t} (inv : Carried b To g) (moved : Moved g e t) :
    ∀ c ∈ t.calls, ∀ a, callRow c = some a → a.id = b.id → SameMessage a b := by
  cases moved with
  | opens e c opens =>
    intro c' member a read key
    rcases List.mem_append.mp member with old | new
    · exact inv.calls c' old a read key
    · cases List.mem_singleton.mp new
      cases e <;> cases opens <;> cases read
  | call k ok c next effect found inner =>
    rw [callsPerform]
    intro c' member a read key
    rcases List.mem_or_eq_of_mem_set member with old | rfl
    · exact inv.calls c' old a read key
    · rcases callBefore inner read with before | row
      · exact inv.calls c (List.mem_of_getElem? found) a before key
      · exact inv.rows a row key
  | worker | request => rw [callsPerform]; exact inv.calls
  | _ => exact inv.calls

theorem outsideCarries {e t} (inv : Carried b To g) (safe : StartsSame b g e) (outside : Outside g e t) :
    ∀ w ∈ t.workers, w.broadcast.id = b.id → Carries b To w := by
  intro w member key
  obtain ⟨k,found⟩ := List.mem_iff_getElem?.mp member
  rcases outsideWorker outside found with ⟨a,starts,rfl,_⟩ | ⟨old,before,rfl | rfl⟩
  · refine ⟨?_,(by intro r page; cases page),(by intro inst text r rest at_; cases at_)⟩
    cases e with
    | startBroadcast a' => cases starts; exact safe a rfl key
    | call k ok =>
      simp only [started] at starts
      split at starts <;> try contradiction
      next found =>
        cases starts
        exact inv.calls _ (List.mem_of_getElem? found) a rfl key
    | _ => cases starts
  · exact inv.workers w (List.mem_of_getElem? before) key
  · obtain ⟨message,page,text⟩ := inv.workers old (List.mem_of_getElem? before) key
    exact ⟨message,page,text⟩

theorem workerCarries {j o w next effect} (inv : Carried b To g) (found : g.workers[j]? = some w)
    (inner : WorkerStep g j o w next effect) (key : w.broadcast.id = b.id) : Carries b To next := by
  have before := inv.workers w (List.mem_of_getElem? found) key
  refine ⟨by rw [(workerKeeps inner).1]; exact before.message,fun r member => ?_,?_⟩
  · rcases heldStep inner with suffix_ | ⟨_,page⟩
    · exact before.page r (suffix_.subset member)
    · obtain ⟨inside,mine,_⟩ := getPendingMember (page.subset member)
      exact inv.recipients r inside (mine.trans key)
  · intro inst text r rest at_
    cases inner with
    | selectChose sel inst r rest _ selected order =>
      cases at_
      exact before.message.written ⟨o.vars,o.choices,order,rfl⟩
    | markUnsent | loseUnsent | markSent | loseSent =>
      simp only [afterSend] at at_
      split at at_ <;> cases at_
    | _ => cases at_

theorem workerCalls {j o w next call} (inner : WorkerStep g j o w next (.send call)) :
    ∃ inst text r rest, w.pc = .sending inst text r rest ∧ call.origin = .worker j r.id ∧
      call.toNumber = r.recipient ∧ call.text = text := by
  cases inner with
  | delivers inst text r rest at_ => exact ⟨inst,text,r,rest,at_,rfl,rfl,rfl⟩
  | refused inst text r rest at_ => exact ⟨inst,text,r,rest,at_,rfl,rfl,rfl⟩

theorem rowsCarried {e t} (inv : Carried b To g) (moved : Moved g e t) :
    ∀ a ∈ t.store.broadcasts, a.id = b.id → SameMessage a b := by
  intro a member key
  obtain ⟨old,before,same,message⟩ := rowBefore moved member
  have kept := inv.rows old before (same.symm.trans key)
  exact ⟨message.group.trans kept.group,message.content.trans kept.content,message.vars.trans kept.vars,
    message.options.trans kept.options⟩

theorem carriedOutside {e t} (inv : Carried b To g) (safe : StartsSame b g e) (moved : Moved g e t)
    (outside : Outside g e t) : Carried b To t := by
  have older : ∀ call ∈ t.sends, ∀ j row, call.origin = .worker j row → call ∈ g.sends := by
    intro call member j row origin
    rcases outside.sends with same | ⟨k,new,owner,added⟩
    · rw [← same]; exact member
    · rw [added] at member
      rcases List.mem_append.mp member with old | last
      · exact old
      · cases List.mem_singleton.mp last
        rw [owner] at origin; cases origin
  refine ⟨rowsCarried inv moved,by rw [outside.recipients]; exact inv.recipients,callsCarried inv moved,
    outsideCarries inv safe outside,?_,?_⟩
  · intro call member j row origin
    have inside := inv.known call (older call member j row origin) j row origin
    obtain ⟨w,here,_⟩ := outsideKeeps outside (List.getElem?_eq_getElem inside)
    exact (List.getElem?_eq_some_iff.mp here).choose
  · intro call member j row w origin found key
    have old := older call member j row origin
    have inside := inv.known call old j row origin
    rcases outsideWorker outside found with ⟨a,_,_,last⟩ | ⟨w',before,rfl | rfl⟩
    · omega
    · exact inv.sends call old j row w origin before key
    · exact inv.sends call old j row w' origin before key

theorem carriedWorker {j o w next effect} (inv : Carried b To g) (found : g.workers[j]? = some w)
    (inner : WorkerStep g j o w next effect) : Carried b To (perform (setWorker g j next) effect) := by
  have after := workerAfter found inner
  have moved := Moved.worker j o w next effect found inner
  have inside := (List.getElem?_eq_some_iff.mp found).choose
  have called : ∀ call ∈ (perform (setWorker g j next) effect).sends, call ∈ g.sends ∨ effect = .send call := by
    intro call member
    by_cases sends : area effect = .sends
    · cases effect with
      | send made =>
        rcases List.mem_append.mp member with old | new
        · exact .inl old
        · exact .inr (by rw [List.mem_singleton.mp new])
      | _ => cases sends
    · rw [sendsPerform sends] at member
      exact .inl member
  have broadcasts : ∀ (k : Nat) (v : Worker), (perform (setWorker g j next) effect).workers[k]? = some v →
      ∃ u, g.workers[k]? = some u ∧ v.broadcast = u.broadcast := by
    intro k v here
    rw [after] at here
    split at here
    · next same =>
      cases Option.some.inj here
      exact ⟨w,same ▸ found,(workerKeeps inner).1⟩
    · exact ⟨v,here,rfl⟩
  refine ⟨rowsCarried inv moved,?_,callsCarried inv moved,?_,?_,?_⟩
  · by_cases row : area effect = .recipients
    · obtain ⟨r,f,_,_,_,settles,written⟩ := touches inner row
      rw [written]
      intro q member key
      obtain ⟨old,before,rfl⟩ := memUpdate.mp member
      have kept : (if old.id = r.id then f old else old).broadcastId = old.broadcastId ∧
          (if old.id = r.id then f old else old).recipient = old.recipient := by
        split
        · exact ⟨settles.broadcastId old,settles.recipient old⟩
        · exact ⟨rfl,rfl⟩
      rw [kept.2]
      exact inv.recipients old before (kept.1.symm.trans key)
    · rw [recipientsPerform row]; exact inv.recipients
  · intro v member key
    obtain ⟨k,here⟩ := List.mem_iff_getElem?.mp member
    rw [after] at here
    split at here
    · cases Option.some.inj here
      exact workerCarries inv found inner (by rw [← (workerKeeps inner).1]; exact key)
    · exact inv.workers v (List.mem_of_getElem? here) key
  · intro call member k row origin
    rw [workersPerform (workerArea inner).1]
    simp only [setWorker,List.length_set]
    rcases called call member with old | rfl
    · exact inv.known call old k row origin
    · obtain ⟨_,_,_,_,_,owner,_⟩ := workerCalls inner
      rw [owner] at origin
      cases origin
      exact inside
  · intro call member k row v origin here key
    obtain ⟨u,before,same⟩ := broadcasts k v here
    rw [same] at key
    rcases called call member with old | rfl
    · exact inv.sends call old k row u origin before key
    · obtain ⟨inst,text,r,rest,at_,owner,toNumber,body⟩ := workerCalls inner
      rw [owner] at origin
      cases origin
      cases Option.some.inj (before.symm.trans found)
      have own := inv.workers _ (List.mem_of_getElem? found) key
      rw [toNumber,body]
      exact ⟨own.page r (by rw [at_]; exact List.mem_cons_self),own.text inst text r rest at_⟩

theorem carriedStep (e : Event) (t : System) (inv : Carried b To g) (safe : StartsSame b g e)
    (moved : step g e = some t) : Carried b To t := by
  have source := movedSource moved
  rcases workerOrOutside source with outside | ⟨j,o,w,next,effect,rfl,found,inner,rfl⟩
  · exact carriedOutside inv safe source outside
  · exact carriedWorker inv found inner

end Step

structure Unused (id : UUID) (g : System) : Prop where
  rows : ∀ a ∈ g.store.broadcasts, a.id ≠ id
  recipients : ∀ r ∈ g.store.recipients, r.broadcastId ≠ id
  calls : ∀ c ∈ g.calls, ∀ a, callRow c = some a → a.id ≠ id
  workers : ∀ w ∈ g.workers, w.broadcast.id ≠ id
  sends : ∀ call ∈ g.sends, ∀ j row, call.origin = .worker j row → j < g.workers.length

theorem insertedRows {jsonb : Json → Option Json} {s made full : Tables} {id groupId : UUID} {at_ : Int}
    {input : CreateBroadcastInput} {b : Broadcast} {ids : List UUID}
    (row : create jsonb s id at_ groupId input = some (made,b))
    (batch : createRecipients made ids id input.recipients = some full) :
    b.id = id ∧ full.broadcasts = s.broadcasts ++ [b] ∧ full.groups = s.groups ∧ full.instances = s.instances ∧
    ∃ rows, recipientRows id ids input.recipients = some rows ∧ full.recipients = s.recipients ++ rows := by
  simp only [create,bind,Option.bind_eq_some_iff] at row
  obtain ⟨_,_,_,_,_,_,_,_,_,_,_,_,row⟩ := row
  cases row
  simp only [createRecipients,bind,Option.bind_eq_some_iff] at batch
  obtain ⟨rows,shape,batch⟩ := batch
  cases batch
  exact ⟨rfl,rfl,rfl,rfl,rows,shape,rfl⟩

theorem insertedCarried {jsonb g groupId input a b t} (unused : Unused a.id g)
    (inserted : Inserted jsonb g groupId input a b t) :
    Carried b (fun number => ∃ recipient ∈ input.recipients, varchar 20 recipient = some number) t := by
  cases inserted with
  | rows s full row batch =>
    obtain ⟨key,broadcasts,_,_,rows,shape,recipients⟩ := insertedRows row batch
    have tables : Carried b (fun number => ∃ recipient ∈ input.recipients, varchar 20 recipient = some number)
        (write g full) := by
      refine ⟨?_,?_,?_,?_,unused.sends,?_⟩
      · intro a' member same
        rw [write,broadcasts] at member
        rcases List.mem_append.mp member with old | new
        · exact absurd (same.trans key) (unused.rows a' old)
        · rw [List.mem_singleton.mp new]
          exact ⟨rfl,rfl,rfl,rfl⟩
      · intro r member same
        rw [write,recipients] at member
        rcases List.mem_append.mp member with old | new
        · exact absurd (same.trans key) (unused.recipients r old)
        · exact (recipientRowsMade shape).texts r new
      · exact fun c member a' read same => absurd (same.trans key) (unused.calls c member a' read)
      · exact fun w member same => absurd (same.trans key) (unused.workers w member)
      · intro call member j row w origin found same
        exact absurd (same.trans key) (unused.workers w (List.mem_of_getElem? found))
    split
    · exact carriedOutside tables (e := .startBroadcast b) (fun a' same _ => by cases same; exact ⟨rfl,rfl,rfl,rfl⟩)
        (.starts b) ⟨rfl,.inr (.inr ⟨b,rfl,rfl⟩),.inl rfl,nofun⟩
    · exact tables

theorem payloadRun {b : Broadcast} {To : GoString → Prop} {g : System} {events : List Event}
    (start : Carried b To g) (safe : Guarded step (StartsSame b) g events) :
    Throughout step (Carried b To) g events :=
  guardedThroughout (fun _ e t inv safe moved => carriedStep e t inv safe moved) start safe

end WppGateway.Payload
