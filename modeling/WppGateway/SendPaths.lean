import WppGateway.Payload
import WppGateway.SingleSend

/-! The two paths to SendTextMessage on one recipient, one type and one content: a
worker that is about to ask for an instance, and a single send that asks from the
same state with the same answers of the database and of the connections. -/
namespace WppGateway.SendPaths
open Runs GoJson Domain Store Table Selection Gateway Http MessageText Transitions HeldRows BroadcastCreate Payload
open SelectAlone SingleSend

def oneBody (toNumber type : GoString) (content : Json) : Json :=
  .obj [(text "recipients",.arr [.str toNumber]),(text "type",.str type),(text "content",content)]

theorem oneDecoded (toNumber type : GoString) (content : Json) :
    decodeCreateBroadcastInput (oneBody toNumber type content) =
      ⟨⟨[toNumber],type,some content,none,noOptions⟩,.ok⟩ := rfl

/- What the JSONB type does to the two documents that the repository itself writes. -/
structure Faithful (jsonb : Json → Option Json) : Prop where
  empty : jsonb (.obj []) = some (.obj [])
  options : ∀ stored, jsonb (encodeOptions noOptions) = some stored → (decodeOptions noOptions stored).value = noOptions

theorem oneRow {jsonb : Json → Option Json} {s made : Tables} {id groupId : UUID} {at_ : Int} {b : Broadcast}
    {toNumber type : GoString} {content : Json} (keeps : Faithful jsonb)
    (row : create jsonb s id at_ groupId ⟨[toNumber],type,some content,none,noOptions⟩ = some (made,b)) :
    jsonb content = some b.content ∧ b.vars = .obj [] ∧ broadcastOptions b = noOptions := by
  simp only [create,bind,Option.bind_eq_some_iff] at row
  obtain ⟨_,_,_,_,given,same,stored,faithful,vars,empty,options,encoded,row⟩ := row
  cases same
  cases row
  refine ⟨faithful,?_,keeps.options options encoded⟩
  exact Option.some.inj (empty.symm.trans keeps.empty)

theorem writtenPlain {b : Broadcast} {recipient sent : GoString} (vars : b.vars = .obj [])
    (options : broadcastOptions b = noOptions) (written : Written b recipient sent) : sent = broadcastBody b := by
  obtain ⟨order,choices,perm,rfl⟩ := written
  have none_ : recipientVars b recipient = [] := by rw [recipientVars,vars]; rfl
  rw [none_] at perm
  rw [List.perm_nil.mp perm,messageTextPlain (by rw [options]; rfl)]

theorem callSource {t u : System} {j : Nat} {o : Oracle} {call : SendCall} (moved : step t (.worker j o) = some u)
    (called : u.sends = t.sends ++ [call]) : ∃ w inst sent r rest, t.workers[j]? = some w ∧
      w.pc = .sending inst sent r rest ∧ call.toNumber = r.recipient ∧ call.text = sent := by
  cases movedSource moved with
  | opens e c opens => cases opens
  | worker j o w next effect found inner =>
    by_cases sent : area effect = .sends
    · cases effect with
      | send made =>
        obtain ⟨inst,text,r,rest,at_,_,toNumber,body⟩ := workerCalls inner
        have same : made = call := by simpa [perform,setWorker] using called
        exact ⟨w,inst,text,r,rest,found,at_,same ▸ toNumber,same ▸ body⟩
      | _ => cases sent
    · rw [sendsPerform sent] at called
      simp [setWorker] at called

structure Sendable (jsonb : Json → Option Json) (toNumber type : GoString) (content : Json) : Prop where
  phone : validPhone toNumber = true
  type : type = text "text"
  decoded : (decodeContent content).ok = true
  body : ∀ stored, jsonb content = some stored →
    (decodeContent stored).value.body = (decodeContent content).value.body

theorem groupsRun {g t : System} {events : List Event} (ran : run step g events = some t) :
    t.store.groups = g.store.groups :=
  guardedRun (fun _ _ _ same _ moved => (groupsMoved (movedSource moved)).trans same) rfl
    (guardedEach (fun _ _ _ => trivial) g) ran

structure BroadcastSends (jsonb : Json → Option Json) (s : System) (tenant : UUID) (group : Param)
    (toNumber : GoString) (content : Json) (o : Oracle) (call : SendCall) : Prop where
  answers : ∃ groupId inst, group.parsed = some groupId ∧ Selects s groupId o inst ∧
    (findGroup s.store groupId).any (fun row => row.tenantId == tenant) = true
  number : varchar 20 toNumber = some call.toNumber
  text : ∃ stored, jsonb content = some stored ∧ call.text = (decodeContent stored).value.body

section Broadcast
variable {jsonb : Json → Option Json} {g start s t u : System} {tenant : UUID} {group : Param} {a : Answers}
  {response : Response} {events : List Event} {toNumber type : GoString} {content : Json} {j n : Nat}
  {o last : Oracle} {w : Worker} {r : BroadcastRecipient} {rest : List BroadcastRecipient} {call : SendCall}

theorem broadcastSends (keeps : Faithful jsonb) (unused : Unused a.id g)
    (made : broadcastCreate jsonb g (some tenant) group (some (oneBody toNumber type content)) a = (start,response))
    (accepted : response.status = 201) (starts : ∀ e ∈ events, ∀ b, e = .startBroadcast b → b.id ≠ a.id)
    (ran : run step start events = some s) (found : s.workers[j]? = some w) (own : w.broadcast.id = a.id)
    (asks : w.pc = .selecting .pauseCheck r rest) (selects : Guarded step (StillSelects j) s (works j n o))
    (selected : run step s (works j n o) = some t) (moved : step t (.worker j last) = some u)
    (called : u.sends = t.sends ++ [call]) : BroadcastSends jsonb s tenant group toNumber content o call := by
  obtain ⟨_,groupId,_,b,same,parsed,owned,body,inserted⟩ := createdSource made accepted
  cases same
  cases body
  rw [oneDecoded] at inserted
  have carried := insertedCarried unused inserted
  have row : (b.id = a.id ∧ b.groupId = groupId) ∧ start.store.groups = g.store.groups ∧
      jsonb content = some b.content ∧ b.vars = .obj [] ∧ broadcastOptions b = noOptions := by
    cases inserted with
    | rows made full row batch =>
      obtain ⟨_,_,groups,_⟩ := insertedRows row batch
      refine ⟨createId row,?_,oneRow keeps row⟩
      split <;> exact groups
  obtain ⟨⟨key,ofGroup⟩,groups,stored,vars,options⟩ := row
  -- the message travels from the row to the worker that asks and to the call
  have before := throughoutEnd (payloadRun carried (guardedEach (fun e member _ c same key' =>
    absurd (key'.trans key) (starts e member c same)) start)) ran
  have after := throughoutEnd (payloadRun before (guardedEach (fun e member _ c same _ => by
    simp [works,same] at member) s)) selected
  obtain ⟨v,inst,sent,q,left,here,sends,number,text_⟩ := callSource moved called
  obtain ⟨kept,chosen⟩ := workerSelects found asks selects selected here sends
  have carries := after.workers v (List.mem_of_getElem? here) (by rw [kept]; exact own.trans key.symm)
  rw [← kept,carries.message.group,ofGroup] at chosen
  refine ⟨⟨groupId,inst,parsed,chosen,?_⟩,?_,b.content,stored,?_⟩
  · rw [findGroup,groupsRun ran,groups]
    exact owned
  · obtain ⟨recipient,listed,cut⟩ := carries.page q (by rw [sends]; exact List.mem_cons_self)
    cases List.mem_singleton.mp listed
    rw [number]
    exact cut
  · rw [text_]
    exact writtenPlain vars options (carries.text inst sent q left sends)

/-- What the broadcast sends, a single send in the same state sends exactly when it is sendable. -/
theorem sendPathsAgree (keeps : Faithful jsonb) (unused : Unused a.id g)
    (made : broadcastCreate jsonb g (some tenant) group (some (oneBody toNumber type content)) a = (start,response))
    (accepted : response.status = 201) (starts : ∀ e ∈ events, ∀ b, e = .startBroadcast b → b.id ≠ a.id)
    (ran : run step start events = some s) (found : s.workers[j]? = some w) (own : w.broadcast.id = a.id)
    (asks : w.pc = .selecting .pauseCheck r rest) (selects : Guarded step (StillSelects j) s (works j n o))
    (selected : run step s (works j n o) = some t) (moved : step t (.worker j last) = some u)
    (called : u.sends = t.sends ++ [call]) :
    SingleSends s ⟨some tenant,group,some (singleBody toNumber type content)⟩ o call.toNumber call.text ↔
      Sendable jsonb toNumber type content := by
  obtain ⟨⟨groupId,inst,parsed,chosen,owned⟩,number,stored,held,sent⟩ :=
    broadcastSends keeps unused made accepted starts ran found own asks selects selected moved called
  constructor
  · intro single
    obtain ⟨phone,_,typed,_,given,decoded,same⟩ := singleAccepted single
    cases Option.some.inj given
    refine ⟨phone,typed,decoded,fun copy copied => ?_⟩
    cases Option.some.inj (held.symm.trans copied)
    exact sent.symm.trans same.symm
  · intro sendable
    have same : call.toNumber = toNumber := Option.some.inj (number.symm.trans (varcharPhone sendable.phone))
    rw [same]
    exact singleReaches chosen parsed owned sendable.phone
      ⟨sendable.type,content,rfl,sendable.decoded,((sendable.body stored held).symm.trans sent.symm)⟩

end Broadcast

def oneTables : Tables := {sampleTables [] with broadcasts := []}
def oneAnswers : Answers := ⟨true,true,true,21,0,[31]⟩

def oneCreate (toNumber type : String) : System × Response :=
  broadcastCreate some (boot oneTables) (some 100) (sampleParam 1)
    (some (oneBody (text toNumber) (text type) sampleContent)) oneAnswers

theorem unusedOne : Unused oneAnswers.id (boot oneTables) := by
  constructor <;> simp [boot,oneTables,sampleTables]

theorem someFaithful : Faithful some := ⟨rfl,by rintro _ ⟨⟩; rfl⟩

def singleRequest (toNumber type : String) : SendRequest :=
  ⟨some 100,sampleParam 1,some (singleBody (text toNumber) (text type) sampleContent)⟩

def oneAsks (toNumber type : String) : System :=
  (run step (oneCreate toNumber type).1 (works 0 4 accepts)).getD (boot oneTables)
def oneHas (toNumber type : String) : System :=
  (run step (oneAsks toNumber type) (works 0 5 accepts)).getD (boot oneTables)
def oneSent (toNumber type : String) : System :=
  (step (oneHas toNumber type) (.worker 0 accepts)).getD (boot oneTables)

theorem ranTo {α : Type} {x : Option α} (ran : x.isSome = true) (other : α) : x = some (x.getD other) := by
  cases x with
  | none => cases ran
  | some a => rfl

theorem phoneSendsAlike : SingleSends (oneAsks "5511999999999" "text") (singleRequest "5511999999999" "text") accepts
    (text "5511999999999") (text "oi") ↔ Sendable some (text "5511999999999") (text "text") sampleContent := by
  have worker : ((oneAsks "5511999999999" "text").workers[0]?).map (fun w => (w.broadcast.id,w.pc)) =
      some (21,.selecting .pauseCheck {sampleRecipient 31 with recipient := text "5511999999999"} []) := by
    decide +kernel
  obtain ⟨w,found,values⟩ := Option.map_eq_some_iff.mp worker
  simp only [Prod.mk.injEq] at values
  have made : oneCreate "5511999999999" "text" = oneCreate "5511999999999" "text" := rfl
  have starts : ∀ e ∈ works 0 4 accepts, ∀ b, e = .startBroadcast b → b.id ≠ oneAnswers.id := by
    intro e member b same
    cases same
    simp [works] at member
  have ran : run step (oneCreate "5511999999999" "text").1 (works 0 4 accepts) = some (oneAsks "5511999999999" "text") :=
    ranTo (by decide +kernel) _
  have selects : Guarded step (StillSelects 0) (oneAsks "5511999999999" "text") (works 0 5 accepts) :=
    guardedChecks (by decide +kernel)
  have selected : run step (oneAsks "5511999999999" "text") (works 0 5 accepts) =
      some (oneHas "5511999999999" "text") := ranTo (by decide +kernel) _
  have moved : step (oneHas "5511999999999" "text") (.worker 0 accepts) = some (oneSent "5511999999999" "text") :=
    ranTo (by decide +kernel) _
  have called : (oneSent "5511999999999" "text").sends = (oneHas "5511999999999" "text").sends ++
      [⟨.worker 0 31,11,text "5511999999999",text "oi",true⟩] := by decide +kernel
  exact sendPathsAgree someFaithful unusedOne made (by decide +kernel) starts ran found values.1 values.2 selects
    selected moved called

theorem lettersSentAnyway :
    Faithful some ∧ Unused oneAnswers.id (boot oneTables) ∧ (oneCreate "abc" "text").2.status = 201 ∧
    (run step (oneAsks "abc" "text") (works 0 6 accepts)).map (fun t =>
      t.sends.map (fun c => (c.origin,c.toNumber,c.text))) = some [(.worker 0 31,text "abc",text "oi")] ∧
    ¬ SingleSends (oneAsks "abc" "text") (singleRequest "abc" "text") accepts (text "abc") (text "oi") := by
  refine ⟨someFaithful,unusedOne,by decide +kernel,by decide +kernel,fun single => ?_⟩
  have phone := (singleAccepted single).1
  revert phone
  decide

end WppGateway.SendPaths
