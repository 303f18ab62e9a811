import WppGateway.SelectAlone

/-! A single send that nobody interrupts: what it has checked when it calls
SendTextMessage, and the call that it comes to. -/
namespace WppGateway.SingleSend
open Runs GoJson Domain Store Selection Gateway Http MessageText Transitions HeldRows SelectAlone

def singleBody (toNumber type : GoString) (content : Json) : Json :=
  .obj [(text "to",.str toNumber),(text "type",.str type),(text "content",content)]

theorem singleDecoded (toNumber type : GoString) (content : Json) :
    decodeSendMessageInput (singleBody toNumber type content) = ⟨⟨toNumber,type,some content⟩,.ok⟩ := rfl

def SingleText (input : SendMessageInput) (sent : GoString) : Prop :=
  input.type = text "text" ∧ ∃ content, input.content = some content ∧ (decodeContent content).ok = true ∧
    (decodeContent content).value.body = sent

def Checked (request : SendRequest) (input : SendMessageInput) : Prop :=
  validPhone input.toNumber = true ∧ ∃ body, request.body = some body ∧ (decodeSendMessageInput body).value = input

def Passed (request : SendRequest) : Request → Prop
  | .received r => r = request
  | .selecting _ _ input | .logging _ _ input => Checked request input
  | .sending _ _ input sent => Checked request input ∧ SingleText input sent
  | _ => True

def Honest (request : SendRequest) (call : SendCall) : Prop :=
  ∃ input, Checked request input ∧ SingleText input call.text ∧ call.toNumber = input.toNumber

theorem checkSendPassed (g : System) (ok : Bool) (request : SendRequest) : Passed request (checkSend g ok request) := by
  unfold checkSend
  split
  · exact trivial
  split
  · exact trivial
  split
  · exact trivial
  split
  · split
    · exact trivial
    next body given =>
      dsimp only
      split
      · exact trivial
      split
      · exact trivial
      split
      · exact trivial
      next phone => exact ⟨by simpa using phone,body,given,rfl⟩
  · exact trivial

theorem checkContentPassed {request : SendRequest} {inst : Instance} {log : UUID} {input : SendMessageInput}
    (checked : Checked request input) : Passed request (checkContent inst log input) := by
  unfold checkContent
  split
  · next type =>
    split
    · next d decoded =>
      split
      · next ok =>
        obtain ⟨content,given,rfl⟩ := Option.map_eq_some_iff.mp decoded
        exact ⟨checked,type,content,given,ok,rfl⟩
      · exact trivial
    · exact trivial
  · exact trivial

theorem requestPassed {g : System} {k : Nat} {o : Oracle} {request : SendRequest} {r next : Request} {effect : Effect}
    (passed : Passed request r) (inner : requestStep g k o r = some (next,effect)) :
    Passed request next ∧ ∀ call, effect = .send call → Honest request call := by
  cases r with
  | received r =>
    cases inner
    have same : r = request := passed
    subst same
    exact ⟨checkSendPassed g o.ok r,fun call made => by cases made⟩
  | selecting sel groupId input =>
    simp only [requestStep] at inner
    split at inner <;> cases inner
    all_goals refine ⟨?_,fun call made => by cases made⟩
    all_goals first | exact passed | trivial
  | logging inst groupId input =>
    simp only [requestStep] at inner
    split at inner <;> cases inner
    · exact ⟨checkContentPassed passed,fun call made => by cases made⟩
    · exact ⟨trivial,fun call made => by cases made⟩
  | sending inst log input sent =>
    cases inner
    refine ⟨by split <;> exact trivial,?_⟩
    intro call made
    cases made
    exact ⟨input,passed.1,passed.2,rfl⟩
  | updateFailed log err => cases inner; exact ⟨trivial,fun call made => by split at made <;> cases made⟩
  | updateSent inst log => cases inner; exact ⟨trivial,fun call made => by split at made <;> cases made⟩
  | answered response => cases inner

structure Served (g : System) (k : Nat) (request : SendRequest) (u : System) : Prop where
  passed : ∀ r, u.requests[k]? = some r → Passed request r
  sends : ∃ made, u.sends = g.sends ++ made ∧ ∀ call ∈ made, Honest request call

theorem servedStep {g u t : System} {k : Nat} {o : Oracle} {request : SendRequest} (inv : Served g k request u)
    (moved : step u (.request k o) = some t) : Served g k request t := by
  cases movedSource moved with
  | opens e c call => cases call
  | request k o r next effect found inner =>
    obtain ⟨passed,honest⟩ := requestPassed (inv.passed r found) inner
    obtain ⟨made,sends,all⟩ := inv.sends
    have inside := (List.getElem?_eq_some_iff.mp found).choose
    refine ⟨fun q here => ?_,?_⟩
    · rw [requestsPerform] at here
      simp only [setRequest,List.getElem?_set_self inside,Option.some.injEq] at here
      exact here ▸ passed
    · by_cases sent : area effect = .sends
      · cases effect with
        | send call =>
          refine ⟨made ++ [call],by rw [← List.append_assoc,← sends]; rfl,fun c member => ?_⟩
          rcases List.mem_append.mp member with old | new
          · exact all c old
          · rw [List.mem_singleton.mp new]
            exact honest call rfl
        | _ => cases sent
      · rw [sendsPerform sent]
        exact ⟨made,sends,all⟩

theorem servedRun {g u t : System} {k m : Nat} {o : Oracle} {request : SendRequest} (inv : Served g k request u)
    (ran : run step u (serves k m o) = some t) : Served g k request t := by
  induction m generalizing u with
  | zero => cases Option.some.inj ran; exact inv
  | succ m ih =>
    obtain ⟨v,moved,later⟩ := runCons ran
    exact ih (servedStep inv moved) later

def receive (g : System) (request : SendRequest) : System := {g with requests := g.requests ++ [.received request]}

theorem receivedServed (g : System) (request : SendRequest) :
    Served g g.requests.length request (receive g request) := by
  refine ⟨fun r found => ?_,[],by simp [receive],by simp⟩
  simp only [receive,List.getElem?_concat_length,Option.some.injEq] at found
  rw [← found]
  exact rfl

theorem singleHonest {g t : System} {m : Nat} {o : Oracle} {request : SendRequest} {call : SendCall}
    (ran : run step g (.send request::serves g.requests.length m o) = some t)
    (sends : t.sends = g.sends ++ [call]) : Honest request call := by
  obtain ⟨made,same,honest⟩ := (servedRun (receivedServed g request) ran).sends
  rw [sends] at same
  exact honest call (by rw [← List.append_cancel_left same]; exact List.mem_singleton_self call)

structure At (g : System) (k : Nat) (q : Request) (u : System) : Prop where
  found : u.requests[k]? = some q
  sends : u.sends = g.sends
  store : u.store = g.store
  paused : u.paused = g.paused

def Reaches (g : System) (k : Nat) (o : Oracle) (u : System) (toNumber sent : GoString) : Prop :=
  ∃ m t call, run step u (serves k m o) = some t ∧ t.sends = g.sends ++ [call] ∧
    call.toNumber = toNumber ∧ call.text = sent

section Reaches
variable {g u : System} {k : Nat} {o : Oracle} {q next : Request} {toNumber sent : GoString}

theorem reachesOn {v : System} (moved : step u (.request k o) = some v) (later : Reaches g k o v toNumber sent) :
    Reaches g k o u toNumber sent := by
  obtain ⟨m,t,call,ran,rest⟩ := later
  refine ⟨m + 1,t,call,?_,rest⟩
  rw [serves,List.replicate_succ,run,moved]
  exact ran

theorem requestMoves {effect : Effect} (found : u.requests[k]? = some q)
    (inner : requestStep u k o q = some (next,effect)) :
    step u (.request k o) = some (perform (setRequest u k next) effect) ∧
    (perform (setRequest u k next) effect).requests[k]? = some next := by
  have inside := (List.getElem?_eq_some_iff.mp found).choose
  refine ⟨by simp only [step,found,bind,Option.bind,inner],?_⟩
  rw [requestsPerform]
  exact List.getElem?_set_self inside

theorem reachesSending {inst : Instance} {log : UUID} {input : SendMessageInput}
    (found : u.requests[k]? = some (.sending inst log input sent)) (sends : u.sends = g.sends) :
    Reaches g k o u input.toNumber sent := by
  obtain ⟨moved,_⟩ := requestMoves (o := o) found rfl
  have last : run step u (serves k 1 o) = step u (.request k o) := by simp [serves,run]
  exact ⟨1,_,⟨.request k,inst.id,input.toNumber,sent,o.ok⟩,last.trans moved,by rw [← sends]; rfl,rfl,rfl⟩

theorem reachesLogging {inst : Instance} {groupId : UUID} {input : SendMessageInput} (answered : o.ok = true)
    (phone : varchar 20 input.toNumber = some input.toNumber) (single : SingleText input sent)
    (at_ : At g k (.logging inst groupId input) u) : Reaches g k o u input.toNumber sent := by
  obtain ⟨type,content,given,decoded,body⟩ := single
  let m : MessageLog := ⟨o.freshId,some groupId,some inst.id,input.toNumber,input.type,.queued,none,o.today⟩
  have stored : (createMessage u.store m).isSome = true := by
    have named : varchar 20 (text "text") = some (text "text") := by decide
    simp [createMessage,m,phone,type,named]
  have inner : requestStep u k o (.logging inst groupId input) =
      some (.sending inst o.freshId input sent,.createMessage m) := by
    simp only [requestStep,answered,Bool.true_and]
    rw [if_pos stored,checkContent,if_pos type,given]
    simp only [Option.map_some,decoded,if_true,body]
    rfl
  obtain ⟨moved,after⟩ := requestMoves at_.found inner
  exact reachesOn moved (reachesSending after at_.sends)

theorem reachesNext {sel on : Selecting} {groupId : UUID} {input : SendMessageInput}
    (at_ : At g k (.selecting sel groupId input) u) (selected : selectStep u groupId o.ok o sel = some (.next on))
    (later : ∀ v, At g k (.selecting on groupId input) v → v.strategies = u.strategies →
      Reaches g k o v toNumber sent) : Reaches g k o u toNumber sent := by
  have inner : requestStep u k o (.selecting sel groupId input) = some (.selecting on groupId input,.none) := by
    simp only [requestStep,selected]
  obtain ⟨moved,after⟩ := requestMoves at_.found inner
  exact reachesOn moved (later _ ⟨after,at_.sends,at_.store,at_.paused⟩ rfl)

theorem reachesListing {s : Strategy} {groupId : UUID} {inst : Instance} {input : SendMessageInput}
    (selects : Selects g groupId o inst)
    (chosen : strategySelect s (o.listing.filter (fun i => o.connected i.id)) = .ok inst)
    (phone : varchar 20 input.toNumber = some input.toNumber) (single : SingleText input sent)
    (at_ : At g k (.selecting (.listing s) groupId input) u) : Reaches g k o u input.toNumber sent := by
  have selected : selectStep u groupId o.ok o (.listing s) = some (.chose inst) := by
    simp only [selectStep,selects.answered,at_.store,if_pos selects.listing]
    cases some_ : o.listing.filter (fun i => o.connected i.id) with
    | nil => rw [some_] at chosen; cases s <;> cases chosen
    | cons i rest => rw [some_] at chosen; simp [chosen]
  have inner : requestStep u k o (.selecting (.listing s) groupId input) = some (.logging inst groupId input,.none) := by
    simp only [requestStep,selected]
  obtain ⟨moved,after⟩ := requestMoves at_.found inner
  exact reachesOn moved (reachesLogging selects.answered phone single ⟨after,at_.sends,at_.store,at_.paused⟩)

theorem reachesSelecting {groupId : UUID} {inst : Instance} {input : SendMessageInput} (selects : Selects g groupId o inst)
    (phone : varchar 20 input.toNumber = some input.toNumber) (single : SingleText input sent)
    (at_ : At g k (.selecting .pauseCheck groupId input) u) (cache : u.strategies = g.strategies) :
    Reaches g k o u input.toNumber sent := by
  obtain ⟨s,uses,chosen⟩ := selects.chosen
  have open_ : selectStep u groupId o.ok o .pauseCheck = some (.next .lookup) := by
    simp [selectStep,at_.paused,selects.running]
  refine reachesNext at_ open_ (fun v at_ same => ?_)
  rcases uses with cached | ⟨empty,group,found,made⟩
  · have hit : selectStep v groupId o.ok o .lookup = some (.next (.listing s)) := by
      simp only [selectStep,same,cache,cached]
    exact reachesNext at_ hit (fun w at_ _ => reachesListing selects chosen phone single at_)
  · have miss : selectStep v groupId o.ok o .lookup = some (.next .group) := by
      simp only [selectStep,same,cache,empty]
    refine reachesNext at_ miss (fun w at_ _ => ?_)
    have read : selectStep w groupId o.ok o .group = some (.next (.cache s)) := by
      simp [selectStep,selects.answered,at_.store,found,made]
    refine reachesNext at_ read (fun x at_ _ => ?_)
    have inner : requestStep x k o (.selecting (.cache s) groupId input) =
        some (.selecting (.listing s) groupId input,.cacheStrategy groupId s) := rfl
    obtain ⟨moved,after⟩ := requestMoves at_.found inner
    exact reachesOn moved (reachesListing selects chosen phone single ⟨after,at_.sends,at_.store,at_.paused⟩)

theorem varcharShort {n : Nat} {s : GoString} (short : s.length ≤ n) (plain : s.all decimal = true) :
    varchar n s = some s := by
  have kept : ∀ (n : Nat) (s : GoString), s.length ≤ n → takeChars n s = s := by
    intro n s
    induction s generalizing n with
    | nil => intro _; cases n <;> rfl
    | cons b rest ih =>
      intro fits
      cases n with
      | zero => simp at fits
      | succ n =>
        simp only [List.length_cons,Nat.add_le_add_iff_right] at fits
        simp only [takeChars]
        split
        · rw [ih (n + 1) (by omega)]
        · rw [ih n fits]
  have none_ : 0 ∉ s := by
    intro zero
    have digit := List.all_eq_true.mp plain 0 zero
    revert digit
    decide
  simp [varchar,kept n s short,none_]

theorem varcharPhone {phone : GoString} (valid : validPhone phone = true) : varchar 20 phone = some phone := by
  simp only [validPhone,Bool.and_eq_true,decide_eq_true_eq] at valid
  exact varcharShort (by omega) valid.1.1

end Reaches

theorem checkSendAccepts {g : System} {tenant groupId : UUID} {group : Param} {toNumber type : GoString}
    (content : Json) (parsed : group.parsed = some groupId)
    (owned : (findGroup g.store groupId).any (fun row => row.tenantId == tenant) = true)
    (phone : validPhone toNumber = true) (typed : type ≠ []) :
    checkSend g true ⟨some tenant,group,some (singleBody toNumber type content)⟩ =
      .selecting .pauseCheck groupId ⟨toNumber,type,some content⟩ := by
  have some_ : toNumber ≠ [] := by
    rintro rfl
    revert phone
    decide
  simp [checkSend,parsed,owned,singleDecoded,Decoded.ok,some_,typed,phone]

def SingleSends (g : System) (request : SendRequest) (o : Oracle) (toNumber sent : GoString) : Prop :=
  ∃ m t call, run step g (.send request::serves g.requests.length m o) = some t ∧ t.sends = g.sends ++ [call] ∧
    call.toNumber = toNumber ∧ call.text = sent

theorem singleReaches {g : System} {o : Oracle} {tenant groupId : UUID} {group : Param} {inst : Instance}
    {toNumber type sent : GoString} {content : Json} (selects : Selects g groupId o inst)
    (parsed : group.parsed = some groupId)
    (owned : (findGroup g.store groupId).any (fun row => row.tenantId == tenant) = true)
    (phone : validPhone toNumber = true) (single : SingleText ⟨toNumber,type,some content⟩ sent) :
    SingleSends g ⟨some tenant,group,some (singleBody toNumber type content)⟩ o toNumber sent := by
  have typed : type ≠ [] := by
    have named : type = text "text" := single.1
    rw [named]
    decide
  have inner := checkSendAccepts (g := receive g ⟨some tenant,group,some (singleBody toNumber type content)⟩)
    content parsed owned phone typed
  have start : (receive g ⟨some tenant,group,some (singleBody toNumber type content)⟩).requests[g.requests.length]? =
      some (.received ⟨some tenant,group,some (singleBody toNumber type content)⟩) := by simp [receive]
  obtain ⟨moved,after⟩ := requestMoves (o := o) start (by rw [requestStep,selects.answered,inner])
  obtain ⟨m,t,call,ran,rest⟩ := reachesOn moved
    (reachesSelecting selects (varcharPhone phone) single ⟨after,rfl,rfl,rfl⟩ rfl)
  exact ⟨m,t,call,ran,rest⟩

theorem singleAccepted {g : System} {o : Oracle} {tenant : Option UUID} {group : Param}
    {toNumber type number sent : GoString} {content : Json}
    (sends : SingleSends g ⟨tenant,group,some (singleBody toNumber type content)⟩ o number sent) :
    validPhone toNumber = true ∧ number = toNumber ∧ SingleText ⟨toNumber,type,some content⟩ sent := by
  obtain ⟨m,t,call,ran,one,rfl,rfl⟩ := sends
  obtain ⟨input,⟨phone,body,given,decoded⟩,single,same⟩ := singleHonest ran one
  cases Option.some.inj given
  rw [singleDecoded] at decoded
  cases decoded
  exact ⟨phone,same,single⟩

end WppGateway.SingleSend
