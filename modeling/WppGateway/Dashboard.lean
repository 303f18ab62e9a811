import WppGateway.Payload

/-! The broadcast form of the dashboard and what its broadcasts really send. The page
writes the message under `text`, the dispatcher reads it under `body`. -/
namespace WppGateway.Dashboard
open Runs GoJson Domain Store Gateway Http MessageText BroadcastCreate Payload

structure Form where
  message : GoString
  recipients : GoString
  shuffle : Bool
  spintax : Bool
  skipInvalid : Bool
  skipNonWhatsapp : Bool

def splitLines : GoString → List GoString
  | [] => [[]]
  | 10::rest => []::splitLines rest
  | b::rest => match splitLines rest with
    | line::lines => (b::line)::lines
    | [] => [[b]]

/- The trim before the digits are kept takes no digit away. -/
def parseRecipients (f : Form) : List GoString :=
  ((splitLines f.recipients).map (fun l => l.filter decimal)).filter (fun l => !l.isEmpty)

def createBroadcast (f : Form) : Option Json :=
  let recipients := parseRecipients f
  if recipients = [] then none
  else some (.obj [(text "recipients",.arr (recipients.map .str)),(text "type",.str (text "text")),
    (text "content",.obj [(text "text",.str f.message)]),
    (text "options",.obj [(text "shuffle_recipients",.bool f.shuffle),(text "spintax",.bool f.spintax),
      (text "skip_invalid_numbers",.bool f.skipInvalid),(text "skip_non_whatsapp",.bool f.skipNonWhatsapp)])])

def formOptions (f : Form) : BroadcastOptions :=
  {noOptions with shuffleRecipients := f.shuffle, spintax := f.spintax, skipInvalidNumbers := f.skipInvalid,
                  skipNonWhatsapp := f.skipNonWhatsapp}

def formInput (f : Form) : CreateBroadcastInput :=
  ⟨parseRecipients f,text "text",some (.obj [(text "text",.str f.message)]),none,formOptions f⟩

theorem decodeItemsTexts (recipients : List GoString) :
    decodeItems [] (recipients.map .str) = ⟨recipients,.ok⟩ := by
  induction recipients with
  | nil => rfl
  | cons recipient rest ih => simp only [List.map_cons,decodeItems,List.tail_nil,ih]; rfl

theorem formDecoded {f : Form} {payload : Json} (sent : createBroadcast f = some payload) :
    decodeCreateBroadcastInput payload = ⟨formInput f,.ok⟩ := by
  unfold createBroadcast at sent
  dsimp only at sent
  split at sent <;> try contradiction
  cases sent
  have items := decodeItemsTexts (parseRecipients f)
  have strings : decodeStrings [] (.arr ((parseRecipients f).map .str)) = ⟨parseRecipients f,.ok⟩ := items
  have first : createBroadcastField ⟨[],[],none,none,noOptions⟩ (text "recipients")
      (.arr ((parseRecipients f).map .str)) = ⟨⟨parseRecipients f,[],none,none,noOptions⟩,.ok⟩ := by
    rw [createBroadcastField,if_pos (by decide),strings]
  simp only [decodeCreateBroadcastInput,decodeStruct,List.foldl_cons,List.foldl_nil,decodeMember,first]
  rfl

theorem formBody {f : Form} {s made : Tables} {id groupId : UUID} {at_ : Int} {b : Broadcast}
    (row : create some s id at_ groupId (formInput f) = some (made,b)) : broadcastBody b = [] := by
  simp only [create,bind,Option.bind_eq_some_iff] at row
  obtain ⟨_,_,_,_,content,typed,stored,faithful,_,_,_,_,row⟩ := row
  cases typed
  cases faithful
  cases row
  rfl

def ByBroadcast (id : UUID) (t : System) (call : SendCall) : Prop :=
  ∃ j row w, call.origin = .worker j row ∧ t.workers[j]? = some w ∧ w.broadcast.id = id

/-- The text that is sent is the message of the form exactly when the message is empty. -/
theorem dashboardText {f : Form} {g t : System} {tenant : Option UUID} {group : Param} {a : Answers}
    {response : Response} {events : List Event} (unused : Unused a.id g)
    (made : broadcastCreate some g tenant group (createBroadcast f) a = (t,response))
    (accepted : response.status = 201) (starts : ∀ e ∈ events, ∀ b, e = .startBroadcast b → b.id ≠ a.id) :
    Throughout step (fun u => ∀ call ∈ u.sends, ByBroadcast a.id u call →
      (call.text = f.message ↔ f.message = [])) t events := by
  obtain ⟨_,groupId,payload,b,_,_,_,typed,inserted⟩ := createdSource made accepted
  rw [formDecoded typed] at inserted
  have carried := insertedCarried unused inserted
  have fixed : b.id = a.id ∧ broadcastBody b = [] := by
    cases inserted with
    | rows s full row batch => exact ⟨(createId row).1,formBody row⟩
  have safe : Guarded step (StartsSame b) t events := guardedEach (fun e member _ c same key =>
    absurd (key.trans fixed.1) (starts e member c same)) t
  refine throughoutMono (fun u inv call member owned => ?_) (payloadRun carried safe)
  obtain ⟨j,row,w,origin,found,key⟩ := owned
  obtain ⟨_,order,choices,_,written⟩ := inv.sends call member j row w origin found (key.trans fixed.1.symm)
  rw [written,messageTextEmpty fixed.2]
  exact eq_comm

def sampleForm (message : String) : Form :=
  ⟨text message,text "+55 11 99999-9999\n\n",false,false,true,false⟩

def pageTables : Tables := {sampleTables [] with broadcasts := []}
def pageAnswers : Answers := ⟨true,true,true,21,0,[31]⟩

def samplePage (message : String) : System × Response :=
  broadcastCreate some (boot pageTables) (some 100) (sampleParam 1) (createBroadcast (sampleForm message)) pageAnswers

theorem unusedPage : Unused pageAnswers.id (boot pageTables) := by
  constructor <;> simp [boot,pageTables,sampleTables]

theorem emptyFormText : Throughout step (fun u => ∀ call ∈ u.sends, ByBroadcast 21 u call →
    (call.text = (sampleForm "").message ↔ (sampleForm "").message = [])) (samplePage "").1 (works 0 10 accepts) :=
  dashboardText unusedPage (show _ = samplePage "" from rfl) (by decide +kernel)
    (by intro e member b same; cases same; simp [works] at member)

theorem formTextLost :
    (sampleForm "oi").spintax = false ∧ parseRecipients (sampleForm "oi") = [text "5511999999999"] ∧
    Unused 21 (boot pageTables) ∧ (samplePage "oi").2.status = 201 ∧
    (run step (samplePage "oi").1 (works 0 10 accepts)).map (fun t =>
      t.sends.map (fun c => (c.origin,c.toNumber,c.text))) = some [(.worker 0 31,text "5511999999999",[])] ∧
    ¬ Throughout step (fun u => ∀ call ∈ u.sends, ByBroadcast 21 u call →
      call.text = (sampleForm "oi").message) (samplePage "oi").1 (works 0 10 accepts) := by
  have sent : (run step (samplePage "oi").1 (works 0 10 accepts)).map (fun t =>
      (t.workers.map (fun w => w.broadcast.id),t.sends.map (fun c => (c.origin,c.text)))) =
      some ([21],[(.worker 0 31,[])]) := by decide +kernel
  refine ⟨rfl,by decide +kernel,unusedPage,by decide +kernel,by decide +kernel,fun always => ?_⟩
  obtain ⟨t,ran,values⟩ := Option.map_eq_some_iff.mp sent
  simp only [Prod.mk.injEq] at values
  obtain ⟨w,_,workers,key,_⟩ := List.map_eq_cons_iff.mp values.1
  obtain ⟨call,_,sends,value,_⟩ := List.map_eq_cons_iff.mp values.2
  simp only [Prod.mk.injEq] at value
  have same := throughoutEnd always ran call (by rw [sends]; exact List.mem_cons_self)
    ⟨0,31,w,value.1,by rw [workers]; rfl,key⟩
  rw [value.2] at same
  revert same
  decide +kernel

end WppGateway.Dashboard
