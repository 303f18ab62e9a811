import WppGateway.Quotas
import WppGateway.Service

/-! The handlers of groups, instances, messages, the blacklist and the webhook, each run without a step of another
process between its statements. -/
namespace WppGateway.ResourceHandlers
open GoJson Domain Store Table Selection Resources Manager Blacklist Service
open Http (Param invalidUUID validPhone invalidPhone)

def withGroup (s : State) (q : Req) (a : Answers) (go : Tenant → GroupRow → State × Reply) : State × Reply :=
  match q.tenant with
  | none => (s,errUnauthorized "Tenant not found")
  | some tenant => match q.group.parsed with
    | none => (s,errBadRequest (invalidUUID q.group))
    | some id =>
      if a.group = false then (s,errInternal "Failed to get group")
      else match groupById s.managed.rows id with
        | none => (s,errNotFound "Group not found")
        | some group => if group.tenantId ≠ tenant.id then (s,errNotFound "Group not found") else go tenant group

def verifyOwnership (s : State) (tenant : Tenant) (id : UUID) (a : Answers) : Except Unit (Option InstanceRow) :=
  if a.instance_ = false then .error ()
  else match instanceById s.managed.rows id with
    | none => .ok none
    | some inst =>
      if a.group = false then .error ()
      else match groupById s.managed.rows inst.groupId with
        | none => .ok none
        | some group => .ok (if group.tenantId ≠ tenant.id then none else some inst)

def withInstance (s : State) (q : Req) (a : Answers) (go : InstanceRow → State × Reply) : State × Reply :=
  match q.tenant with
  | none => (s,errUnauthorized "Tenant not found")
  | some tenant => match q.instance_.parsed with
    | none => (s,errBadRequest (invalidUUID q.instance_))
    | some id => match verifyOwnership s tenant id a with
      | .error _ => (s,errInternal "Failed to get instance")
      | .ok none => (s,errNotFound "Instance not found")
      | .ok (some inst) => go inst

def parseBody {α : Type} (decode : Json → Decoded α) (q : Req) : Option α := do
  let d := decode (← q.body)
  if d.ok then some d.value else none

/-! GroupHandler. -/

def groupCreate (s : State) (q : Req) (a : Answers) : State × Reply :=
  match q.tenant with
  | none => (s,errUnauthorized "Tenant not found")
  | some tenant =>
    if a.read = false then (s,errInternal "Failed to check group limit")
    else if tenant.maxGroups ≤ countGroups s.managed.rows tenant.id then
      (s,err 403 "limit_exceeded" "Maximum number of groups reached")
    else match parseBody decodeCreateGroupInput q with
      | none => (s,errBadRequest "Invalid request body")
      | some input =>
        if input.name = [] then (s,errBadRequest "Name is required")
        else
          let input := if input.strategy = [] then {input with strategy := text "failover"} else input
          match (if a.write then createGroup a.jsonb s.managed.rows a.id a.secret tenant.id input else none) with
          | none => (s,errInternal "Failed to create group")
          | some (rows,group) => (writeRows s rows,created (shown group))

def groupGet (s : State) (q : Req) (a : Answers) : State × Reply := withGroup s q a (fun _ group => (s,ok (shown group)))

def groupUpdate (s : State) (q : Req) (a : Answers) : State × Reply :=
  withGroup s q a (fun _ group => match parseBody decodeUpdateGroupInput q with
    | none => (s,errBadRequest "Invalid request body")
    | some input => match (if a.write then updateGroup a.jsonb s.managed.rows group.id input else none) with
      | none => (s,errInternal "Failed to update group")
      | some (rows,updated) => (writeRows s rows,ok ((updated.map shown).getD (.group none))))

def groupDelete (s : State) (q : Req) (a : Answers) : State × Reply :=
  withGroup s q a (fun _ group =>
    if a.write then (dropGroup s group.id,noContent) else (s,errInternal "Failed to delete group"))

def groupGetStatus (s : State) (q : Req) (a : Answers) : State × Reply :=
  withGroup s q a (fun _ group => match getGroupStatus s group.id a with
    | none => (s,errInternal "Failed to get group status")
    | some status => (s,ok (.groupStatus status)))

def groupPause (s : State) (q : Req) (a : Answers) : State × Reply :=
  withGroup s q a (fun _ group => ({s with paused := Function.update s.paused group.id true},ok (.status "paused")))

def groupResume (s : State) (q : Req) (a : Answers) : State × Reply :=
  withGroup s q a (fun _ group => ({s with paused := Function.update s.paused group.id false},ok (.status "resumed")))

/-! InstanceHandler. -/

def instanceCreate (s : State) (q : Req) (a : Answers) : State × Reply :=
  withGroup s q a (fun tenant group =>
    if a.read = false then (s,errInternal "Failed to check instance limit")
    else if tenant.maxInstances ≤ countInstances s.managed.rows tenant.id then
      (s,err 403 "limit_exceeded" "Maximum number of instances reached")
    else match parseBody decodeCreateInstanceInput q with
      | none => (s,errBadRequest "Invalid request body")
      | some input =>
        let input := {input with
          dailyBudget := if input.dailyBudget ≤ 0 then 200 else input.dailyBudget
          hourlyBudget := if input.hourlyBudget ≤ 0 then 30 else input.hourlyBudget}
        match (if a.write then createInstance s.managed.rows a.id a.createdAt group.id input else none) with
        | none => (s,errInternal "Failed to create instance")
        | some (rows,inst) => (writeRows s rows,created (.row inst)))

def instanceList (s : State) (q : Req) (a : Answers) : State × Reply :=
  withGroup s q a (fun _ group =>
    (s,if a.read then ok (.instances (instancesOf s.managed.rows group.id)) else errInternal "Failed to list instances"))

def instanceGet (s : State) (q : Req) (a : Answers) : State × Reply := withInstance s q a (fun inst => (s,ok (.row inst)))

def instanceUpdate (s : State) (q : Req) (a : Answers) : State × Reply :=
  withInstance s q a (fun inst => match parseBody decodeUpdateInstanceInput q with
    | none => (s,errBadRequest "Invalid request body")
    | some input => match (if a.write then updateInstance s.managed.rows inst.id input else none) with
      | none => (s,errInternal "Failed to update instance")
      | some (rows,none) => (writeRows s rows,errNotFound "Instance not found")
      | some (rows,some updated) => (writeRows s rows,ok (.row updated)))

def instanceDelete (s : State) (q : Req) (a : Answers) : State × Reply :=
  withInstance s q a (fun inst =>
    let stopped := manage s (stopInstance s.managed inst.id)
    if a.write then (dropInstance stopped inst.id,noContent) else (stopped,errInternal "Failed to delete instance"))

def instanceGetQRCode (s : State) (q : Req) (a : Answers) : State × Reply :=
  withInstance s q a (fun inst =>
    let (m,started) := startInstance s.managed inst.id a.attempt
    (manage s m,match started with
      | .error error => errInternal error
      | .ok false => ok (.note "already_connected" "Instance reconnected with existing session")
      | .ok true => match a.qr with
        | .code _ none => errInternal "Failed to generate QR image"
        | .code code (some png) => ok (.qrCode code png 60)
        | .event name => ok (.status name)
        | .timeout => err 504 "timeout" "QR code generation timed out"))

def decodePhone : Json → Decoded GoString :=
  decodeStruct (fun phone key value => if named key "phone" then decodeString phone value else ⟨phone,.ok⟩) []

def instancePairPhone (s : State) (q : Req) (a : Answers) : State × Reply :=
  withInstance s q a (fun inst =>
    if (parseBody decodePhone q).getD [] = [] then (s,errBadRequest "Phone number is required")
    else
      let (m,paired) := pairPhone s.managed inst.id a.attempt
      (manage s m,match paired with
        | .error error => errInternal error
        | .ok code => ok (.pairingCode code "Enter this code on your phone to pair")))

def instanceConnect (s : State) (q : Req) (a : Answers) : State × Reply :=
  withInstance s q a (fun inst =>
    let (m,started) := startInstance s.managed inst.id a.attempt
    (manage s m,match started with
      | .error error => errInternal error
      | .ok true => ok (.note "needs_qr" "No existing session. Use /qrcode or /pair to authenticate.")
      | .ok false => ok (.note "connected" "Instance reconnected with existing session")))

def instanceDisconnect (s : State) (q : Req) (a : Answers) : State × Reply :=
  withInstance s q a (fun inst =>
    (manage s (updateStatus (stopInstance s.managed inst.id) inst.id .disconnected a.mark),ok (.status "disconnected")))

def instanceRestart (s : State) (q : Req) (a : Answers) : State × Reply :=
  withInstance s q a (fun inst =>
    let (m,restarted) := restartInstance s.managed inst.id a.attempt
    (manage s m,match restarted with
      | .error error => errInternal error
      | .ok _ => ok (.status "restarting")))

def instanceGetStatus (s : State) (q : Req) (a : Answers) : State × Reply :=
  withInstance s q a (fun inst =>
    (s,ok (.instanceStatus inst.id inst.status inst.phoneNumber (wsConnected s inst.id) inst.deliveryRate)))

/-! The two creations as runs of their statements in which no other request takes a step. -/

section Alone
open Runs Quotas
variable {jsonb : Json → Option Json} {tenant : Tenant} {r t u : Rows} {c next : Creating} {made : Bool}

def Alone (jsonb : Json → Option Json) (tenant : Tenant) (r : Rows) (c : Creating) (t : Rows) (made : Bool) : Prop :=
  ∃ (answers : List Answer) (failure : Option Http.Response), failure.isNone = made ∧
    run (Quotas.create jsonb tenant) ⟨r,[c]⟩ (answers.map (.serve 0)) = some ⟨t,[.answered failure]⟩

theorem aloneAnswered (jsonb : Json → Option Json) (tenant : Tenant) (r : Rows) (failure : Option Http.Response) :
    Alone jsonb tenant r (.answered failure) r failure.isNone := ⟨[],failure,rfl,rfl⟩

theorem aloneServed (a : Answer) (served : serveOne jsonb tenant r a c = some (next,t))
    (later : Alone jsonb tenant t next u made) : Alone jsonb tenant r c u made := by
  obtain ⟨answers,failure,same,ran⟩ := later
  have moved : Quotas.create jsonb tenant ⟨r,[c]⟩ (.serve 0 a) = some ⟨t,[next]⟩ := by
    simp only [Quotas.create,bind,Option.bind,List.getElem?_cons_zero,served,List.set_cons_zero]
  exact ⟨a::answers,failure,same,by simp only [List.map_cons,run,moved,bind,Option.bind]; exact ran⟩

theorem groupBodyParsed (q : Req) : groupBody q.body = match parseBody decodeCreateGroupInput q with
    | none => .answered (some (Http.errBadRequest Http.fresh "Invalid request body"))
    | some input =>
      if input.name = [] then .answered (some (Http.errBadRequest Http.fresh "Name is required"))
      else .insertGroup (if input.strategy = [] then {input with strategy := text "failover"} else input) := by
  unfold groupBody parseBody
  cases q.body with
  | none => rfl
  | some body =>
    cases valid : (decodeCreateGroupInput body).ok <;> simp [valid]

theorem instanceBodyParsed (groupId : UUID) (q : Req) :
    instanceBody groupId q.body = match parseBody decodeCreateInstanceInput q with
    | none => .answered (some (Http.errBadRequest Http.fresh "Invalid request body"))
    | some input => .insertInstance groupId {input with
        dailyBudget := if input.dailyBudget ≤ 0 then 200 else input.dailyBudget
        hourlyBudget := if input.hourlyBudget ≤ 0 then 30 else input.hourlyBudget} := by
  unfold instanceBody parseBody
  cases q.body with
  | none => rfl
  | some body =>
    cases valid : (decodeCreateInstanceInput body).ok <;> simp [valid]

theorem groupCreateAlone (s : State) (q : Req) (a : Answers) (auth : q.tenant = some tenant) :
    Alone a.jsonb tenant s.managed.rows (.group q.body) (groupCreate s q a).1.managed.rows
      ((groupCreate s q a).2.status == 201) := by
  unfold groupCreate
  simp only [auth]
  split
  · exact aloneServed ⟨false,0,0,[]⟩ rfl (aloneAnswered ..)
  · split
    · next full => exact aloneServed ⟨true,0,0,[]⟩ (by simp only [serveOne,if_pos full]; rfl) (aloneAnswered ..)
    · next room =>
      have counted : serveOne a.jsonb tenant s.managed.rows ⟨true,0,0,[]⟩ (.group q.body) =
          some (groupBody q.body,s.managed.rows) := by simp only [serveOne,if_neg room]; rfl
      refine aloneServed _ counted ?_
      rw [groupBodyParsed]
      split
      · exact aloneAnswered ..
      · next input _ =>
        split
        · exact aloneAnswered ..
        · generalize (if input.strategy = [] then {input with strategy := text "failover"} else input) = filled
          split
          · next failed =>
            exact aloneServed ⟨a.write,a.id,0,a.secret⟩ (by simp only [serveOne,failed]; rfl) (aloneAnswered ..)
          · next inserted =>
            exact aloneServed ⟨a.write,a.id,0,a.secret⟩ (by simp only [serveOne,inserted]; rfl)
              (aloneAnswered a.jsonb tenant _ none)

theorem instanceCreateAlone (s : State) (q : Req) (a : Answers) (auth : q.tenant = some tenant) :
    Alone a.jsonb tenant s.managed.rows (.instance_ q.group q.body) (instanceCreate s q a).1.managed.rows
      ((instanceCreate s q a).2.status == 201) := by
  unfold instanceCreate withGroup
  simp only [auth]
  split
  · next invalid => exact aloneServed ⟨true,0,0,[]⟩ (by simp only [serveOne,invalid]; rfl) (aloneAnswered ..)
  next id parsed =>
  split
  · exact aloneServed ⟨false,0,0,[]⟩ (by simp only [serveOne,parsed]; rfl) (aloneAnswered ..)
  split
  · next absent =>
    exact aloneServed ⟨true,0,0,[]⟩ (by simp only [serveOne,parsed,absent]; rfl) (aloneAnswered ..)
  next group found =>
  split
  · next other =>
    have refused : serveOne a.jsonb tenant s.managed.rows ⟨true,0,0,[]⟩ (.instance_ q.group q.body) =
        some (.answered (some (Http.errNotFound Http.fresh "Group not found")),s.managed.rows) := by
      simp [serveOne,parsed,found,other]
    exact aloneServed _ refused (aloneAnswered ..)
  next own =>
  have known : serveOne a.jsonb tenant s.managed.rows ⟨true,0,0,[]⟩ (.instance_ q.group q.body) =
      some (.count id q.body,s.managed.rows) := by
    simp only [ne_eq,not_not] at own
    simp [serveOne,parsed,found,own]
  refine aloneServed _ known ?_
  have same : group.id = id := (findMember found).2
  split
  · exact aloneServed ⟨false,0,0,[]⟩ rfl (aloneAnswered ..)
  split
  · next full => exact aloneServed ⟨true,0,0,[]⟩ (by simp only [serveOne,if_pos full]; rfl) (aloneAnswered ..)
  next room =>
  have counted : serveOne a.jsonb tenant s.managed.rows ⟨true,0,0,[]⟩ (.count id q.body) =
      some (instanceBody id q.body,s.managed.rows) := by simp only [serveOne,if_neg room]; rfl
  refine aloneServed _ counted ?_
  rw [instanceBodyParsed,same]
  split
  · exact aloneAnswered ..
  next input _ =>
  generalize CreateInstanceInput.mk input.displayName input.priority _ _ = filled
  split
  · next failed =>
    exact aloneServed ⟨a.write,a.id,a.createdAt,[]⟩ (by simp only [serveOne,failed]; rfl) (aloneAnswered ..)
  · next inserted =>
    exact aloneServed ⟨a.write,a.id,a.createdAt,[]⟩ (by simp only [serveOne,inserted]; rfl)
      (aloneAnswered a.jsonb tenant _ none)

end Alone

/-! MessageHandler. -/

def sendTextMessage (s : State) (id : UUID) (toNumber body : GoString) (a : Answers) : State × Option String :=
  if wsConnected s id = false then (s,some "instance not connected")
  else ({s with sends := s.sends ++ [(id,toNumber,body)]},a.sendError)

def markSent (s : State) (log : UUID) : State := {s with messages := (updateMessageSent (tables s) log).messages}

def markFailed (s : State) (log : UUID) (errorCode : String) : State :=
  {s with messages := (updateMessageFailed (tables s) log errorCode).messages}

/- What follows the creation of the log: the type and the content are looked at only now. -/
def sendLogged (s : State) (inst : Instance) (log : UUID) (input : SendMessageInput) (a : Answers) : State × Reply :=
  if input.type = text "text" then
    match input.content.map decodeContent with
    | none => (s,errBadRequest "Invalid content for text message")
    | some content =>
      if content.ok = false then (s,errBadRequest "Invalid content for text message")
      else match sendTextMessage s inst.id input.toNumber content.value.body a with
        | (t,some error) =>
          (if a.mark then markFailed t log "send_failed" else t,errInternal ("Failed to send message: " ++ error))
        | (t,none) => (if a.mark then markSent t log else t,ok (.sent log "sent" inst.id))
  else (s,errBadRequest "Only 'text' type is supported in Phase 1")

def messageSend (s : State) (q : Req) (a : Answers) : State × Reply :=
  withGroup s q a (fun _ group => match parseBody decodeSendMessageInput q with
    | none => (s,errBadRequest "Invalid request body")
    | some input =>
      if input.toNumber = [] ∨ input.type = [] then (s,errBadRequest "Fields 'to' and 'type' are required")
      else if validPhone input.toNumber = false then (s,errBadRequest invalidPhone)
      else match select s group.id a with
        | (t,.error e) => (t,err 503 "no_instance_available" e.message)
        | (t,.ok inst) =>
          let m : MessageLog := ⟨a.id,some group.id,some inst.id,input.toNumber,input.type,.queued,none,a.today⟩
          match (if a.write then createMessage (tables t) m else none) with
          | none => (t,errInternal "Failed to create message log")
          | some logged => sendLogged {t with messages := logged.messages} inst a.id input a)

def messageGetStatus (s : State) (q : Req) (a : Answers) : State × Reply :=
  withGroup s q a (fun _ group => match q.message.parsed with
    | none => (s,errBadRequest (invalidUUID q.message))
    | some id =>
      if a.message = false then (s,errInternal "Failed to get message")
      else match s.messages.find? (fun m => m.id == id) with
        | none => (s,errNotFound "Message not found")
        | some m => (s,if m.groupId = some group.id then ok (.message m) else errNotFound "Message not found"))

def messageStatusText : MessageStatus → GoString
  | .queued => text "queued"
  | .sent => text "sent"
  | .delivered => text "delivered"
  | .read => text "read"
  | .failed => text "failed"

/- The page with the newest first, and how many there are. A negative OFFSET is an error of the database. -/
def findMessages (s : State) (groupId : UUID) (q : Req) (limit offset : Int) : Option (List MessageLog × Int) :=
  let rows := s.messages.filter (fun m => m.groupId == some groupId && q.status.all (· == messageStatusText m.status) &&
    q.recipient.all (· == m.recipient) && q.instanceFilter.all (fun i => m.instanceId == some i))
  let limit := if limit ≤ 0 then 50 else limit
  if offset < 0 then none else some ((rows.reverse.drop offset.toNat).take limit.toNat,rows.length)

def messageListByGroup (s : State) (q : Req) (a : Answers) : State × Reply :=
  withGroup s q a (fun _ group =>
    let limit := min (q.limit.getD 50) 200
    let offset := q.offset.getD 0
    match (if a.read then findMessages s group.id q limit offset else none) with
    | none => (s,errInternal "Failed to list messages")
    | some (rows,total) => (s,ok (.messages rows ⟨total,limit,offset⟩)))

/-! BlacklistHandler. -/

def blacklistList (s : State) (q : Req) (a : Answers) : State × Reply :=
  withGroup s q a (fun _ group =>
    let limit := min (q.limit.getD 50) 200
    let offset := q.offset.getD 0
    match (if a.read then Blacklist.list s.blacklist group.id limit offset else none) with
    | none => (s,errInternal "Failed to list blacklist")
    | some (rows,total) => (s,ok (.entries rows ⟨total,limit,offset⟩)))

structure AddBody where
  numbers : List GoString
  reason : GoString
  deriving DecidableEq, Repr

def decodeAddBody : Json → Decoded AddBody :=
  decodeStruct (fun b key value =>
    if named key "numbers" then
      let next := decodeStrings b.numbers value
      ⟨{b with numbers := next.value},next.outcome⟩
    else if named key "reason" then
      let next := decodeString b.reason value
      ⟨{b with reason := next.value},next.outcome⟩
    else ⟨b,.ok⟩) ⟨[],[]⟩

def blacklistAdd (s : State) (q : Req) (a : Answers) : State × Reply :=
  withGroup s q a (fun _ group => match parseBody decodeAddBody q with
    | none => (s,errBadRequest "Invalid request body")
    | some body =>
      if body.numbers = [] then (s,errBadRequest "Numbers list cannot be empty")
      else
        let reason := if body.reason = [] then text "opt_out" else body.reason
        let inserts := body.numbers.mapIdx (fun k phone =>
          ((⟨a.ids k,group.id,phone,reason,a.createdAt⟩ : BlacklistEntry),a.inserted k))
        let (rows,added) := Blacklist.add true s.blacklist inserts
        ({s with blacklist := rows},match added with
          | none => errInternal "Failed to add to blacklist"
          | some n => ok (.added n)))

def blacklistRemove (s : State) (q : Req) (a : Answers) : State × Reply :=
  withGroup s q a (fun _ group =>
    if q.number = [] then (s,errBadRequest "Phone number is required")
    else if a.write then ({s with blacklist := Blacklist.remove s.blacklist group.id q.number},noContent)
    else (s,errInternal "Failed to remove from blacklist"))

/-! WebhookHandler. -/

structure ConfigureBody where
  url : GoString
  events : Option (List GoString)
  deriving DecidableEq, Repr

def decodeConfigureBody : Json → Decoded ConfigureBody :=
  decodeStruct (fun b key value =>
    if named key "url" then
      let next := decodeString b.url value
      ⟨{b with url := next.value},next.outcome⟩
    else if named key "events" then
      let next := decodeSlice b.events value
      ⟨{b with events := next.value},next.outcome⟩
    else ⟨b,.ok⟩) ⟨[],none⟩

/- ValidateWebhookURL: what is wrong with the URL. The scheme comes from url.ParseRequestURI. -/
def validateWebhookURL (a : Answers) (url : GoString) : Option String :=
  match a.parseRequestURI url with
  | .error error => some ("invalid URL: " ++ error)
  | .ok scheme =>
    if scheme ≠ text "http" ∧ scheme ≠ text "https" then some "webhook URL must use http or https scheme" else none

/- A nil slice of events is NULL. -/
def webhookConfigure (s : State) (q : Req) (a : Answers) : State × Reply :=
  withGroup s q a (fun _ group => match parseBody decodeConfigureBody q with
    | none => (s,errBadRequest "Invalid request body")
    | some body => match (if body.url = [] then none else validateWebhookURL a body.url) with
      | some error => (s,errBadRequest error)
      | none =>
        let input : UpdateGroupInput := ⟨none,none,none,some body.url,body.events⟩
        match (if a.write then updateGroup a.jsonb s.managed.rows group.id input else none) with
        | none => (s,errInternal "Failed to update webhook")
        | some (rows,updated) =>
          (writeRows s rows,ok (.webhook (updated.bind GroupRow.webhookUrl) (updated.bind GroupRow.webhookEvents))))

def webhookGet (s : State) (q : Req) (a : Answers) : State × Reply :=
  withGroup s q a (fun _ group => (s,ok (.webhook group.webhookUrl group.webhookEvents)))

def webhookTest (s : State) (q : Req) (a : Answers) : State × Reply :=
  withGroup s q a (fun _ group => match group.webhookUrl with
    | none | some [] => (s,errBadRequest "No webhook URL configured for this group")
    | some url =>
      (emit s ⟨url,group.webhookSecret.getD [],"webhook.test",group.id,a.timestamp,"This is a test webhook event"⟩,
        ok (.note "sent" "Test webhook event dispatched")))

inductive Endpoint where
  | groupCreate | groupGet | groupUpdate | groupDelete | groupGetStatus | groupPause | groupResume
  | instanceCreate | instanceList | instanceGet | instanceUpdate | instanceDelete | instanceGetQRCode
  | instancePairPhone | instanceConnect | instanceDisconnect | instanceRestart | instanceGetStatus
  | messageSend | messageGetStatus | messageListByGroup
  | blacklistList | blacklistAdd | blacklistRemove
  | webhookConfigure | webhookGet | webhookTest
  deriving DecidableEq, Repr

def handle : Endpoint → State → Req → Answers → State × Reply
  | .groupCreate => groupCreate
  | .groupGet => groupGet
  | .groupUpdate => groupUpdate
  | .groupDelete => groupDelete
  | .groupGetStatus => groupGetStatus
  | .groupPause => groupPause
  | .groupResume => groupResume
  | .instanceCreate => instanceCreate
  | .instanceList => instanceList
  | .instanceGet => instanceGet
  | .instanceUpdate => instanceUpdate
  | .instanceDelete => instanceDelete
  | .instanceGetQRCode => instanceGetQRCode
  | .instancePairPhone => instancePairPhone
  | .instanceConnect => instanceConnect
  | .instanceDisconnect => instanceDisconnect
  | .instanceRestart => instanceRestart
  | .instanceGetStatus => instanceGetStatus
  | .messageSend => messageSend
  | .messageGetStatus => messageGetStatus
  | .messageListByGroup => messageListByGroup
  | .blacklistList => blacklistList
  | .blacklistAdd => blacklistAdd
  | .blacklistRemove => blacklistRemove
  | .webhookConfigure => webhookConfigure
  | .webhookGet => webhookGet
  | .webhookTest => webhookTest

end WppGateway.ResourceHandlers
