import WppGateway.Domain
import WppGateway.Table

/-! The repositories over their tables. Each operation is one statement of the
database; whether it is reached at all is decided by the caller's context. -/
namespace WppGateway.Store
open GoJson Domain Table

structure Tables where
  groups : List Group
  instances : List Instance
  broadcasts : List Broadcast
  recipients : List BroadcastRecipient
  messages : List MessageLog

def empty : Tables := ⟨[],[],[],[],[]⟩

structure Keys (s : Tables) : Prop where
  groups : Distinct Group.id s.groups
  instances : Distinct Instance.id s.instances
  broadcasts : Distinct Broadcast.id s.broadcasts
  recipients : Distinct BroadcastRecipient.id s.recipients
  messages : Distinct MessageLog.id s.messages

def findGroup (s : Tables) (id : UUID) : Option Group := s.groups.find? (fun g => g.id == id)
def findBroadcast (s : Tables) (id : UUID) : Option Broadcast := s.broadcasts.find? (fun b => b.id == id)

def updateBroadcast (s : Tables) (id : UUID) (f : Broadcast → Broadcast) : Tables :=
  {s with broadcasts := update Broadcast.id id f s.broadcasts}
def updateRecipient (s : Tables) (id : UUID) (f : BroadcastRecipient → BroadcastRecipient) : Tables :=
  {s with recipients := update BroadcastRecipient.id id f s.recipients}
def updateInstance (s : Tables) (id : UUID) (f : Instance → Instance) : Tables :=
  {s with instances := update Instance.id id f s.instances}
def updateMessage (s : Tables) (id : UUID) (f : MessageLog → MessageLog) : Tables :=
  {s with messages := update MessageLog.id id f s.messages}

/-! BroadcastRepo. -/

def updateStatus (s : Tables) (id : UUID) (status : BroadcastStatus) : Tables :=
  updateBroadcast s id (fun b => {b with status := status})
def updateProgress (s : Tables) (id : UUID) (sent delivered failed : Int) : Tables :=
  updateBroadcast s id (fun b => {b with sent := sent, delivered := delivered, failed := failed})
def markStarted (s : Tables) (id : UUID) : Tables := updateStatus s id .processing
def markCompleted (s : Tables) (id : UUID) : Tables := updateStatus s id .completed

def pendingOf (s : Tables) (broadcastId : UUID) : List BroadcastRecipient :=
  s.recipients.filter (fun r => r.broadcastId == broadcastId && r.status == .pending)

def getPendingRecipients (s : Tables) (broadcastId : UUID) (limit : Nat) : List BroadcastRecipient :=
  ((pendingOf s broadcastId).insertionSort (fun a b => a.id ≤ b.id)).take limit

def updateRecipientSent (s : Tables) (id instanceId : UUID) : Tables :=
  updateRecipient s id (fun r => {r with status := .sent, instanceId := some instanceId})
def updateRecipientFailed (s : Tables) (id : UUID) (errorCode : String) : Tables :=
  updateRecipient s id (fun r => {r with status := .failed, errorCode := some errorCode})

def getProgress (s : Tables) (broadcastId : UUID) : Option BroadcastProgress := do
  let b ← findBroadcast s broadcastId
  some ⟨broadcastId,b.status,b.total,b.sent,b.delivered,b.read,b.failed,(pendingOf s broadcastId).length⟩

/- A negative LIMIT or OFFSET is an error of the database. Rows of one instant keep table order. -/
def findBroadcastsByGroupID (s : Tables) (groupId : UUID) (limit offset : Int) :
    Option (List Broadcast × Int) :=
  if limit < 0 ∨ offset < 0 then none
  else
    let all := s.broadcasts.filter (fun b => b.groupId == groupId)
    some (((all.insertionSort (fun a b => a.createdAt ≥ b.createdAt)).drop offset.toNat).take limit.toNat,
      all.length)

/-! What the columns accept. Every JSON string is valid UTF-8; the first byte of a
character is the one that is no continuation byte. -/

def continuation (b : UInt8) : Bool := b &&& 0xC0 == 0x80

def takeChars : Nat → GoString → GoString
  | _,[] => []
  | n,b::rest =>
    if continuation b then b::takeChars n rest
    else match n with
      | 0 => []
      | m+1 => b::takeChars m rest

/- VARCHAR(n): no NUL, and only blanks may be cut off. -/
def varchar (n : Nat) (s : GoString) : Option GoString :=
  let kept := takeChars n s
  if s.contains 0 then none
  else if (s.drop kept.length).all (· == 32) then some kept
  else none

/- The argument `jsonb` is what the JSONB type makes of a document. The id, the time and the defaults of the other columns
come from the database. Options that json.Marshal refuses are stored as NULL, which is read as `null` is. -/
def create (jsonb : Json → Option Json) (s : Tables) (id : UUID) (createdAt : Int) (groupId : UUID)
    (input : CreateBroadcastInput) : Option (Tables × Broadcast) := do
  let _ ← findGroup s groupId
  let messageType ← varchar 20 input.type
  let content ← jsonb (← input.content)
  let vars ← jsonb (input.vars.getD (.obj []))
  let options ← (if marshals input.options then jsonb (encodeOptions input.options) else some .null)
  let b : Broadcast := ⟨id,groupId,.pending,input.recipients.length,0,0,0,0,messageType,content,vars,options,
    createdAt⟩
  some ({s with broadcasts := s.broadcasts ++ [b]},b)

def recipientRows (broadcastId : UUID) : List UUID → List GoString → Option (List BroadcastRecipient)
  | _,[] => some []
  | [],_::_ => none
  | id::ids,recipient::rest => do
    let stored ← varchar 20 recipient
    let later ← recipientRows broadcastId ids rest
    some (⟨id,broadcastId,stored,none,.pending,none⟩::later)

/- One batch, all or nothing. -/
def createRecipients (s : Tables) (ids : List UUID) (broadcastId : UUID) (recipients : List GoString) :
    Option Tables := do
  let rows ← recipientRows broadcastId ids recipients
  some {s with recipients := s.recipients ++ rows}

structure RowsMade (broadcastId : UUID) (ids : List UUID) (recipients : List GoString)
    (rows : List BroadcastRecipient) : Prop where
  length : rows.length = recipients.length
  keys : (rows.map BroadcastRecipient.id).Sublist ids
  pending : ∀ r ∈ rows, r.broadcastId = broadcastId ∧ r.status = .pending
  texts : ∀ r ∈ rows, ∃ recipient ∈ recipients, varchar 20 recipient = some r.recipient

theorem recipientRowsMade {id : UUID} {ids : List UUID} {recipients : List GoString} {rows : List BroadcastRecipient}
    (made : recipientRows id ids recipients = some rows) : RowsMade id ids recipients rows := by
  induction recipients generalizing ids rows with
  | nil => cases ids <;> cases made <;> exact ⟨rfl,List.nil_sublist _,by simp,by simp⟩
  | cons recipient rest ih =>
    cases ids with
    | nil => cases made
    | cons i ids =>
      simp only [recipientRows,bind,Option.bind_eq_some_iff] at made
      obtain ⟨stored,cut,later,inner,made⟩ := made
      cases made
      have tail := ih inner
      refine ⟨by simp [tail.length],by simpa using tail.keys,by simpa using tail.pending,fun r member => ?_⟩
      rcases List.mem_cons.mp member with rfl | old
      · exact ⟨recipient,List.mem_cons_self,cut⟩
      · obtain ⟨text,inside,same⟩ := tail.texts r old
        exact ⟨text,List.mem_cons_of_mem _ inside,same⟩

/-! InstanceRepo and MessageRepo. -/

def availableOf (s : Tables) (groupId : UUID) : List Instance :=
  s.instances.filter (fun i => i.groupId == groupId && i.status == .available)

/- An answer of FindAvailableByGroupID: the order among equal priorities is open. -/
def Listing (s : Tables) (groupId : UUID) (listing : List Instance) : Prop :=
  listing.Perm (availableOf s groupId) ∧ listing.Pairwise (fun a b => a.priority ≥ b.priority)

instance (s : Tables) (groupId : UUID) (listing : List Instance) : Decidable (Listing s groupId listing) :=
  inferInstanceAs (Decidable (_ ∧ _))

def setInstanceStatus (s : Tables) (id : UUID) (status : InstanceStatus) : Tables :=
  updateInstance s id (fun i => {i with status := status})

def createMessage (s : Tables) (m : MessageLog) : Option Tables := do
  let recipient ← varchar 20 m.recipient
  let messageType ← varchar 20 m.messageType
  some {s with messages := s.messages ++ [{m with recipient := recipient, messageType := messageType}]}

def updateMessageSent (s : Tables) (id : UUID) : Tables :=
  updateMessage s id (fun m => {m with status := .sent})
def updateMessageFailed (s : Tables) (id : UUID) (errorCode : String) : Tables :=
  updateMessage s id (fun m => {m with status := .failed, errorCode := some errorCode})

theorem memPending {s : Tables} {broadcastId : UUID} {r : BroadcastRecipient} :
    r ∈ pendingOf s broadcastId ↔ r ∈ s.recipients ∧ r.broadcastId = broadcastId ∧ r.status = .pending := by
  simp [pendingOf]

theorem getPendingSublist (s : Tables) (broadcastId : UUID) (limit : Nat) :
    (getPendingRecipients s broadcastId limit).Subperm (pendingOf s broadcastId) :=
  (List.take_sublist _ _).subperm.trans (List.perm_insertionSort _ _).subperm

theorem getPendingMember {s : Tables} {broadcastId limit r} (member : r ∈ getPendingRecipients s broadcastId limit) :
    r ∈ s.recipients ∧ r.broadcastId = broadcastId ∧ r.status = .pending :=
  memPending.mp ((getPendingSublist s broadcastId limit).subset member)

theorem getPendingDistinct {s : Tables} (distinct : Distinct BroadcastRecipient.id s.recipients)
    (broadcastId : UUID) (limit : Nat) :
    Distinct BroadcastRecipient.id (getPendingRecipients s broadcastId limit) := by
  have rows : Distinct BroadcastRecipient.id (pendingOf s broadcastId) :=
    List.Nodup.sublist (List.filter_sublist.map _) distinct
  have sub : ((getPendingRecipients s broadcastId limit).map BroadcastRecipient.id).Subperm
      ((pendingOf s broadcastId).map BroadcastRecipient.id) := by
    obtain ⟨l,perm,sublist⟩ := getPendingSublist s broadcastId limit
    exact ⟨l.map _,perm.map _,sublist.map _⟩
  obtain ⟨l,perm,sublist⟩ := sub
  exact perm.nodup_iff.mp (List.Nodup.sublist sublist rows)

theorem getPendingEmpty {s : Tables} {broadcastId : UUID} {limit : Nat} (positive : 0 < limit) :
    getPendingRecipients s broadcastId limit = [] ↔ pendingOf s broadcastId = [] := by
  simp only [getPendingRecipients,List.take_eq_nil_iff]
  constructor
  · intro either
    cases either with
    | inl zero => omega
    | inr sorted => exact List.perm_nil.mp (sorted ▸ (List.perm_insertionSort _ _).symm)
  · intro none
    exact .inr (by rw [none]; rfl)

theorem findBroadcastMember {s : Tables} {id : UUID} {b : Broadcast} (found : findBroadcast s id = some b) :
    b ∈ s.broadcasts ∧ b.id = id :=
  findMember found

theorem findBroadcastKey {s : Tables} (keys : Keys s) {b : Broadcast} (member : b ∈ s.broadcasts) :
    findBroadcast s b.id = some b :=
  findKey keys.broadcasts member

end WppGateway.Store
