import WppGateway.GoJson
import Mathlib.Data.Rat.Defs

/-! The rows of the gateway's tables and the request bodies of its API. Timestamps
that no modelled function reads are left out; a JSONB column holds a JSON value. -/
namespace WppGateway.Domain
open GoJson

abbrev UUID := Nat

inductive Strategy where
  | failover | rotation | hybrid
  | other (name : String)
  deriving DecidableEq, Repr

structure Group where
  id : UUID
  tenantId : UUID
  strategy : Strategy
  deriving DecidableEq, Repr

inductive InstanceStatus where
  | disconnected | connecting | available | resting | warming | suspect | banned
  deriving DecidableEq, Repr

structure Instance where
  id : UUID
  groupId : UUID
  phoneNumber : Option GoString
  status : InstanceStatus
  priority : Int
  dailyBudget : Int
  hourlyBudget : Int
  messagesToday : Int
  messagesHour : Int
  deliveryRate : Rat
  deriving DecidableEq, Repr

inductive BroadcastStatus where
  | pending | processing | paused | completed | cancelled | failed
  deriving DecidableEq, Repr

structure Broadcast where
  id : UUID
  groupId : UUID
  status : BroadcastStatus
  total : Int
  sent : Int
  delivered : Int
  read : Int
  failed : Int
  messageType : GoString
  content : Json
  vars : Json
  options : Json
  createdAt : Int

inductive RecipientStatus where
  | pending | sent | delivered | read | failed | skipped
  deriving DecidableEq, Repr

structure BroadcastRecipient where
  id : UUID
  broadcastId : UUID
  recipient : GoString
  instanceId : Option UUID
  status : RecipientStatus
  errorCode : Option String
  deriving DecidableEq, Repr

inductive MessageStatus where
  | queued | sent | delivered | read | failed
  deriving DecidableEq, Repr

/- Here `queuedOn` is the calendar day of `queued_at`. -/
structure MessageLog where
  id : UUID
  groupId : Option UUID
  instanceId : Option UUID
  recipient : GoString
  messageType : GoString
  status : MessageStatus
  errorCode : Option String
  queuedOn : Int
  deriving DecidableEq, Repr

structure SendMessageInput where
  toNumber : GoString
  type : GoString
  content : Option Json

structure BroadcastOptions where
  shuffleRecipients : Bool
  varyContent : Bool
  spintax : Bool
  scheduleAt : Option GoString
  respectOperatingHours : Bool
  skipInvalidNumbers : Bool
  skipNonWhatsapp : Bool
  deriving DecidableEq, Repr

structure CreateBroadcastInput where
  recipients : List GoString
  type : GoString
  content : Option Json
  vars : Option Json
  options : BroadcastOptions

structure BroadcastProgress where
  broadcastId : UUID
  status : BroadcastStatus
  total : Int
  sent : Int
  delivered : Int
  read : Int
  failed : Int
  pending : Int
  deriving DecidableEq, Repr

def noOptions : BroadcastOptions := ⟨false,false,false,none,false,false,false⟩

def decimal (b : UInt8) : Bool := 48 ≤ b && b ≤ 57

def twoValue (a b : UInt8) : Nat := (a.toNat - 48) * 10 + (b.toNat - 48)

def twoDigits (a b : UInt8) (most : Nat) : Bool := decimal a && decimal b && twoValue a b ≤ most

def daysIn (year month : Nat) : Nat :=
  if month = 2 then
    if year % 4 = 0 ∧ (year % 100 ≠ 0 ∨ year % 400 = 0) then 29 else 28
  else if month = 4 ∨ month = 6 ∨ month = 9 ∨ month = 11 then 30 else 31

/- The minutes of an offset. An offset of 24 hours or 60 minutes is let through. -/
def zoneMinutes : GoString → Option Nat
  | [90] => some 0
  | [sign,h,i,58,m,n] =>
    if (sign == 43 || sign == 45) && twoDigits h i 24 && twoDigits m n 60 then some (twoValue h i * 60 + twoValue m n)
    else none
  | _ => none

def fractionMinutes : GoString → Option Nat
  | p::d::rest => if (p == 46 || p == 44) && decimal d then zoneMinutes (rest.dropWhile decimal) else zoneMinutes (p::d::rest)
  | rest => zoneMinutes rest

/- The hour may have one digit. -/
def clockMinutes : GoString → Option Nat
  | h::58::j::k::58::s::t::rest =>
    if decimal h && twoDigits j k 59 && twoDigits s t 59 then fractionMinutes rest else none
  | h::i::58::j::k::58::s::t::rest =>
    if twoDigits h i 23 && twoDigits j k 59 && twoDigits s t 59 then fractionMinutes rest else none
  | _ => none

/- The texts that time.Time reads from JSON, with the minutes of their offset: parseRFC3339, and time.Parse where that
fails, whose strict checks are disabled. -/
def timeOffset : GoString → Option Nat
  | a::b::c::d::45::m::n::45::e::f::84::rest =>
    let year := twoValue a b * 100 + twoValue c d
    if decimal a && decimal b && decimal c && decimal d && twoDigits m n 12 && 1 ≤ twoValue m n &&
      twoDigits e f (daysIn year (twoValue m n)) && 1 ≤ twoValue e f then clockMinutes rest else none
  | _ => none

def validTime (s : GoString) : Bool := (timeOffset s).isSome

/- A schedule is kept as its text. What is no time between its quotes ends the decoding. -/
def optionsField (o : BroadcastOptions) (key : GoString) (value : Json) : Decoded BroadcastOptions :=
  let flag (current : Bool) (set : Bool → BroadcastOptions) : Decoded BroadcastOptions :=
    let next := decodeBool current value
    ⟨set next.value,next.outcome⟩
  if named key "shuffle_recipients" then flag o.shuffleRecipients (fun b => {o with shuffleRecipients := b})
  else if named key "vary_content" then flag o.varyContent (fun b => {o with varyContent := b})
  else if named key "spintax" then flag o.spintax (fun b => {o with spintax := b})
  else if named key "schedule_at" then match value with
    | .null => ⟨{o with scheduleAt := none},.ok⟩
    | .str s | .escaped s _ => if validTime s then ⟨{o with scheduleAt := some s},.ok⟩ else ⟨o,.aborted⟩
    | _ => ⟨o,.aborted⟩
  else if named key "respect_operating_hours" then
    flag o.respectOperatingHours (fun b => {o with respectOperatingHours := b})
  else if named key "skip_invalid_numbers" then
    flag o.skipInvalidNumbers (fun b => {o with skipInvalidNumbers := b})
  else if named key "skip_non_whatsapp" then flag o.skipNonWhatsapp (fun b => {o with skipNonWhatsapp := b})
  else ⟨o,.ok⟩

def decodeOptions : BroadcastOptions → Json → Decoded BroadcastOptions := decodeStruct optionsField

/- json.Marshal refuses a time whose offset is a day or more. -/
def marshals (o : BroadcastOptions) : Bool := o.scheduleAt.all (fun t => (timeOffset t).all (· < 1440))

/- json.Marshal of the options: fields in declaration order, no schedule when it is nil. -/
def encodeOptions (o : BroadcastOptions) : Json :=
  .obj ([(text "shuffle_recipients",.bool o.shuffleRecipients),(text "vary_content",.bool o.varyContent),
    (text "spintax",.bool o.spintax)] ++
    (match o.scheduleAt with | some t => [(text "schedule_at",.str t)] | none => []) ++
    [(text "respect_operating_hours",.bool o.respectOperatingHours),
    (text "skip_invalid_numbers",.bool o.skipInvalidNumbers),
    (text "skip_non_whatsapp",.bool o.skipNonWhatsapp)])

structure MessageContent where
  body : GoString
  deriving DecidableEq, Repr

def decodeContent : Json → Decoded MessageContent :=
  decodeStruct (fun c key value =>
    if named key "body" then
      let next := decodeString c.body value
      ⟨⟨next.value⟩,next.outcome⟩
    else ⟨c,.ok⟩) ⟨[]⟩

abbrev Variables := GoMap (Option (GoMap GoString))

def decodeVariables : Json → Decoded (Option Variables) :=
  decodeMap (decodeMap (decodeString []))

def createBroadcastField (c : CreateBroadcastInput) (key : GoString) (value : Json) :
    Decoded CreateBroadcastInput :=
  if named key "recipients" then
    let next := decodeStrings c.recipients value
    ⟨{c with recipients := next.value},next.outcome⟩
  else if named key "type" then
    let next := decodeString c.type value
    ⟨{c with type := next.value},next.outcome⟩
  else if named key "content" then ⟨{c with content := some value},.ok⟩
  else if named key "variables" then ⟨{c with vars := some value},.ok⟩
  else if named key "options" then
    let next := decodeOptions c.options value
    ⟨{c with options := next.value},next.outcome⟩
  else ⟨c,.ok⟩

def decodeCreateBroadcastInput : Json → Decoded CreateBroadcastInput :=
  decodeStruct createBroadcastField ⟨[],[],none,none,noOptions⟩

def sendMessageField (c : SendMessageInput) (key : GoString) (value : Json) : Decoded SendMessageInput :=
  if named key "to" then
    let next := decodeString c.toNumber value
    ⟨{c with toNumber := next.value},next.outcome⟩
  else if named key "type" then
    let next := decodeString c.type value
    ⟨{c with type := next.value},next.outcome⟩
  else if named key "content" then ⟨{c with content := some value},.ok⟩
  else ⟨c,.ok⟩

def decodeSendMessageInput : Json → Decoded SendMessageInput :=
  decodeStruct sendMessageField ⟨[],[],none⟩

end WppGateway.Domain
