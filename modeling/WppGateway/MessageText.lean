import WppGateway.Domain
import WppGateway.Spintax

/-! The text of one broadcast message: the body, the recipient's variables, spintax. -/
namespace WppGateway.MessageText
open GoJson Domain Spintax

/- string(b) of a Go byte: the UTF-8 form of the code point with that number. -/
def byteString (b : UInt8) : GoString :=
  if b < 0x80 then [b] else [(0xC0 : UInt8) ||| (b >>> 6),(0x80 : UInt8) ||| (b &&& 0x3F)]

def placeholder (key : GoString) : GoString := [openBrace,openBrace] ++ key ++ [closeBrace,closeBrace]

/- The first argument counts the bytes of a placeholder that are still to be passed over. -/
def replaceScan (mark value : GoString) : Nat → GoString → GoString
  | _,[] => []
  | skip+1,_::rest => replaceScan mark value skip rest
  | 0,b::rest =>
    if mark.isPrefixOf (b::rest) then value ++ replaceScan mark value (mark.length - 1) rest
    else byteString b ++ replaceScan mark value 0 rest

def replaceVar (text key value : GoString) : GoString := replaceScan (placeholder key) value 0 text

def lookup {α : Type} (m : GoMap α) (key : GoString) : Option α := (m.find? (fun e => e.1 == key)).map Prod.snd

def recipientVars (b : Broadcast) (recipient : GoString) : GoMap GoString :=
  match (decodeVariables b.vars).value with
  | none => []
  | some all => ((lookup all recipient).getD none).getD []

theorem recipientVarsDistinct (b : Broadcast) (recipient : GoString) :
    ((recipientVars b recipient).map Prod.fst).Nodup := by
  unfold recipientVars
  cases decoded : (decodeVariables b.vars).value with
  | none => exact List.nodup_nil
  | some all =>
    dsimp only
    cases found : lookup all recipient with
    | none => exact List.nodup_nil
    | some vars =>
      obtain ⟨e,entry,rfl⟩ := Option.map_eq_some_iff.mp found
      obtain ⟨j,made⟩ := (fromJson decoded).elements e (List.mem_of_find?_eq_some entry)
      cases own : e.2 with
      | none => exact List.nodup_nil
      | some m => exact (fromJson (made.symm.trans own)).distinct

def broadcastOptions (b : Broadcast) : BroadcastOptions := (decodeOptions noOptions b.options).value

def broadcastBody (b : Broadcast) : GoString := (decodeContent b.content).value.body

/- The argument `order` is the order in which the map of the recipient is iterated. -/
def messageText (b : Broadcast) (order : GoMap GoString) (choices : List Nat) : GoString :=
  let msgText := order.foldl (fun t e => replaceVar t e.1 e.2) (broadcastBody b)
  if (broadcastOptions b).spintax then processSpintax msgText choices else msgText

theorem processSpintaxEmpty (choices : List Nat) : processSpintax [] choices = [] := rfl

theorem replaceVarEmpty (key value : GoString) : replaceVar [] key value = [] := rfl

theorem messageTextEmpty {b : Broadcast} (empty : broadcastBody b = []) (order : GoMap GoString)
    (choices : List Nat) : messageText b order choices = [] := by
  have folded : order.foldl (fun t e => replaceVar t e.1 e.2) [] = [] := by
    induction order with
    | nil => rfl
    | cons e rest ih => simpa only [List.foldl_cons,replaceVarEmpty] using ih
  simp only [messageText,empty,folded,processSpintaxEmpty,ite_self]

theorem messageTextPlain {b : Broadcast} (plain : (broadcastOptions b).spintax = false) (choices : List Nat) :
    messageText b [] choices = broadcastBody b := by
  simp only [messageText,plain,List.foldl_nil,Bool.false_eq_true,if_false]

end WppGateway.MessageText
