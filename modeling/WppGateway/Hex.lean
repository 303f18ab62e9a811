import WppGateway.Numerals
import WppGateway.Webhooks

/-! encoding/hex: what EncodeToString writes, and DecodeString with its errors. -/
namespace WppGateway.Hex
open GoJson Webhooks
open Numerals (everyByte)

inductive HexError where
  | invalidByte (b : UInt8)
  | oddLength
  deriving DecidableEq, Repr

def fromHexChar (c : UInt8) : Option UInt8 :=
  if 48 ≤ c ∧ c ≤ 57 then some (c - 48)
  else if 97 ≤ c ∧ c ≤ 102 then some (c - 97 + 10)
  else if 65 ≤ c ∧ c ≤ 70 then some (c - 65 + 10)
  else none

/- A single last character is looked at before the length is. -/
def decodeString : GoString → Except HexError GoString
  | [] => .ok []
  | [c] => .error (if (fromHexChar c).isNone then .invalidByte c else .oddLength)
  | p::q::rest => match fromHexChar p with
    | none => .error (.invalidByte p)
    | some a => match fromHexChar q with
      | none => .error (.invalidByte q)
      | some b => match decodeString rest with
        | .error e => .error e
        | .ok bytes => .ok (((a <<< 4) ||| b)::bytes)

theorem digitBack (n : UInt8) : n < 16 → fromHexChar (hexDigit n) = some n := by
  refine everyByte (P := fun n => n < 16 → fromHexChar (hexDigit n) = some n) ?_ n
  decide +kernel

theorem nibbles (b : UInt8) : b >>> 4 < 16 ∧ b &&& 15 < 16 ∧ ((b >>> 4) <<< 4) ||| (b &&& 15) = b := by
  refine everyByte (P := fun b => b >>> 4 < 16 ∧ b &&& 15 < 16 ∧ ((b >>> 4) <<< 4) ||| (b &&& 15) = b) ?_ b
  decide +kernel

theorem decodeEncode (bytes : GoString) : decodeString (hexEncode bytes) = .ok bytes := by
  induction bytes with
  | nil => rfl
  | cons b rest ih =>
    obtain ⟨high,low,whole⟩ := nibbles b
    change decodeString (hexDigit (b >>> 4)::hexDigit (b &&& 15)::hexEncode rest) = _
    simp only [decodeString,digitBack _ high,digitBack _ low,ih,whole]

theorem encodeInjective {x y : GoString} (same : hexEncode x = hexEncode y) : x = y := by
  have both := decodeEncode x
  rw [same,decodeEncode] at both
  exact (Except.ok.inj both).symm

theorem encodeLength (bytes : GoString) : (hexEncode bytes).length = 2 * bytes.length := by
  induction bytes with
  | nil => rfl
  | cons b rest ih =>
    change (hexDigit (b >>> 4)::hexDigit (b &&& 15)::hexEncode rest).length = _
    simp only [List.length_cons,ih]
    omega

theorem digitPlain (n : UInt8) : n < 16 → hexDigit n ≠ 0 ∧ hexDigit n < 128 := by
  refine everyByte (P := fun n => n < 16 → hexDigit n ≠ 0 ∧ hexDigit n < 128) ?_ n
  decide +kernel

theorem encodePlain {bytes : GoString} : ∀ c ∈ hexEncode bytes, c ≠ 0 ∧ c < 128 := by
  intro c member
  obtain ⟨b,_,here⟩ := List.mem_flatMap.mp member
  obtain ⟨high,low,_⟩ := nibbles b
  rcases List.mem_pair.mp here with rfl | rfl
  · exact digitPlain _ high
  · exact digitPlain _ low

end WppGateway.Hex
