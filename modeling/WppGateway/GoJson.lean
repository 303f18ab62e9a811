import Mathlib.Data.List.Basic

/-! Go strings as byte sequences, JSON values with their members in text order, and
what encoding/json does when it decodes one into a struct: members set fields in
order, names match up to case, and a wrong type leaves its field alone and does not
stop the rest. -/
namespace WppGateway.GoJson

abbrev GoString := List UInt8

def text (s : String) : GoString := s.toUTF8.data.toList

/- A string with escapes keeps what stands between its quotes beside its value. -/
inductive Json where
  | null
  | bool (b : Bool)
  | num (literal : GoString)
  | str (s : GoString)
  | escaped (literal s : GoString)
  | arr (items : List Json)
  | obj (members : List (GoString × Json))
  deriving Repr, Inhabited

/- foldName of encoding/json for ASCII field names. Outside ASCII only the long s
and the Kelvin sign fold to a letter of such a name. -/
def foldName : GoString → GoString
  | 0xC5::0xBF::rest => 83::foldName rest
  | 0xE2::0x84::0xAA::rest => 75::foldName rest
  | b::rest => (if 97 ≤ b ∧ b ≤ 122 then b - 32 else b)::foldName rest
  | [] => []

def named (key : GoString) (field : String) : Bool := foldName key == foldName (text field)

/- A value of the wrong type is recorded and decoding goes on; an error of a
type's own UnmarshalJSON ends it. -/
inductive Outcome where
  | ok | wrongType | aborted
  deriving DecidableEq, Repr

def Outcome.and : Outcome → Outcome → Outcome
  | .ok,o => o
  | .wrongType,.aborted => .aborted
  | .wrongType,_ => .wrongType
  | .aborted,_ => .aborted

structure Decoded (α : Type) where
  value : α
  outcome : Outcome
  deriving DecidableEq, Repr

def Decoded.ok {α : Type} (d : Decoded α) : Bool := d.outcome == .ok

def decodeString (current : GoString) : Json → Decoded GoString
  | .null => ⟨current,.ok⟩
  | .str s | .escaped _ s => ⟨s,.ok⟩
  | _ => ⟨current,.wrongType⟩

def decodeBool (current : Bool) : Json → Decoded Bool
  | .null => ⟨current,.ok⟩
  | .bool b => ⟨b,.ok⟩
  | _ => ⟨current,.wrongType⟩

def decodeItems : List GoString → List Json → Decoded (List GoString)
  | _,[] => ⟨[],.ok⟩
  | current,j::rest =>
    let head := decodeString (current.head?.getD []) j
    let tail := decodeItems current.tail rest
    ⟨head.value::tail.value,head.outcome.and tail.outcome⟩

def decodeStrings (current : List GoString) : Json → Decoded (List GoString)
  | .null => ⟨[],.ok⟩
  | .arr items => decodeItems current items
  | _ => ⟨current,.wrongType⟩

def decodeMember {α : Type} (field : α → GoString → Json → Decoded α) (d : Decoded α)
    (m : GoString × Json) : Decoded α :=
  if d.outcome = .aborted then d
  else let next := field d.value m.1 m.2
    ⟨next.value,d.outcome.and next.outcome⟩

def decodeStruct {α : Type} (field : α → GoString → Json → Decoded α) (current : α) : Json → Decoded α
  | .null => ⟨current,.ok⟩
  | .obj members => members.foldl (decodeMember field) ⟨current,.ok⟩
  | _ => ⟨current,.wrongType⟩

abbrev GoMap (α : Type) := List (GoString × α)

def setEntry {α : Type} (m : GoMap α) (key : GoString) (value : α) : GoMap α :=
  m.filter (fun e => e.1 != key) ++ [(key,value)]

/- Every element is decoded into a fresh zero value and stored even after an error. -/
def decodeMap {α : Type} (element : Json → Decoded α) : Json → Decoded (Option (GoMap α))
  | .null => ⟨none,.ok⟩
  | .obj members =>
    let all := members.foldl (fun (d : Decoded (GoMap α)) m =>
      let next := element m.2
      ⟨setEntry d.value m.1 next.value,d.outcome.and next.outcome⟩) ⟨[],.ok⟩
    ⟨some all.value,all.outcome⟩
  | _ => ⟨none,.wrongType⟩

structure FromJson {α : Type} (element : Json → Decoded α) (m : GoMap α) : Prop where
  distinct : (m.map Prod.fst).Nodup
  elements : ∀ e ∈ m, ∃ j, e.2 = (element j).value

theorem fromSet {α : Type} {element : Json → Decoded α} {m : GoMap α} (made : FromJson element m) (key : GoString)
    (j : Json) : FromJson element (setEntry m key (element j).value) := by
  refine ⟨?_,fun e member => ?_⟩
  · rw [setEntry,List.map_append]
    refine List.nodup_append.mpr ⟨made.distinct.sublist (List.filter_sublist.map _),List.pairwise_singleton _ key,?_⟩
    intro k old other new same
    obtain ⟨e,kept,rfl⟩ := List.mem_map.mp old
    have apart := (List.mem_filter.mp kept).2
    rw [same,List.mem_singleton.mp new] at apart
    simp at apart
  · rcases List.mem_append.mp member with old | new
    · exact made.elements e (List.mem_filter.mp old).1
    · exact ⟨j,by rw [List.mem_singleton.mp new]⟩

theorem fromJson {α : Type} {element : Json → Decoded α} {j : Json} {m : GoMap α}
    (decoded : (decodeMap element j).value = some m) : FromJson element m := by
  cases j with
  | obj members =>
    have whole : ∀ (members : List (GoString × Json)) (d : Decoded (GoMap α)), FromJson element d.value →
        FromJson element (members.foldl (fun (d : Decoded (GoMap α)) m =>
          ⟨setEntry d.value m.1 (element m.2).value,d.outcome.and (element m.2).outcome⟩) d).value := by
      intro members
      induction members with
      | nil => exact fun _ made => made
      | cons entry rest ih => exact fun d made => ih _ (fromSet made entry.1 entry.2)
    cases decoded
    exact whole members ⟨[],.ok⟩ ⟨List.nodup_nil,fun e member => by cases member⟩
  | _ => cases decoded

end WppGateway.GoJson
