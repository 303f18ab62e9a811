import WppGateway.MessageText
import WppGateway.Rewriting
import Mathlib.Data.List.Sublists

/-! Variables in a message body: one pass of replaceVar, and the passes of a whole map in any order. -/
namespace WppGateway.Substitution
open GoJson Domain Spintax MessageText Rewriting

theorem placeholderNonempty (key : GoString) : placeholder key ≠ [] := by
  simp [placeholder]

theorem marked (keys : List GoString) : ∀ k ∈ keys, placeholder k ≠ [] := fun k _ => placeholderNonempty k

def pieces (key text : GoString) : List (UInt8 ⊕ GoString) := scan placeholder [key] 0 text

/- What replaceVar is for: the value in place of every placeholder, read from the left, and the rest as it is. -/
def replaceAll (key value text : GoString) : GoString := fill (fun b => [b]) (fun _ => value) (pieces key text)

theorem replaceAllAbsent {key text : GoString} (value : GoString) (absent : ¬ placeholder key <:+: text) :
    replaceAll key value text = text := by
  rw [replaceAll,pieces,scanUnmarked (by simpa using absent),fillCopies]
  simp

theorem replaceScanFills (key value : GoString) (skip : Nat) (text : GoString) :
    replaceScan (placeholder key) value skip text =
      fill byteString (fun _ => value) (scan placeholder [key] skip text) := by
  induction text generalizing skip with
  | nil => cases skip <;> rfl
  | cons b rest ih =>
    cases skip with
    | succ skip => exact ih skip
    | zero =>
      simp only [replaceScan,scan,foundOne,List.isPrefixOf_iff_prefix]
      split
      · rw [fillMark,ih]
      · rw [fillCopied,ih]

theorem replaceVarFills (text key value : GoString) :
    replaceVar text key value = fill byteString (fun _ => value) (pieces key text) := replaceScanFills key value 0 text

def ValidUTF8 (s : GoString) : Prop := ∃ chars : List Char, s = chars.flatMap String.utf8EncodeChar

theorem validAppend {s t : GoString} (first : ValidUTF8 s) (later : ValidUTF8 t) : ValidUTF8 (s ++ t) := by
  obtain ⟨cs,rfl⟩ := first
  obtain ⟨ds,rfl⟩ := later
  exact ⟨cs ++ ds,by simp⟩

theorem validAscii {b : UInt8} (ascii : b < 0x80) : ValidUTF8 [b] := by
  have small : b.toNat < 128 := ascii
  have scalar : (Char.ofUInt8 b).val.toNat = b.toNat := UInt8.toNat_toUInt32 b
  refine ⟨[Char.ofUInt8 b],?_⟩
  rw [List.flatMap_singleton,String.utf8EncodeChar]
  simp only [scalar]
  rw [if_pos (by omega)]
  simp

theorem byteStringSize (b : UInt8) : (byteString b).length = 1 + if b < 0x80 then 0 else 1 := by
  unfold byteString
  split <;> rfl

theorem byteStringAscii {b : UInt8} (ascii : b < 0x80) : byteString b = [b] := if_pos ascii

theorem fillSize (value : GoString → GoString) (all : List (UInt8 ⊕ GoString)) :
    (fill byteString value all).length =
      (fill (fun b => [b]) value all).length + (copied all).countP (fun b => !decide (b < 0x80)) := by
  induction all with
  | nil => rfl
  | cons piece rest ih =>
    cases piece with
    | inr k => simp only [fillMark,copiedMark,List.length_append,ih]; omega
    | inl b =>
      simp only [fillCopied,copiedCopied,List.length_append,List.length_singleton,List.countP_cons,byteStringSize,ih]
      by_cases ascii : b < 0x80 <;> simp [ascii] <;> omega

theorem fillExact (value : GoString → GoString) (all : List (UInt8 ⊕ GoString)) :
    fill byteString value all = fill (fun b => [b]) value all ↔ ∀ b ∈ copied all, b < 0x80 := by
  constructor
  · intro same
    have sizes := fillSize value all
    rw [same] at sizes
    have none_ : (copied all).countP (fun b => !decide (b < 0x80)) = 0 := by omega
    simpa using List.countP_eq_zero.mp none_
  · exact fun ascii => fillCongr (fun b member => byteStringAscii (ascii b member))

theorem validFill {value : GoString → GoString} {all : List (UInt8 ⊕ GoString)} (ascii : ∀ b ∈ copied all, b < 0x80)
    (valid : ∀ k, ValidUTF8 (value k)) : ValidUTF8 (fill (fun b => [b]) value all) := by
  induction all with
  | nil => exact ⟨[],rfl⟩
  | cons piece rest ih =>
    cases piece with
    | inr k => exact validAppend (valid k) (ih ascii)
    | inl b =>
      simp only [copiedCopied,List.forall_mem_cons] at ascii
      exact validAppend (validAscii ascii.1) (ih ascii.2)

structure Replaces (text key value : GoString) : Prop where
  all : replaceVar text key value = replaceAll key value text
  valid : ValidUTF8 text → ValidUTF8 value → ValidUTF8 (replaceVar text key value)
  absent : ¬ placeholder key <:+: text → replaceVar text key value = text

/-- A pass replaces the placeholder and leaves the rest alone exactly where the rest is ASCII. -/
theorem replaceVarExact (text key value : GoString) :
    Replaces text key value ↔ ∀ b ∈ copied (pieces key text), b < 0x80 := by
  constructor
  · intro replaces
    have all := replaces.all
    rw [replaceVarFills] at all
    exact (fillExact _ _).mp all
  · intro ascii
    have all : replaceVar text key value = replaceAll key value text := by
      rw [replaceVarFills]
      exact (fillExact _ _).mpr ascii
    refine ⟨all,fun _ valid => ?_,fun absent => ?_⟩
    · rw [all]
      exact validFill ascii (fun _ => valid)
    · rw [all,replaceAllAbsent value absent]

theorem accentDoubled : ¬ Replaces (text "caf\u00e9") (text "nome") (text "Ana") ∧
    replaceVar (text "caf\u00e9") (text "nome") (text "Ana") = text "caf\u00c3\u00a9" := by
  have doubled : replaceVar (text "caf\u00e9") (text "nome") (text "Ana") = text "caf\u00c3\u00a9" := by decide
  refine ⟨fun replaces => ?_,doubled⟩
  have same := replaces.absent (by decide)
  rw [doubled] at same
  exact absurd same (by decide)

abbrev names (entries : GoMap GoString) : List GoString := entries.map Prod.fst

def valueOf (entries : GoMap GoString) (key : GoString) : GoString := (lookup entries key).getD []

def parts (entries : GoMap GoString) (body : GoString) : List (UInt8 ⊕ GoString) := scan placeholder (names entries) 0 body

def substitute (entries : GoMap GoString) (body : GoString) : GoString :=
  fill (fun b => [b]) (valueOf entries) (parts entries body)

def resolved (entries : GoMap GoString) (done : List GoString) (key : GoString) : GoString :=
  if key ∈ done then valueOf entries key else placeholder key

def partly (entries : GoMap GoString) (done : List GoString) (body : GoString) : GoString :=
  fill (fun b => [b]) (resolved entries done) (parts entries body)

def expected (entries : GoMap GoString) (done : List GoString) (key : GoString) (body : GoString) :
    List (UInt8 ⊕ GoString) :=
  fill (fun b => [.inl b]) (fun k => if k = key then [.inr k] else (resolved entries done k).map .inl)
    (parts entries body)

/- Whichever keys are done, the placeholder of any other key begins nowhere but where the body has it, and what the
pass copies is ASCII. -/
def Independent (entries : GoMap GoString) (body : GoString) : Prop :=
  ∀ done ∈ (names entries).sublists, ∀ key ∈ names entries, key ∉ done →
    Read placeholder [key] (expected entries done key body) ∧ ∀ b ∈ copied (expected entries done key body), b < 0x80

instance (entries : GoMap GoString) (body : GoString) : Decidable (Independent entries body) :=
  let _ (s : GoString) : Decidable (∀ b ∈ s, b < 0x80) := List.decidableBAll (fun b => b < 0x80) s
  by unfold Independent; infer_instance

def substituteAll (order : GoMap GoString) (body : GoString) : GoString :=
  order.foldl (fun t e => replaceVar t e.1 e.2) body

structure OrderFree (entries : GoMap GoString) (body : GoString) : Prop where
  same : ∀ order, order.Perm entries → substituteAll order body = substitute entries body
  passes : ∀ first e later, (first ++ e::later).Perm entries →
    pieces e.1 (substituteAll first body) = expected entries (names first) e.1 body ∧
      substituteAll (first ++ [e]) body = partly entries (names first ++ [e.1]) body

section Passes
variable {entries : GoMap GoString} {body : GoString}

theorem expectedCongr {done other : List GoString} (same : ∀ k ∈ names entries, k ∈ done ↔ k ∈ other)
    (key : GoString) : expected entries done key body = expected entries other key body :=
  fillValues (fun k member => by simp only [resolved,same k (scanMarks member)])

theorem plainExpected {done : List GoString} {key : GoString} (left : key ∉ done) :
    plain placeholder (expected entries done key body) = partly entries done body := by
  rw [plain,expected,fillFill]
  refine fillValues (fun k _ => ?_)
  by_cases own : k = key
  · subst own
    simp [resolved,left]
  · simp [own,fillCopies]

theorem fillExpected {done : List GoString} {key : GoString} :
    fill (fun b => [b]) (fun _ => valueOf entries key) (expected entries done key body) =
      partly entries (done ++ [key]) body := by
  rw [expected,fillFill]
  refine fillValues (fun k _ => ?_)
  by_cases own : k = key
  · subst own
    simp [resolved]
  · simp [own,fillCopies,resolved]

theorem passes {done : List GoString} {key : GoString} (left : key ∉ done)
    (read : Read placeholder [key] (expected entries done key body))
    (ascii : ∀ b ∈ copied (expected entries done key body), b < 0x80) :
    pieces key (partly entries done body) = expected entries done key body ∧
      replaceVar (partly entries done body) key (valueOf entries key) = partly entries (done ++ [key]) body := by
  have finds : pieces key (partly entries done body) = expected entries done key body := by
    rw [← plainExpected left]
    exact scanPlain (marked [key]) read
  refine ⟨finds,?_⟩
  rw [replaceVarFills,finds,(fillExact _ _).mpr ascii,fillExpected]

theorem independentAt (independent : Independent entries body) {done : List GoString} {key : GoString}
    (member : key ∈ names entries) (left : key ∉ done) :
    Read placeholder [key] (expected entries done key body) ∧
      ∀ b ∈ copied (expected entries done key body), b < 0x80 := by
  have same : ∀ k ∈ names entries, k ∈ done ↔ k ∈ (names entries).filter (· ∈ done) := by
    intro k inside
    simp [List.mem_filter,inside]
  rw [expectedCongr same]
  refine independent _ (List.mem_sublists.mpr List.filter_sublist) key member (fun inside => left ?_)
  simpa using (List.mem_filter.mp inside).2

theorem partlyNone (entries : GoMap GoString) (body : GoString) : partly entries [] body = body := by
  have plain_ := (plainScan (marked (names entries)) body).1
  rw [plain] at plain_
  conv_rhs => rw [← plain_]
  exact fillValues (fun k _ => by simp [resolved])

theorem orderFor {done : List GoString} {key : GoString} (member : key ∈ names entries) (left : key ∉ done) :
    ∃ first value later, (first ++ (key,value)::later).Perm entries ∧ ∀ k ∈ names entries, k ∈ done ↔ k ∈ names first := by
  obtain ⟨e,inside,rfl⟩ := List.mem_map.mp member
  refine ⟨entries.filter (fun e => e.1 ∈ done),e.2,(entries.filter (fun e => e.1 ∉ done)).erase e,?_,?_⟩
  · have other : e ∈ entries.filter (fun e => e.1 ∉ done) := List.mem_filter.mpr ⟨inside,by simpa using left⟩
    have split_ := List.filter_append_perm (fun e : GoString × GoString => decide (e.1 ∈ done)) entries
    simp only [decide_not] at other ⊢
    exact ((List.perm_cons_erase other).symm.append_left _).trans split_
  · intro k known
    obtain ⟨f,there,rfl⟩ := List.mem_map.mp known
    constructor
    · exact fun old => List.mem_map_of_mem (List.mem_filter.mpr ⟨there,by simpa using old⟩)
    · intro old
      obtain ⟨g,kept,same⟩ := List.mem_map.mp old
      rw [← same]
      simpa using (List.mem_filter.mp kept).2

section Distinct
variable (distinct : (names entries).Nodup)
include distinct

theorem valueEntry {e : GoString × GoString} (member : e ∈ entries) : valueOf entries e.1 = e.2 := by
  induction entries with
  | nil => cases member
  | cons head rest ih =>
    simp only [names,List.map_cons,List.nodup_cons] at distinct
    rcases List.mem_cons.mp member with rfl | later
    · simp [valueOf,lookup]
    · have other : head.1 ≠ e.1 := fun same => distinct.1 (same ▸ List.mem_map_of_mem later)
      have tail := ih distinct.2 later
      simp only [valueOf,lookup] at tail ⊢
      rwa [List.find?_cons_of_neg (by simpa using other)]

theorem keyApart {first later : GoMap GoString} {e : GoString × GoString} (perm : (first ++ e::later).Perm entries) :
    e.1 ∉ names first := by
  have nodup := (perm.map Prod.fst).nodup_iff.mpr distinct
  rw [List.map_append,List.map_cons] at nodup
  exact fun old => List.disjoint_of_nodup_append nodup old List.mem_cons_self

theorem passNext (independent : Independent entries body) {first later : GoMap GoString} {e : GoString × GoString}
    (perm : (first ++ e::later).Perm entries) :
    pieces e.1 (partly entries (names first) body) = expected entries (names first) e.1 body ∧
      replaceVar (partly entries (names first) body) e.1 e.2 = partly entries (names first ++ [e.1]) body := by
  have member : e ∈ entries := perm.subset (by simp)
  have apart := keyApart distinct perm
  obtain ⟨read,ascii⟩ := independentAt independent (List.mem_map_of_mem member) apart
  have pass := passes apart read ascii
  rwa [valueEntry distinct member] at pass

theorem passesDone (independent : Independent entries body) (first later : GoMap GoString)
    (perm : (first ++ later).Perm entries) : substituteAll first body = partly entries (names first) body := by
  induction first using List.reverseRecOn generalizing later with
  | nil =>
    exact (partlyNone entries body).symm
  | append_singleton first e ih =>
    rw [List.append_assoc,List.singleton_append] at perm
    have before := ih (e::later) perm
    rw [substituteAll] at before
    rw [substituteAll,List.foldl_append]
    simp only [before,List.foldl_cons,List.foldl_nil,(passNext distinct independent perm).2,List.map_append,List.map_cons,
      List.map_nil]

theorem independentSame (independent : Independent entries body) {order : GoMap GoString} (perm : order.Perm entries) :
    substituteAll order body = substitute entries body := by
  rw [passesDone distinct independent order [] (by simpa using perm)]
  refine fillValues (fun k member => if_pos ?_)
  exact (perm.map Prod.fst).symm.subset (scanMarks member)

/-- The passes of a map do not depend on their order, and replace nothing but the placeholders of the body, exactly where
after the passes of some keys the placeholder of any other key begins nowhere but where the body has it, and what the
pass copies is ASCII. -/
theorem orderFreeExact : OrderFree entries body ↔ Independent entries body := by
  constructor
  · intro free done sub key member left
    obtain ⟨first,value,later,perm,same⟩ := orderFor member left
    have own : (key,value) ∈ entries := perm.subset (by simp)
    obtain ⟨finds,result⟩ := free.passes first (key,value) later perm
    rw [expectedCongr same]
    constructor
    · rw [← finds]
      exact (plainScan (marked [key]) _).2
    · have filled : replaceVar (substituteAll first body) key value = partly entries (names first ++ [key]) body := by
        rw [← result,substituteAll,substituteAll,List.foldl_append]
        rfl
      rw [replaceVarFills,finds,← fillExpected,valueEntry distinct own] at filled
      exact (fillExact _ _).mp filled
  · intro independent
    refine ⟨fun order perm => independentSame distinct independent perm,fun first e later perm => ?_⟩
    have before := passesDone distinct independent first (e::later) perm
    have after := passesDone distinct independent (first ++ [e]) later (by simpa using perm)
    rw [before,after]
    exact ⟨(passNext distinct independent perm).1,by simp only [List.map_append,List.map_cons,List.map_nil]⟩

end Distinct
end Passes

theorem messageSame {b : Broadcast} {recipient : GoString} (spintax : (broadcastOptions b).spintax = false)
    (independent : Independent (recipientVars b recipient) (broadcastBody b)) {order : GoMap GoString}
    (perm : order.Perm (recipientVars b recipient)) (choices : List Nat) :
    messageText b order choices = substitute (recipientVars b recipient) (broadcastBody b) := by
  rw [← independentSame (recipientVarsDistinct b recipient) independent perm]
  simp only [messageText,spintax,Bool.false_eq_true,if_false,substituteAll]

def greeting : GoString := text "Oi " ++ placeholder (text "nome") ++ text ", cupom " ++ placeholder (text "cupom")

def plainMap : GoMap GoString := [(text "nome",text "Ana"),(text "cupom",text "X10")]

theorem greetingOrderFree : OrderFree plainMap greeting :=
  (orderFreeExact (by decide)).mpr (by decide +kernel)

def nestedMap : GoMap GoString := [(text "a",placeholder (text "b")),(text "b",text "x")]

theorem nestedDepends : ¬ OrderFree nestedMap (placeholder (text "a")) ∧
    substituteAll nestedMap (placeholder (text "a")) = text "x" ∧
    substituteAll nestedMap.reverse (placeholder (text "a")) = placeholder (text "b") := by
  have first : substituteAll nestedMap (placeholder (text "a")) = text "x" := by decide
  have second : substituteAll nestedMap.reverse (placeholder (text "a")) = placeholder (text "b") := by decide
  refine ⟨fun free => ?_,first,second⟩
  have one := free.same nestedMap (.refl _)
  have other := free.same nestedMap.reverse (List.reverse_perm _)
  rw [← one,first,second] at other
  exact absurd other (by decide)

end WppGateway.Substitution
