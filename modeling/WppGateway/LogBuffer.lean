import WppGateway.CircularStore
import WppGateway.GoJson

/-! The log buffer of pkg/logger, with Go's index arithmetic: an index out of range, a negative length and a remainder
by zero are panics, written `none`. -/
namespace WppGateway.LogBuffer
open GoJson CircularStore

/- `Any` stands for the values of interface type. -/
structure LogEntry (Any : Type) where
  timestamp : Nat
  level : GoString
  message : GoString
  caller : GoString
  fields : GoMap Any
  deriving DecidableEq

structure RingBuffer (Any : Type) where
  entries : List (LogEntry Any)
  size : Int
  cursor : Int
  count : Int

variable {Any : Type}

def zeroEntry : LogEntry Any := ⟨0,[],[],[],[]⟩

def newRingBuffer (size : Int) : Option (RingBuffer Any) :=
  if size < 0 then none else some ⟨List.replicate size.toNat zeroEntry,size,0,0⟩

def rem (a b : Int) : Option Int := if b = 0 then none else some (a.tmod b)

def index {α : Type} (slots : List α) (i : Int) : Option α := if i < 0 then none else slots[i.toNat]?

def assign {α : Type} (slots : List α) (i : Int) (value : α) : Option (List α) :=
  if 0 ≤ i ∧ i < slots.length then some (slots.set i.toNat value) else none

def write (rb : RingBuffer Any) (entry : LogEntry Any) : Option (RingBuffer Any) := do
  let entries ← assign rb.entries rb.cursor entry
  let cursor ← rem (rb.cursor + 1) rb.size
  some ⟨entries,rb.size,cursor,if rb.count < rb.size then rb.count + 1 else rb.count⟩

/- The loop of Entries, with `i + 1` in place of `i`. -/
def collect (rb : RingBuffer Any) (level : GoString) (limit start : Int) :
    Nat → List (LogEntry Any) → Option (List (LogEntry Any))
  | 0,result => some result
  | i+1,result =>
    if (result.length : Int) < limit then do
      let idx ← rem (start + i) rb.size
      let entry ← index rb.entries idx
      if level ≠ [] ∧ entry.level ≠ level then collect rb level limit start i result
      else collect rb level limit start i (result ++ [entry])
    else some result

def entries (rb : RingBuffer Any) (level : GoString) (limit : Int) : Option (List (LogEntry Any)) := do
  let limit := if limit ≤ 0 ∨ limit > rb.count then rb.count else limit
  let start ← rem (rb.cursor - rb.count + rb.size) rb.size
  collect rb level limit start rb.count.toNat []

def written (size : Int) (writes : List (LogEntry Any)) : Option (RingBuffer Any) := do
  let rb ← newRingBuffer size
  writes.foldlM write rb

/- What the buffer is for: the last entries written, newest first, those of one level, at most so many. -/
def recent (size : Nat) (writes : List (LogEntry Any)) : List (LogEntry Any) := writes.reverse.take size

def matchesLevel (level : GoString) (entry : LogEntry Any) : Bool := decide (level = [] ∨ entry.level = level)

def asked (limit : Int) (held : Nat) : Nat := if 1 ≤ limit ∧ limit ≤ held then limit.toNat else held

def query (size : Nat) (writes : List (LogEntry Any)) (level : GoString) (limit : Int) : List (LogEntry Any) :=
  ((recent size writes).filter (matchesLevel level)).take (asked limit (min size writes.length))

structure Represents (rb : RingBuffer Any) (size : Nat) (writes : List (LogEntry Any)) : Prop where
  room : 0 < size
  slots : rb.entries.length = size
  sized : rb.size = size
  next : rb.cursor = (writes.length % size : Nat)
  counted : rb.count = (min size writes.length : Nat)
  holds : Holds rb.entries writes

theorem remNat {a : Int} {b : Nat} (positive : 0 < b) : rem a b = some (a.tmod b) :=
  if_neg (by omega)

theorem indexNat {α : Type} (slots : List α) (i : Nat) : index slots (i : Int) = slots[i]? := by
  rw [index,if_neg (by omega),Int.toNat_natCast]

theorem newRepresents {size : Nat} (positive : 0 < size) :
    ∃ rb : RingBuffer Any, newRingBuffer size = some rb ∧ Represents rb size [] := by
  refine ⟨_,if_neg (by omega),positive,?_,rfl,?_,?_,holdsNone _⟩
  · rw [Int.toNat_natCast,List.length_replicate]
  · rw [List.length_nil,Nat.zero_mod]; rfl
  · rw [List.length_nil,Nat.min_zero]; rfl

theorem writeRepresents {rb : RingBuffer Any} {size : Nat} {writes : List (LogEntry Any)}
    (before : Represents rb size writes) (entry : LogEntry Any) :
    ∃ rb', write rb entry = some rb' ∧ Represents rb' size (writes ++ [entry]) := by
  have slot : writes.length % size < size := Nat.mod_lt _ before.room
  have put : assign rb.entries rb.cursor entry = some (rb.entries.set (writes.length % size) entry) := by
    rw [assign,before.next,before.slots,if_pos (by omega),Int.toNat_natCast]
  have turned : ((writes.length % size : Nat) + 1 : Int).tmod size = ((writes.length + 1) % size : Nat) := by
    rw [Int.tmod_eq_emod_of_nonneg (by omega),Int.natCast_emod,Int.emod_add_emod,Int.natCast_emod,Int.natCast_succ]
  refine ⟨_,by rw [write,put,before.sized,remNat before.room]; rfl,before.room,?_,rfl,?_,?_,?_⟩
  · rw [List.length_set,before.slots]
  · rw [before.next,List.length_append,List.length_singleton]
    exact turned
  · rw [List.length_append,List.length_singleton]
    simp only [before.counted]
    split <;> omega
  · rw [← before.slots]
    exact holdsWrite (before.slots.symm ▸ before.room) before.holds entry

theorem runRepresents (writes : List (LogEntry Any)) {rb : RingBuffer Any} {size : Nat} {earlier : List (LogEntry Any)}
    (before : Represents rb size earlier) :
    ∃ rb', writes.foldlM write rb = some rb' ∧ Represents rb' size (earlier ++ writes) := by
  induction writes generalizing rb earlier with
  | nil => exact ⟨rb,rfl,by rwa [List.append_nil]⟩
  | cons entry rest ih =>
    obtain ⟨mid,wrote,now⟩ := writeRepresents before entry
    obtain ⟨last,ran,after⟩ := ih now
    refine ⟨last,?_,by rwa [List.append_assoc] at after⟩
    rw [List.foldlM_cons,wrote]
    exact ran

theorem writtenRepresents {size : Nat} (positive : 0 < size) (writes : List (LogEntry Any)) :
    ∃ rb, written size writes = some rb ∧ Represents rb size writes := by
  obtain ⟨fresh,made,start⟩ := newRepresents positive
  obtain ⟨rb,ran,now⟩ := runRepresents writes start
  refine ⟨rb,?_,now⟩
  rw [written,made]
  exact ran

section Reading
variable {rb : RingBuffer Any} {size : Nat} {writes : List (LogEntry Any)}

theorem startFound (now : Represents rb size writes) :
    ∃ start, rem (rb.cursor - rb.count + rb.size) rb.size = some start ∧
      ∀ i < min size writes.length, ∃ idx, rem (start + i) rb.size = some idx ∧
        index rb.entries idx = (recent size writes)[min size writes.length - 1 - i]? := by
  rw [now.sized,now.next,now.counted]
  refine ⟨_,remNat now.room,fun i inside => ⟨_,remNat now.room,?_⟩⟩
  rw [slotFound (Nat.min_le_left _ _) (Nat.min_le_right _ _),indexNat,recent,List.getElem?_take_of_lt (by omega)]
  have held := now.holds (min size writes.length - 1 - i) (by rw [now.slots]; omega)
  have age : writes.length - 1 - (min size writes.length - 1 - i) = writes.length - min size writes.length + i := by omega
  rw [now.slots,age] at held
  exact held

theorem collectRecent (level : GoString) (limit : Int) {start : Int}
    (found : ∀ i < min size writes.length, ∃ idx, rem (start + i) rb.size = some idx ∧
      index rb.entries idx = (recent size writes)[min size writes.length - 1 - i]?)
    (turns : Nat) (few : turns ≤ min size writes.length) (result : List (LogEntry Any)) :
    collect rb level limit start turns result = some (result ++
      (((recent size writes).drop (min size writes.length - turns)).filter (matchesLevel level)).take
        (limit.toNat - result.length)) := by
  have whole : (recent size writes).length = min size writes.length := by
    rw [recent,List.length_take,List.length_reverse]
  induction turns generalizing result with
  | zero =>
    rw [Nat.sub_zero,List.drop_of_length_le (by omega)]
    simp [collect]
  | succ i ih =>
    rw [collect]
    by_cases more : (result.length : Int) < limit
    · have young : min size writes.length - (i+1) < (recent size writes).length := by omega
      obtain ⟨idx,at_,read⟩ := found i (by omega)
      have age : min size writes.length - 1 - i = min size writes.length - (i+1) := by omega
      rw [age,List.getElem?_eq_getElem young] at read
      have next : min size writes.length - (i+1) + 1 = min size writes.length - i := by omega
      rw [if_pos more,at_,Option.bind_eq_bind,Option.bind_some,read,Option.bind_eq_bind,Option.bind_some,
        List.drop_eq_getElem_cons young,next]
      by_cases shown : matchesLevel level (recent size writes)[min size writes.length - (i+1)] = true
      · have passes : ¬ (level ≠ [] ∧ (recent size writes)[min size writes.length - (i+1)].level ≠ level) := by
          simpa [matchesLevel,or_iff_not_imp_left] using shown
        have one : limit.toNat - result.length = (limit.toNat - (result.length + 1)) + 1 := by omega
        rw [if_neg passes,ih (by omega),List.filter_cons_of_pos shown,one,List.take_succ_cons,List.length_append,
          List.length_singleton,List.append_assoc,List.singleton_append]
      · have skipped : level ≠ [] ∧ (recent size writes)[min size writes.length - (i+1)].level ≠ level := by
          simpa [matchesLevel] using shown
        rw [if_pos skipped,ih (by omega),List.filter_cons_of_neg shown]
    · have none_ : limit.toNat - result.length = 0 := by omega
      rw [if_neg more,none_,List.take_zero,List.append_nil]

theorem entriesQuery (now : Represents rb size writes) (level : GoString) (limit : Int) :
    entries rb level limit = some (query size writes level limit) := by
  obtain ⟨start,begun,found⟩ := startFound now
  have turns : rb.count.toNat = min size writes.length := by rw [now.counted,Int.toNat_natCast]
  have bound : (if limit ≤ 0 ∨ limit > rb.count then rb.count else limit).toNat =
      asked limit (min size writes.length) := by
    rw [asked,now.counted]
    split <;> split <;> omega
  simp only [entries,begun,Option.bind_eq_bind,Option.bind_some,turns]
  rw [collectRecent level _ found _ (Nat.le_refl _),bound,Nat.sub_self,List.drop_zero,List.nil_append]
  rfl

end Reading

/-- Whatever was written and however often the array was overwritten, a query gets the matching ones of the last
entries, newest first, and no index is out of range. -/
theorem bufferRefinesWrites {size : Int} (positive : 1 ≤ size) (writes : List (LogEntry Any)) (level : GoString)
    (limit : Int) : ∃ rb, written size writes = some rb ∧
      entries rb level limit = some (query size.toNat writes level limit) := by
  have same : ((size.toNat : Nat) : Int) = size := Int.toNat_of_nonneg (by omega)
  obtain ⟨rb,made,now⟩ := writtenRepresents (show 0 < size.toNat by omega) writes
  exact ⟨rb,same ▸ made,entriesQuery now level limit⟩

def sampleEntry (level : String) (timestamp : Nat) : LogEntry Unit := ⟨timestamp,text level,[],[],[]⟩

def sampleWrites : List (LogEntry Unit) := [sampleEntry "info" 1,sampleEntry "warn" 2,sampleEntry "info" 3]

theorem bufferOfTwo : (1 : Int) ≤ 2 ∧ query 2 sampleWrites [] 7 = [sampleEntry "info" 3,sampleEntry "warn" 2] ∧
    ∃ rb, written 2 sampleWrites = some rb ∧ entries rb [] 7 = some [sampleEntry "info" 3,sampleEntry "warn" 2] := by
  have answer : query 2 sampleWrites [] 7 = [sampleEntry "info" 3,sampleEntry "warn" 2] := by decide +kernel
  obtain ⟨rb,made,read⟩ := bufferRefinesWrites (show (1 : Int) ≤ 2 by decide) sampleWrites [] 7
  exact ⟨by decide,answer,rb,made,read.trans (congrArg some answer)⟩

end WppGateway.LogBuffer
