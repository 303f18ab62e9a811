import WppGateway.Payload
import WppGateway.SpintaxReading
import WppGateway.Substitution

/-! Variables and spintax in one message: the substitution comes first, and ProcessSpintax reads what it inserted. Where it
reads the text after each pass as it would read the one before, with the value as plain bytes, the values come through. -/
namespace WppGateway.SpintaxValues
open GoJson Domain Spintax MessageText Rewriting Alternatives SpintaxReading Substitution Payload

def bytes (s : GoString) : List GoString := s.map (fun b => [b])

theorem bytesFlat (s : GoString) : (bytes s).flatMap (fun b => b) = s := by
  simp [bytes,List.flatMap_map]

/- If the body has the variable that the placeholder of the key begins with, then it is the placeholder. Only a key with two
closing braces in it, or one at its end, is not the whole variable. -/
def Readable (body key : GoString) : Prop :=
  ∀ n ∈ variableLength (placeholder key), (placeholder key).take n <:+: body → n = (placeholder key).length

instance (body key : GoString) : Decidable (Readable body key) := by unfold Readable; infer_instance

/- Each pass leaves the text with the groups and options it had, and what it inserts or copies is plain text there. -/
def Unread : GoMap GoString → GoString → Prop
  | [],_ => True
  | (key,value)::later,text =>
    Readable text key ∧
    spread bytes (reading (replaceVar text key value)) = spread (fun s => bytes (replaceVar s key value)) (reading text) ∧
    Unread later (replaceVar text key value)

def Copies : GoMap GoString → GoString → GoString → GoString → Prop
  | [],_,_,_ => True
  | (key,other)::later,before,value,after =>
    (∀ b ∈ value, b < 0x80) ∧
    pieces key (before ++ value ++ after) = pieces key before ++ value.map .inl ++ pieces key after ∧
    Copies later (replaceVar before key other) value (replaceVar after key other)

def Standing : GoMap GoString → GoString → Prop
  | [],_ => True
  | (key,value)::later,text =>
    (∀ before after, pieces key text = before ++ .inr key::after →
      Copies later (fill byteString (fun _ => value) before) value (fill byteString (fun _ => value) after)) ∧
    Standing later (replaceVar text key value)

structure AsText (order : GoMap GoString) (body : GoString) : Prop where
  unread : Unread order body
  standing : ∀ text, Returns body text → Standing order text

/- The message is what ProcessSpintax makes of the body with the variables substituted afterwards, by the same passes, and
each value that a pass inserts is in it. -/
def Kept (order : GoMap GoString) (body sent : GoString) : Prop :=
  ∃ choices, sent = substituteAll order (processSpintax body choices) ∧
    ∀ first e later, order = first ++ e::later →
      .inr e.1 ∈ pieces e.1 (substituteAll first (processSpintax body choices)) → e.2 <:+: sent

def WrittenIn (order : GoMap GoString) (b : Broadcast) (recipient sent : GoString) : Prop :=
  order.Perm (recipientVars b recipient) ∧ ∃ choices, sent = messageText b order choices

theorem closeIdxTail {b : UInt8} {rest : GoString} (absent : closeIdx (b::rest) = none) :
    ¬ (b = closeBrace ∧ rest.head? = some closeBrace) ∧ closeIdx rest = none := by
  simp only [closeIdx] at absent
  split at absent
  · cases absent
  · next other => exact ⟨other,Option.map_eq_none_iff.mp absent⟩

theorem closeIdxLater {s later : GoString} (absent : closeIdx (s ++ later) = none) : closeIdx later = none := by
  induction s with
  | nil => exact absent
  | cons b rest ih => exact ih (closeIdxTail absent).2

theorem closeIdxFirst {s later : GoString} (absent : closeIdx (s ++ later) = none) : closeIdx s = none :=
  closeIdxNone.mpr (fun inside => closeIdxNone.mp absent (inside.trans (List.prefix_append s later).isInfix))

theorem closeIdxJoin {s later : GoString} (first : closeIdx s = none) (second : closeIdx later = none)
    (seam : later.head? ≠ some closeBrace) : closeIdx (s ++ later) = none := by
  induction s with
  | nil => exact second
  | cons b rest ih =>
    obtain ⟨other,tail⟩ := closeIdxTail first
    have apart : ¬ (b = closeBrace ∧ (rest ++ later).head? = some closeBrace) := by
      intro pair
      cases rest with
      | nil => exact seam pair.2
      | cons c more => exact other pair
    rw [List.cons_append,closeIdx,if_neg apart,ih tail]
    rfl

theorem placeholderCloses (key later : GoString) : closeIdx (placeholder key ++ later) ≠ none := by
  intro absent
  exact closeIdxNone.mp absent ⟨[openBrace,openBrace] ++ key,later,by simp [placeholder]⟩

theorem groupCloses {inner post : GoString} (absent : closeIdx (openBrace::(inner ++ closeBrace::post)) = none) :
    closeIdx inner = none ∧ closeIdx post = none ∧ post.head? ≠ some closeBrace := by
  have tail := (closeIdxTail absent).2
  obtain ⟨apart,after⟩ := closeIdxTail (closeIdxLater tail)
  exact ⟨closeIdxFirst tail,after,fun closes => apart ⟨rfl,closes⟩⟩

theorem optionCloses {inner o : GoString} (absent : closeIdx inner = none) (member : o ∈ splitOptions inner) :
    closeIdx o = none :=
  closeIdxNone.mpr (fun pair => closeIdxNone.mp absent (pair.trans (optionInside member)))

theorem closeStarts {text y : GoString} (comes : Comes (fun s => s) text y) (absent : closeIdx text = none)
    (closes : y.head? = some closeBrace) : text.head? = some closeBrace := by
  induction comes with
  | nil => cases closes
  | var u post y first tail ih => exact absurd absent (placeholderCloses u post)
  | byte b rest y unread unmatched tail ih => exact closes
  | group inner post o x y closed unread member inside tail here later =>
    obtain ⟨within,after,apart⟩ := groupCloses absent
    cases x with
    | nil => exact absurd (later after closes) apart
    | cons c more =>
      -- an option is closed, so that it does not begin with a closing brace
      have starts := here (optionCloses within member) closes
      have level := optionClosed closed member
      cases o with
      | nil => cases starts
      | cons d rest =>
        cases Option.some.inj starts
        cases level

theorem closeAbsent {text y : GoString} (comes : Comes (fun s => s) text y) (absent : closeIdx text = none) :
    closeIdx y = none := by
  induction comes with
  | nil => rfl
  | var u post y first tail ih => exact absurd absent (placeholderCloses u post)
  | byte b rest y unread unmatched tail ih =>
    obtain ⟨other,later⟩ := closeIdxTail absent
    have apart : ¬ (b = closeBrace ∧ y.head? = some closeBrace) :=
      fun pair => other ⟨pair.1,closeStarts tail later pair.2⟩
    rw [List.singleton_append,closeIdx,if_neg apart,ih later]
    rfl
  | group inner post o x y closed unread member inside tail here later =>
    obtain ⟨within,after,apart⟩ := groupCloses absent
    exact closeIdxJoin (here (optionCloses within member)) (later after) (fun closes => apart (closeStarts tail after closes))

theorem placeholderInj {key other : GoString} (same : placeholder key = placeholder other) : key = other := by
  simpa [placeholder] using same

theorem tokenSuffix {s tail y : GoString} (first : FirstClose s) (here : tail <:+ s ++ [closeBrace,closeBrace])
    (some_ : tail ≠ []) (opens : [openBrace,openBrace] <+: tail ++ y) : ∃ w, FirstClose w ∧ tail = placeholder w := by
  obtain ⟨z,same⟩ := opens
  induction s with
  | nil =>
    exfalso
    rcases List.suffix_cons_iff.mp here with rfl | after
    · cases same
    · rcases List.suffix_cons_iff.mp after with rfl | after
      · cases same
      · exact some_ (List.suffix_nil.mp after)
  | cons b rest ih =>
    rcases List.suffix_cons_iff.mp here with rfl | after
    · obtain ⟨rfl,second⟩ := List.cons.inj same
      cases rest with
      | nil => cases second
      | cons c w =>
        obtain ⟨rfl,_⟩ := List.cons.inj second
        exact ⟨w,firstCloseTail (firstCloseTail first),by simp [placeholder]⟩
    · exact ih (firstCloseTail first) after

theorem firstCloseOpen {u : GoString} (first : FirstClose u) : FirstClose (openBrace::u) := by
  simp only [FirstClose,List.cons_append,closeIdx,show openBrace ≠ closeBrace by decide,false_and,if_false] at first ⊢
  rw [first]
  rfl

theorem rawOpen {rest y key : GoString} (unread : variableLength (openBrace::rest) = none)
    (comes : Comes (fun s => s) rest y) : ¬ placeholder key <+: openBrace::y := by
  intro begins
  obtain ⟨z,same⟩ := begins
  have shape : y = openBrace::(key ++ closeBrace::closeBrace::z) := by
    rw [← (List.cons.inj same).2]
    simp
  have opens : rest.head? = some openBrace := by
    cases comes with
    | nil => cases shape
    | var u post y first tail => rfl
    | group inner post o x y closed unread member inside tail => rfl
    | byte b rest y unread unmatched tail => exact congrArg some (List.cons.inj shape).1
  have absent : closeIdx rest = none := by
    cases rest with
    | nil => cases opens
    | cons b later =>
      cases Option.some.inj opens
      have later_ : closeIdx later = none := by simpa [variableLength] using unread
      simp [closeIdx,later_,openBrace,closeBrace]
  refine closeIdxNone.mp (closeAbsent comes absent) ⟨openBrace::key,z,?_⟩
  rw [shape]
  simp

section Pass
variable {key value body : GoString}

theorem readableWhole {w y : GoString} (readable : Readable body key) (first : FirstClose w)
    (inside : placeholder w <:+: body) (begins : placeholder key <+: placeholder w ++ y) : key = w := by
  obtain ⟨z,same⟩ := begins
  cases found : variableLength (placeholder key) with
  | none =>
    have close := placeholderCloses key []
    simp [variableLength,placeholder,closeIdx,openBrace,closeBrace] at found close
    exact absurd found close
  | some n =>
    obtain ⟨v,post,split_,rfl,ends⟩ := variableSplit found
    have sizes := variableFound first y
    rw [← same,split_,List.append_assoc,variableFound ends] at sizes
    rw [split_,List.append_assoc] at same
    have equal := (List.append_inj same (Option.some.inj sizes)).1
    have whole := readable _ found (by rw [split_,List.take_left,equal]; exact inside)
    rw [split_,List.length_append] at whole
    have none_ : post = [] := List.length_eq_zero_iff.mp (by omega)
    rw [none_,List.append_nil,equal] at split_
    exact placeholderInj split_

theorem replaceVarCopies {b : UInt8} {y : GoString} (free : ¬ placeholder key <+: b::y) :
    replaceVar (b::y) key value = byteString b ++ replaceVar y key value := by
  have here : found placeholder [key] (b::y) = none := by rw [foundOne,if_neg free]
  simp only [replaceVarFills,pieces,scanCopies here,fillCopied]

theorem replaceVarByte {b : UInt8} (plain : b ≠ openBrace) (y : GoString) :
    replaceVar (b::y) key value = byteString b ++ replaceVar y key value := by
  refine replaceVarCopies (fun begins => plain ?_)
  obtain ⟨z,same⟩ := begins
  exact (List.cons.inj same).1.symm

theorem replaceVarToken (readable : Readable body key) {u : GoString} (first : FirstClose u)
    (inside : placeholder u <:+: body) (y : GoString) :
    replaceVar (placeholder u ++ y) key value = replaceVar (placeholder u) key value ++ replaceVar y key value := by
  have joined : pieces key (placeholder u ++ y) = pieces key (placeholder u) ++ pieces key y := by
    refine scanAppend (marked _) (fun tail end_ some_ other member begins => ?_)
    cases List.mem_singleton.mp member
    have opens : [openBrace,openBrace] <+: placeholder key := ⟨key ++ [closeBrace,closeBrace],by simp [placeholder]⟩
    obtain ⟨w,ends,rfl⟩ := tokenSuffix (firstCloseOpen (firstCloseOpen first)) end_ some_ (opens.trans begins)
    rw [readableWhole readable ends (end_.isInfix.trans inside) begins]
  simp only [replaceVarFills,joined,fillAppend]

inductive Closed (body : GoString) : GoString → Prop where
  | nil : Closed body []
  | byte (b : UInt8) (rest : GoString) (plain : b ≠ openBrace) (tail : Closed body rest) : Closed body (b::rest)
  | var (u rest : GoString) (first : FirstClose u) (inside : placeholder u <:+: body) (tail : Closed body rest) :
      Closed body (placeholder u ++ rest)

theorem closedAppend {s later : GoString} (first : Closed body s) (second : Closed body later) :
    Closed body (s ++ later) := by
  induction first with
  | nil => exact second
  | byte b rest plain _ ih => exact .byte b _ plain ih
  | var u rest first inside _ ih =>
    rw [List.append_assoc]
    exact .var u _ first inside ih

theorem replaceVarClosed (readable : Readable body key) {s : GoString} (closed : Closed body s) (y : GoString) :
    replaceVar (s ++ y) key value = replaceVar s key value ++ replaceVar y key value := by
  induction closed with
  | nil => rfl
  | byte b rest plain _ ih => rw [List.cons_append,replaceVarByte plain,replaceVarByte plain,ih,List.append_assoc]
  | var u rest first inside _ ih =>
    rw [List.append_assoc,replaceVarToken readable first inside,replaceVarToken readable first inside,ih,
      List.append_assoc]

theorem walkRest {d : Nat} {s later : GoString} (closed : walk d (s ++ later) = some 0) : ∃ e, walk e later = some 0 := by
  rw [walkAppend] at closed
  obtain ⟨e,_,after⟩ := Option.bind_eq_some_iff.mp closed
  exact ⟨e,after⟩

theorem groupInside {inner post : GoString} (inside : openBrace::(inner ++ closeBrace::post) <:+: body) :
    inner <:+: body ∧ post <:+: body :=
  ⟨List.IsInfix.trans ⟨[openBrace],closeBrace::post,by simp⟩ inside,
    List.IsInfix.trans ⟨openBrace::(inner ++ [closeBrace]),[],by simp⟩ inside⟩

theorem closedComes {d : Nat} {text y : GoString} (comes : Comes (fun s => s) text y) (closed : walk d text = some 0)
    (inside : text <:+: body) : Closed body y := by
  induction comes generalizing d with
  | nil => exact .nil
  | var u post y first tail ih =>
    obtain ⟨e,after⟩ := walkRest closed
    exact .var u y first ((List.prefix_append _ post).isInfix.trans inside)
      (ih after ((List.suffix_append _ post).isInfix.trans inside))
  | byte b rest y unread unmatched tail ih =>
    have plain : b ≠ openBrace := by
      intro opens
      subst opens
      rw [walkOpen] at closed
      exact absurd (walkLower closed (Nat.succ_pos d)) ((matchedIff rest).mp (unmatched rfl))
    obtain ⟨e,after⟩ := walkRest (s := [b]) closed
    exact .byte b y plain (ih after ((List.suffix_cons b rest).isInfix.trans inside))
  | group inner post o x y level unread member chosen tail here later =>
    have split_ : openBrace::(inner ++ closeBrace::post) = (openBrace::inner ++ [closeBrace]) ++ post := by simp
    rw [split_] at closed
    obtain ⟨e,after⟩ := walkRest closed
    obtain ⟨within,behind⟩ := groupInside inside
    exact closedAppend (here (optionClosed level member) ((optionInside member).trans within)) (later after behind)

theorem passComes (readable : Readable body key) {text z : GoString}
    (comes : Comes (fun s => replaceVar s key value) text z) (inside : text <:+: body) :
    ∃ y, Comes (fun s => s) text y ∧ z = replaceVar y key value := by
  induction comes with
  | nil => exact ⟨[],.nil,rfl⟩
  | var u post z first tail ih =>
    obtain ⟨y,comes,rfl⟩ := ih ((List.suffix_append _ post).isInfix.trans inside)
    have own := (List.prefix_append _ post).isInfix.trans inside
    exact ⟨_,.var u post y first comes,(replaceVarToken readable first own y).symm⟩
  | byte b rest z unread unmatched tail ih =>
    obtain ⟨y,comes,rfl⟩ := ih ((List.suffix_cons b rest).isInfix.trans inside)
    have one : ¬ placeholder key <+: [b] := fun begins => absurd begins.length_le (by simp [placeholder])
    have both : ¬ placeholder key <+: b::y := by
      intro begins
      obtain ⟨z,same⟩ := begins
      obtain ⟨rfl,_⟩ := List.cons.inj same
      exact rawOpen unread comes ⟨z,same⟩
    refine ⟨_,.byte b rest y unread unmatched comes,?_⟩
    rw [List.singleton_append,replaceVarCopies one,replaceVarCopies both]
    exact congrArg (· ++ replaceVar y key value) (List.append_nil _)
  | group inner post o x w closed unread member chosen tail here later =>
    obtain ⟨within,behind⟩ := groupInside inside
    have own := (optionInside member).trans within
    obtain ⟨v,first,rfl⟩ := here own
    obtain ⟨y,comes,rfl⟩ := later behind
    refine ⟨_,.group inner post o v y closed unread member first comes,?_⟩
    exact (replaceVarClosed readable (closedComes first (optionClosed closed member) own) y).symm

theorem passReturns (readable : Readable body key)
    (same : spread bytes (reading (replaceVar body key value)) = spread (fun s => bytes (replaceVar s key value)) (reading body))
    {z : GoString} (returns : Returns (replaceVar body key value) z) :
    ∃ y, Returns body y ∧ z = replaceVar y key value := by
  have flat := (yieldsSpread (fun s => s) bytes (reading (replaceVar body key value)) z).mpr
    (by simpa only [bytesFlat,Returns] using returns)
  rw [same,yieldsSpread] at flat
  simp only [bytesFlat] at flat
  obtain ⟨y,comes,rfl⟩ := passComes readable (comesIff.mp flat) List.infix_rfl
  exact ⟨y,comesIff.mpr comes,rfl⟩

end Pass

section Passes
variable {order : GoMap GoString} {body : GoString}

theorem unreadReturns (unread : Unread order body) {z : GoString} (returns : Returns (substituteAll order body) z) :
    ∃ y, Returns body y ∧ z = substituteAll order y := by
  induction order generalizing body with
  | nil => exact ⟨z,returns,rfl⟩
  | cons e later ih =>
    obtain ⟨readable,same,rest⟩ := unread
    obtain ⟨y,through,rfl⟩ := ih rest returns
    obtain ⟨x,comes,rfl⟩ := passReturns readable same through
    exact ⟨x,comes,rfl⟩

theorem standingRest {first later : GoMap GoString} {text : GoString} (standing : Standing (first ++ later) text) :
    Standing later (substituteAll first text) := by
  induction first generalizing text with
  | nil => exact standing
  | cons e rest ih => exact ih standing.2

theorem copiesInside {later : GoMap GoString} {before value after : GoString} (copies : Copies later before value after) :
    value <:+: substituteAll later (before ++ value ++ after) := by
  induction later generalizing before after with
  | nil => exact ⟨before,after,rfl⟩
  | cons e rest ih =>
    obtain ⟨ascii,found_,tail⟩ := copies
    have copied_ : value.flatMap byteString = value := by
      have each : ∀ b ∈ value, byteString b = [b] := fun b member => byteStringAscii (ascii b member)
      rw [List.flatMap_congr each,List.flatMap_singleton']
    have passed : replaceVar (before ++ value ++ after) e.1 e.2 =
        replaceVar before e.1 e.2 ++ value ++ replaceVar after e.1 e.2 := by
      simp only [replaceVarFills,found_,fillAppend,fillCopies,copied_]
    have inside := ih tail
    rw [← passed] at inside
    exact inside

theorem standingInside {first later : GoMap GoString} {e : GoString × GoString} {text : GoString}
    (standing : Standing (first ++ e::later) text) (inserted : .inr e.1 ∈ pieces e.1 (substituteAll first text)) :
    e.2 <:+: substituteAll (first ++ e::later) text := by
  obtain ⟨before,after,split_⟩ := List.append_of_mem inserted
  have inside := copiesInside ((standingRest standing).1 before after split_)
  have passed : substituteAll (first ++ e::later) text =
      substituteAll later (replaceVar (substituteAll first text) e.1 e.2) := by
    simp only [substituteAll,List.foldl_append,List.foldl_cons]
  rw [passed,replaceVarFills,split_,fillAppend,fillMark,← List.append_assoc]
  exact inside

end Passes

def spun (body key value : GoString) : Broadcast :=
  ⟨21,1,.processing,1,0,0,0,0,text "text",.obj [(text "body",.str body)],
    .obj [(text "5511999999999",.obj [(key,.str value)])],encodeOptions {noOptions with spintax := true},0⟩

def greeted : Broadcast :=
  spun (openBrace::text "Oi|Ol\u00e1" ++ [closeBrace] ++ text " " ++ placeholder (text "nome")) (text "nome") (text "Ana")

def named_ : GoMap GoString := [(text "nome",text "Ana")]

theorem greetedVars : named_.Perm (recipientVars greeted (text "5511999999999")) := by decide +kernel

def choiceValue : GoString := openBrace::text "a|b" ++ [closeBrace]

end WppGateway.SpintaxValues
