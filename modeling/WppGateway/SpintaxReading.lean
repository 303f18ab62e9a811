import WppGateway.Alternatives
import WppGateway.MessageText

/-! How ProcessSpintax reads a text: its template variables and other bytes are leaves, its groups alternatives. What it
returns for some choices is what this reading can come out as. -/
namespace WppGateway.SpintaxReading
open GoJson Spintax MessageText Alternatives

def reads : Nat → GoString → Variants GoString
  | _,[] => .done
  | 0,_::_ => .done
  | fuel+1,b::rest =>
    match variableLength (b::rest) with
    | some n => .leaf ((b::rest).take n) (reads fuel ((b::rest).drop n))
    | none =>
      match if b = openBrace then findMatchingBrace (b::rest) 0 else none with
      | some e => .group (gather (reads fuel) (splitOptions (((b::rest).take e).drop 1))) (reads fuel ((b::rest).drop (e+1)))
      | none => .leaf [b] (reads fuel rest)

def reading (text : GoString) : Variants GoString := reads text.length text

def Returns (text y : GoString) : Prop := Yields (fun s => s) (reading text) y

theorem scanOptionsSome (depth : Int) (current text : GoString) : scanOptions depth current text ≠ [] := by
  induction text generalizing depth current with
  | nil => simp [scanOptions]
  | cons b rest ih =>
    simp only [scanOptions]
    split
    · exact ih _ _
    split
    · exact ih _ _
    split
    · simp
    · exact ih _ _

theorem splitOptionsSome (inner : GoString) : splitOptions inner ≠ [] := scanOptionsSome 0 [] inner

theorem chooseMember {options : List GoString} (some_ : options ≠ []) (choices : List Nat) :
    (choose options choices).1 ∈ options := by
  have positive := List.length_pos_iff.mpr some_
  cases choices with
  | nil =>
    cases options with
    | nil => exact absurd rfl some_
    | cons o rest => exact List.mem_cons_self
  | cons c later =>
    have inside : c % options.length < options.length := Nat.mod_lt _ positive
    simp only [choose,List.getD_eq_getElem?_getD,List.getElem?_eq_getElem inside,Option.getD_some]
    exact List.getElem_mem inside

theorem chooseReaches {options : List GoString} {o : GoString} (member : o ∈ options) :
    ∃ c, ∀ later, choose options (c::later) = (o,later) := by
  obtain ⟨c,inside,rfl⟩ := List.mem_iff_getElem.mp member
  refine ⟨c,fun later => ?_⟩
  simp only [choose,Nat.mod_eq_of_lt inside,List.getD_eq_getElem?_getD,List.getElem?_eq_getElem inside,Option.getD_some]

theorem expandYields (fuel : Nat) (text : GoString) (choices : List Nat) :
    Yields (fun s => s) (reads fuel text) (expand fuel text choices).1 := by
  induction fuel generalizing text choices with
  | zero => cases text <;> exact rfl
  | succ fuel ih =>
    cases text with
    | nil => exact rfl
    | cons b rest =>
      simp only [reads,expand]
      cases variableLength (b::rest) with
      | some n => exact ⟨_,ih _ _,rfl⟩
      | none =>
        dsimp only
        cases if b = openBrace then findMatchingBrace (b::rest) 0 else none with
        | some e =>
          have chosen := chooseMember (splitOptionsSome (((b::rest).take e).drop 1)) choices
          exact ⟨_,_,(offersGather (splitOptionsSome _) _).mpr ⟨_,chosen,ih _ _⟩,ih _ _,rfl⟩
        | none => exact ⟨_,ih _ _,rfl⟩

theorem yieldsExpand {fuel : Nat} {text y : GoString} (yields : Yields (fun s => s) (reads fuel text) y) :
    ∃ choices, ∀ later, expand fuel text (choices ++ later) = (y,later) := by
  induction fuel generalizing text y with
  | zero => cases text <;> cases yields <;> exact ⟨[],fun _ => rfl⟩
  | succ fuel ih =>
    cases text with
    | nil => cases yields; exact ⟨[],fun _ => rfl⟩
    | cons b rest =>
      simp only [reads] at yields
      simp only [expand]
      cases found : variableLength (b::rest) with
      | some n =>
        rw [found] at yields
        obtain ⟨z,tail,rfl⟩ := yields
        obtain ⟨choices,runs⟩ := ih tail
        exact ⟨choices,fun later => by simp only [runs]⟩
      | none =>
        rw [found] at yields
        dsimp only at yields ⊢
        cases matched : if b = openBrace then findMatchingBrace (b::rest) 0 else none with
        | some e =>
          rw [matched] at yields
          obtain ⟨x,z,offers,tail,rfl⟩ := yields
          obtain ⟨o,member,inner⟩ := (offersGather (splitOptionsSome _) _).mp offers
          obtain ⟨c,reached⟩ := chooseReaches member
          obtain ⟨first,runs⟩ := ih inner
          obtain ⟨second,ends⟩ := ih tail
          refine ⟨c::(first ++ second),fun later => ?_⟩
          simp only [List.cons_append,List.append_assoc,reached,runs,ends]
        | none =>
          rw [matched] at yields
          obtain ⟨z,tail,rfl⟩ := yields
          obtain ⟨choices,runs⟩ := ih tail
          exact ⟨choices,fun later => by simp only [runs]; rfl⟩

theorem returnsIff {text y : GoString} : Returns text y ↔ ∃ choices, processSpintax text choices = y := by
  constructor
  · intro yields
    obtain ⟨choices,runs⟩ := yieldsExpand yields
    have exact_ := runs []
    rw [List.append_nil] at exact_
    exact ⟨choices,congrArg Prod.fst exact_⟩
  · intro there
    obtain ⟨choices,rfl⟩ := there
    exact expandYields text.length text choices

def walk : Nat → GoString → Option Nat
  | d,[] => some d
  | d,b::rest =>
    if b = openBrace then walk (d+1) rest
    else if b = closeBrace then match d with
      | 0 => none
      | d+1 => walk d rest
    else walk d rest

@[simp] theorem walkNil (d : Nat) : walk d [] = some d := rfl
@[simp] theorem walkOpen (d : Nat) (rest : GoString) : walk d (openBrace::rest) = walk (d+1) rest := rfl
@[simp] theorem walkClose (d : Nat) (rest : GoString) : walk (d+1) (closeBrace::rest) = walk d rest := rfl
@[simp] theorem walkCloseZero (rest : GoString) : walk 0 (closeBrace::rest) = none := rfl

theorem walkOther {b : UInt8} (noOpen : b ≠ openBrace) (noClose : b ≠ closeBrace) (d : Nat) (rest : GoString) :
    walk d (b::rest) = walk d rest := by
  simp [walk,noOpen,noClose]

theorem walkAppend (d : Nat) (s t : GoString) : walk d (s ++ t) = (walk d s).bind (fun e => walk e t) := by
  induction s generalizing d with
  | nil => rfl
  | cons b rest ih =>
    by_cases opens : b = openBrace
    · subst opens; exact ih (d+1)
    · by_cases closes : b = closeBrace
      · subst closes
        cases d with
        | zero => rfl
        | succ d => exact ih d
      · rw [List.cons_append,walkOther opens closes,walkOther opens closes,ih]

theorem scanBraceClosed {d : Nat} {inner : GoString} (closed : walk d inner = some 0) (i : Nat) (post : GoString) :
    scanBrace (d+1) i (inner ++ closeBrace::post) = some (i + inner.length) := by
  induction inner generalizing d i with
  | nil =>
    cases closed
    simp [scanBrace,openBrace,closeBrace]
  | cons b rest ih =>
    simp only [List.cons_append,scanBrace,List.length_cons]
    by_cases opens : b = openBrace
    · subst opens
      have tail := ih (d := d+1) closed (i+1)
      rw [if_pos rfl]
      rw [show ((d : Int) + 1 + 1) = ((d+1 : Nat) : Int) + 1 by omega,tail]
      exact congrArg some (by omega)
    · rw [if_neg opens]
      by_cases closes : b = closeBrace
      · subst closes
        cases d with
        | zero => cases closed
        | succ d =>
          have tail := ih (d := d) closed (i+1)
          rw [if_pos rfl,if_neg (by omega),show (((d+1 : Nat) : Int) + 1 - 1) = (d : Int) + 1 by omega,tail]
          exact congrArg some (by omega)
      · rw [walkOther opens closes] at closed
        rw [if_neg closes,ih closed]
        exact congrArg some (by omega)

theorem scanBraceSplit {d i e : Nat} {s : GoString} (here : scanBrace (d+1) i s = some e) :
    ∃ inner post, s = inner ++ closeBrace::post ∧ walk d inner = some 0 ∧ e = i + inner.length := by
  induction s generalizing d i with
  | nil => cases here
  | cons b rest ih =>
    simp only [scanBrace] at here
    by_cases opens : b = openBrace
    · subst opens
      rw [if_pos rfl,show ((d : Int) + 1 + 1) = ((d+1 : Nat) : Int) + 1 by omega] at here
      obtain ⟨inner,post,rfl,closed,rfl⟩ := ih here
      exact ⟨openBrace::inner,post,rfl,closed,by simp only [List.length_cons]; omega⟩
    · rw [if_neg opens] at here
      by_cases closes : b = closeBrace
      · subst closes
        rw [if_pos rfl] at here
        cases d with
        | zero =>
          cases here
          exact ⟨[],rest,rfl,rfl,rfl⟩
        | succ d =>
          rw [if_neg (by omega),show (((d+1 : Nat) : Int) + 1 - 1) = (d : Int) + 1 by omega] at here
          obtain ⟨inner,post,rfl,closed,rfl⟩ := ih here
          exact ⟨closeBrace::inner,post,rfl,closed,by simp only [List.length_cons]; omega⟩
      · rw [if_neg closes] at here
        obtain ⟨inner,post,rfl,closed,rfl⟩ := ih here
        exact ⟨b::inner,post,rfl,by rw [walkOther opens closes]; exact closed,by simp only [List.length_cons]; omega⟩

theorem findMatchingOpen (rest : GoString) : findMatchingBrace (openBrace::rest) 0 = scanBrace 1 1 rest := by
  simp [findMatchingBrace,scanBrace]

theorem walkDeeper {d e : Nat} {s : GoString} (here : walk d s = some e) (k : Nat) : walk (d+k) s = some (e+k) := by
  induction s generalizing d with
  | nil =>
    cases here
    rfl
  | cons b rest ih =>
    by_cases opens : b = openBrace
    · subst opens
      rw [walkOpen] at here ⊢
      rw [show d + k + 1 = d + 1 + k by omega]
      exact ih here
    · by_cases closes : b = closeBrace
      · subst closes
        cases d with
        | zero => cases here
        | succ d =>
          rw [walkClose] at here
          rw [show d + 1 + k = d + k + 1 by omega,walkClose]
          exact ih here
      · rw [walkOther opens closes] at here ⊢
        exact ih here

theorem walkLower {c d : Nat} {s : GoString} (closed : walk d s = some 0) (lower : c < d) : walk c s = none := by
  cases here : walk c s with
  | none => rfl
  | some e =>
    have deeper := walkDeeper here (d - c)
    rw [Nat.add_sub_cancel' (Nat.le_of_lt lower),closed,Option.some.injEq] at deeper
    omega

theorem walkMatched {d : Nat} {s : GoString} (broken : walk d s = none) (i : Nat) :
    ∃ e, scanBrace (d+1) i s = some e := by
  induction s generalizing d i with
  | nil => cases broken
  | cons b rest ih =>
    simp only [scanBrace]
    by_cases opens : b = openBrace
    · subst opens
      rw [if_pos rfl,show ((d : Int) + 1 + 1) = ((d+1 : Nat) : Int) + 1 by omega]
      exact ih (d := d+1) broken (i+1)
    · rw [if_neg opens]
      by_cases closes : b = closeBrace
      · subst closes
        rw [if_pos rfl]
        cases d with
        | zero => exact ⟨i,rfl⟩
        | succ d =>
          rw [if_neg (by omega),show (((d+1 : Nat) : Int) + 1 - 1) = (d : Int) + 1 by omega]
          exact ih (d := d) broken (i+1)
      · rw [walkOther opens closes] at broken
        rw [if_neg closes]
        exact ih broken (i+1)

theorem matchedIff (rest : GoString) : findMatchingBrace (openBrace::rest) 0 = none ↔ walk 0 rest ≠ none := by
  rw [findMatchingOpen]
  constructor
  · intro unmatched broken
    obtain ⟨e,matched⟩ := walkMatched broken 1
    exact absurd (unmatched.symm.trans matched) (by simp)
  · intro whole
    cases matched : scanBrace 1 1 rest with
    | none => rfl
    | some e =>
      obtain ⟨inner,post,rfl,closed,_⟩ := scanBraceSplit (d := 0) matched
      rw [walkAppend,closed] at whole
      exact absurd rfl whole

/- A scan that starts at the depth of what it has read so far cuts closed options. What each byte of an option keeps, but
for a bar outside braces, they all have. -/
theorem scanOptionsKeep {P : GoString → Prop} (nil : P [])
    (byte : ∀ {d current} b, walk 0 current = some d → P current → (b = bar → 0 < d) → P (current ++ [b])) {d : Nat}
    {current s : GoString} (before : walk 0 current = some d) (after : walk d s = some 0) (kept : P current) :
    ∀ o ∈ scanOptions d current s, walk 0 o = some 0 ∧ P o := by
  intro o member
  induction s generalizing d current with
  | nil =>
    cases after
    cases List.mem_singleton.mp member
    exact ⟨before,kept⟩
  | cons b rest ih =>
    simp only [scanOptions] at member
    by_cases opens : b = openBrace
    · subst opens
      rw [if_pos rfl] at member
      have longer := byte openBrace before kept (fun same => absurd same (by decide))
      exact ih (d := d+1) (by rw [walkAppend,before]; rfl) after longer member
    · rw [if_neg opens] at member
      by_cases closes : b = closeBrace
      · subst closes
        rw [if_pos rfl] at member
        have longer := byte closeBrace before kept (fun same => absurd same (by decide))
        cases d with
        | zero => cases after
        | succ d =>
          rw [show ((d+1 : Nat) : Int) - 1 = (d : Int) by omega] at member
          exact ih (d := d) (by rw [walkAppend,before]; rfl) after longer member
      · rw [if_neg closes] at member
        rw [walkOther opens closes] at after
        have same : walk 0 (current ++ [b]) = some d := by
          rw [walkAppend,before]
          exact walkOther opens closes d []
        split at member
        · next here =>
          have level : d = 0 := by omega
          rcases List.mem_cons.mp member with rfl | later
          · exact ⟨by rw [before,level],kept⟩
          · exact ih (show walk 0 [] = some d by rw [level]; rfl) after nil later
        · next within =>
          have deep : b = bar → 0 < d := fun cut => Nat.pos_of_ne_zero (fun level => within ⟨cut,by omega⟩)
          exact ih same after (byte b before kept deep) member

theorem optionClosed {inner o : GoString} (closed : walk 0 inner = some 0) (member : o ∈ splitOptions inner) :
    walk 0 o = some 0 :=
  (scanOptionsKeep (P := fun _ => True) trivial (fun _ _ _ _ => trivial) rfl closed trivial o member).1

theorem scanOptionsInside {depth : Int} {current s : GoString} :
    ∀ o ∈ scanOptions depth current s, o <:+: current ++ s := by
  induction s generalizing depth current with
  | nil =>
    intro o member
    cases List.mem_singleton.mp member
    simp
  | cons b rest ih =>
    intro o member
    simp only [scanOptions] at member
    have shifted : current ++ b::rest = current ++ [b] ++ rest := by simp
    split at member
    · rw [shifted]; exact ih o member
    split at member
    · rw [shifted]; exact ih o member
    split at member
    · rcases List.mem_cons.mp member with rfl | later
      · exact (List.prefix_append o _).isInfix
      · have inside := ih o later
        rw [List.nil_append] at inside
        rw [shifted]
        exact inside.trans (List.suffix_append _ rest).isInfix
    · rw [shifted]; exact ih o member

theorem optionInside {inner o : GoString} (member : o ∈ splitOptions inner) : o <:+: inner := by
  have inside : ∀ o ∈ scanOptions 0 [] inner, o <:+: [] ++ inner := scanOptionsInside
  exact inside o member

def FirstClose (u : GoString) : Prop := closeIdx (u ++ [closeBrace,closeBrace]) = some u.length

theorem closeIdxSplit {s : GoString} {i : Nat} (here : closeIdx s = some i) :
    ∃ u post, s = u ++ closeBrace::closeBrace::post ∧ u.length = i ∧ FirstClose u := by
  induction s generalizing i with
  | nil => cases here
  | cons b rest ih =>
    simp only [closeIdx] at here
    split at here
    · next pair =>
      cases here
      cases rest with
      | nil => cases pair.2
      | cons c post =>
        obtain ⟨rfl,second⟩ := pair
        cases Option.some.inj second
        exact ⟨[],post,rfl,rfl,by simp [FirstClose,closeIdx]⟩
    · next other =>
      obtain ⟨k,inner,rfl⟩ := Option.map_eq_some_iff.mp here
      obtain ⟨u,post,rfl,rfl,first⟩ := ih inner
      refine ⟨b::u,post,rfl,rfl,?_⟩
      have same : (u ++ closeBrace::closeBrace::post).head? = (u ++ [closeBrace,closeBrace]).head? := by cases u <;> rfl
      rw [same] at other
      simp only [FirstClose,List.cons_append,closeIdx,if_neg other] at first ⊢
      rw [first]
      rfl

theorem firstCloseTail {b : UInt8} {rest : GoString} (first : FirstClose (b::rest)) : FirstClose rest := by
  simp only [FirstClose,List.cons_append,closeIdx] at first ⊢
  split at first
  · cases first
  · obtain ⟨k,inner,size⟩ := Option.map_eq_some_iff.mp first
    rw [inner]
    simpa using size

theorem closeIdxAppend {u : GoString} (first : FirstClose u) (post : GoString) :
    closeIdx (u ++ closeBrace::closeBrace::post) = some u.length := by
  induction u with
  | nil => simp [closeIdx]
  | cons b rest ih =>
    have tail := ih (firstCloseTail first)
    have same : (rest ++ closeBrace::closeBrace::post).head? = (rest ++ [closeBrace,closeBrace]).head? := by
      cases rest <;> rfl
    simp only [FirstClose,List.cons_append,closeIdx] at first ⊢
    rw [← same] at first
    split at first
    · cases first
    · next other =>
      rw [if_neg other,tail]
      rfl

theorem closeIdxNone {s : GoString} : closeIdx s = none ↔ ¬ [closeBrace,closeBrace] <:+: s := by
  constructor
  · intro absent inside
    obtain ⟨pre,post,rfl⟩ := inside
    induction pre with
    | nil => simp [closeIdx] at absent
    | cons b rest ih =>
      simp only [List.cons_append,closeIdx] at absent
      split at absent
      · cases absent
      · exact ih (Option.map_eq_none_iff.mp absent)
  · intro absent
    cases here : closeIdx s with
    | none => rfl
    | some i =>
      obtain ⟨u,post,rfl,_⟩ := closeIdxSplit here
      exact absurd ⟨u,post,by simp⟩ absent

theorem variableSplit {s : GoString} {n : Nat} (here : variableLength s = some n) :
    ∃ u post, s = placeholder u ++ post ∧ n = (placeholder u).length ∧ FirstClose u := by
  simp only [variableLength] at here
  split at here <;> try contradiction
  next opens =>
    obtain ⟨i,close,rfl⟩ := Option.map_eq_some_iff.mp here
    obtain ⟨u,post,split_,rfl,first⟩ := closeIdxSplit close
    cases s with
    | nil => cases opens.1
    | cons a rest =>
      cases rest with
      | nil => cases opens.2
      | cons b rest =>
        cases Option.some.inj opens.1
        cases Option.some.inj opens.2
        have tail : rest = u ++ closeBrace::closeBrace::post := split_
        exact ⟨u,post,by simp [placeholder,tail],by simp [placeholder],first⟩

theorem variableFound {u : GoString} (first : FirstClose u) (post : GoString) :
    variableLength (placeholder u ++ post) = some (placeholder u).length := by
  have close := closeIdxAppend first post
  simp [variableLength,placeholder,close]

theorem readsByte {b : UInt8} (plain : b ≠ openBrace) (fuel : Nat) (rest : GoString) :
    reads (fuel+1) (b::rest) = .leaf [b] (reads fuel rest) := by
  simp [reads,variableLength,plain]

theorem readsVariable {u : GoString} (first : FirstClose u) (fuel : Nat) (post : GoString) :
    reads (fuel+1) (placeholder u ++ post) = .leaf (placeholder u) (reads fuel post) := by
  have found := variableFound first post
  cases split_ : placeholder u ++ post with
  | nil => simp [placeholder] at split_
  | cons b rest =>
    rw [split_] at found
    simp only [reads,found]
    rw [← split_,List.take_left,List.drop_left]

theorem readsGroup {inner post : GoString} (closed : walk 0 inner = some 0)
    (unread : variableLength (openBrace::(inner ++ closeBrace::post)) = none) (fuel : Nat) :
    reads (fuel+1) (openBrace::(inner ++ closeBrace::post)) =
      .group (gather (reads fuel) (splitOptions inner)) (reads fuel post) := by
  have matched : findMatchingBrace (openBrace::(inner ++ closeBrace::post)) 0 = some (1 + inner.length) := by
    rw [findMatchingOpen]
    exact scanBraceClosed (d := 0) closed 1 post
  have inside : (openBrace::(inner ++ closeBrace::post)).take (1 + inner.length) = openBrace::inner := by
    rw [Nat.add_comm]
    simp
  have after : (openBrace::(inner ++ closeBrace::post)).drop (1 + inner.length + 1) = post := by
    rw [show 1 + inner.length + 1 = inner.length + 1 + 1 by omega]
    simp
  simp only [reads,unread,if_pos,matched,inside,after]
  rfl

theorem readsRaw {b : UInt8} {rest : GoString} (unread : variableLength (b::rest) = none)
    (unmatched : b = openBrace → findMatchingBrace (b::rest) 0 = none) (fuel : Nat) :
    reads (fuel+1) (b::rest) = .leaf [b] (reads fuel rest) := by
  have alone : (if b = openBrace then findMatchingBrace (b::rest) 0 else none) = none := by
    split
    · next opens => exact unmatched opens
    · rfl
  simp only [reads,unread,alone]

/- What the reading of a text comes out as, with each variable and each other byte put through a function. -/
inductive Comes (f : GoString → GoString) : GoString → GoString → Prop where
  | nil : Comes f [] []
  | var (u post y : GoString) (first : FirstClose u) (tail : Comes f post y) :
      Comes f (placeholder u ++ post) (f (placeholder u) ++ y)
  | group (inner post o x y : GoString) (closed : walk 0 inner = some 0)
      (unread : variableLength (openBrace::(inner ++ closeBrace::post)) = none) (member : o ∈ splitOptions inner)
      (inside : Comes f o x) (tail : Comes f post y) : Comes f (openBrace::(inner ++ closeBrace::post)) (x ++ y)
  | byte (b : UInt8) (rest y : GoString) (unread : variableLength (b::rest) = none)
      (unmatched : b = openBrace → findMatchingBrace (b::rest) 0 = none) (tail : Comes f rest y) :
      Comes f (b::rest) (f [b] ++ y)

section Comes
variable {f : GoString → GoString} {text y : GoString} {fuel : Nat}

theorem yieldsComes (enough : text.length ≤ fuel) (yields : Yields f (reads fuel text) y) : Comes f text y := by
  induction fuel generalizing text y with
  | zero =>
    cases List.length_eq_zero_iff.mp (Nat.le_zero.mp enough)
    cases yields
    exact .nil
  | succ fuel ih =>
    cases text with
    | nil => cases yields; exact .nil
    | cons b rest =>
      cases found : variableLength (b::rest) with
      | some n =>
        obtain ⟨u,post,split_,_,first⟩ := variableSplit found
        rw [split_] at yields enough ⊢
        rw [readsVariable first] at yields
        obtain ⟨z,tail,rfl⟩ := yields
        simp only [placeholder,List.length_append,List.length_cons] at enough
        exact .var u post z first (ih (by omega) tail)
      | none =>
        cases matched : if b = openBrace then findMatchingBrace (b::rest) 0 else none with
        | none =>
          have unmatched : b = openBrace → findMatchingBrace (b::rest) 0 = none :=
            fun opens => by rwa [if_pos opens] at matched
          rw [readsRaw found unmatched] at yields
          obtain ⟨z,tail,rfl⟩ := yields
          exact .byte b rest z found unmatched (ih (Nat.le_of_succ_le_succ enough) tail)
        | some e =>
          split at matched <;> try contradiction
          next opens =>
            subst opens
            rw [findMatchingOpen] at matched
            obtain ⟨inner,post,rfl,closed,_⟩ := scanBraceSplit (d := 0) matched
            rw [readsGroup closed found] at yields
            obtain ⟨x,z,offers,tail,rfl⟩ := yields
            obtain ⟨o,member,inside⟩ := (offersGather (splitOptionsSome inner) x).mp offers
            have short := (optionInside member).length_le
            simp only [List.length_cons,List.length_append] at enough
            exact .group inner post o x z closed found member (ih (by omega) inside) (ih (by omega) tail)

theorem comesYields (comes : Comes f text y) (enough : text.length ≤ fuel) : Yields f (reads fuel text) y := by
  induction comes generalizing fuel with
  | nil => cases fuel <;> rfl
  | var u post y first tail ih =>
    simp only [placeholder,List.length_append,List.length_cons] at enough
    obtain ⟨fuel,rfl⟩ : ∃ k, fuel = k+1 := ⟨fuel-1,by omega⟩
    rw [readsVariable first]
    exact ⟨y,ih (by omega),rfl⟩
  | group inner post o x y closed unread member inside tail here later =>
    have short := (optionInside member).length_le
    simp only [List.length_cons,List.length_append] at enough
    obtain ⟨fuel,rfl⟩ : ∃ k, fuel = k+1 := ⟨fuel-1,by omega⟩
    rw [readsGroup closed unread]
    exact ⟨x,y,(offersGather (splitOptionsSome inner) x).mpr ⟨o,member,here (by omega)⟩,later (by omega),rfl⟩
  | byte b rest y unread unmatched tail ih =>
    obtain ⟨fuel,rfl⟩ : ∃ k, fuel = k+1 := ⟨fuel-1,by simp only [List.length_cons] at enough; omega⟩
    rw [readsRaw unread unmatched]
    exact ⟨y,ih (Nat.le_of_succ_le_succ enough),rfl⟩

theorem comesIff : Yields f (reading text) y ↔ Comes f text y :=
  ⟨yieldsComes (Nat.le_refl _),fun comes => comesYields comes (Nat.le_refl _)⟩

end Comes
end WppGateway.SpintaxReading
