import WppGateway.SpintaxReading

/-! Templates of literals, variables and groups, and what ProcessSpintax makes of their printed form. -/
namespace WppGateway.Templates
open GoJson Spintax MessageText Alternatives SpintaxReading

def plainByte (b : UInt8) : Bool := b != openBrace && b != closeBrace && b != bar

abbrev Plain := {s : GoString // s.all plainByte = true}

inductive Leaf where
  | literal (s : Plain)
  | var (name : Plain)

abbrev Template := Variants Leaf

def printLeaf : Leaf → GoString
  | .literal s => s.val
  | .var name => placeholder name.val

mutual

def print : Template → GoString
  | .done => []
  | .leaf a rest => printLeaf a ++ print rest
  | .group options rest => openBrace::(printOptions options ++ closeBrace::print rest)

def printOptions : Options Leaf → GoString
  | .last t => print t
  | .more t rest => print t ++ bar::printOptions rest

end

structure Expanded (t : Template) : Prop where
  sound : ∀ choices, Yields printLeaf t (processSpintax (print t) choices)
  complete : ∀ y, Yields printLeaf t y → ∃ choices, processSpintax (print t) choices = y

def asVariable : GoString → Option Plain
  | [] => none
  | b::rest => if named : b = openBrace ∧ rest = rest.dropLast ++ [closeBrace] ∧ rest.dropLast.all plainByte = true then
      some ⟨rest.dropLast,named.2.2⟩ else none

mutual

/- A group that prints as a variable is read as one. -/
def canon : Template → Template
  | .done => .done
  | .leaf a rest => .leaf a (canon rest)
  | .group options rest => match asVariable (printOptions options) with
    | some name => .leaf (.var name) (canon rest)
    | none => .group (canonOptions options) (canon rest)

def canonOptions : Options Leaf → Options Leaf
  | .last t => .last (canon t)
  | .more t rest => .more (canon t) (canonOptions rest)

end

mutual

/- No group begins like a template variable that the text up to the end of its own option, or of the template, closes. -/
def Clear : Template → Prop
  | .done => True
  | .leaf _ rest => Clear rest
  | .group options rest => variableLength (print (.group options rest)) = none ∧ ClearOptions options ∧ Clear rest

def ClearOptions : Options Leaf → Prop
  | .last t => Clear t
  | .more t rest => Clear t ∧ ClearOptions rest

end

mutual

def Canonical : Template → Prop
  | .done => True
  | .leaf _ rest => Canonical rest
  | .group options rest => asVariable (printOptions options) = none ∧ CanonicalOptions options ∧ Canonical rest

def CanonicalOptions : Options Leaf → Prop
  | .last t => Canonical t
  | .more t rest => Canonical t ∧ CanonicalOptions rest

end

theorem asVariableIff {inner : GoString} {name : Plain} :
    asVariable inner = some name ↔ inner = openBrace::(name.val ++ [closeBrace]) := by
  cases inner with
  | nil => simp [asVariable]
  | cons b rest =>
    simp only [asVariable]
    constructor
    · intro found
      split at found <;> cases found
      next named => exact congrArg₂ List.cons named.1 named.2.1
    · intro same
      obtain ⟨rfl,rfl⟩ := List.cons.inj same
      have cut : (name.val ++ [closeBrace]).dropLast = name.val := List.dropLast_concat
      rw [dif_pos ⟨rfl,by rw [cut],by rw [cut]; exact name.property⟩]
      exact congrArg some (Subtype.ext cut)

mutual

theorem printCanon (t : Template) : print (canon t) = print t := by
  cases t with
  | done => rfl
  | leaf a rest => simp only [canon,print,printCanon rest]
  | group options rest =>
    simp only [canon]
    split
    · next name named =>
      simp [print,printLeaf,placeholder,asVariableIff.mp named,printCanon rest]
    · simp only [print,printCanonOptions options,printCanon rest]

theorem printCanonOptions (options : Options Leaf) : printOptions (canonOptions options) = printOptions options := by
  cases options with
  | last t => exact printCanon t
  | more t rest => simp only [canonOptions,printOptions,printCanon t,printCanonOptions rest]

end

mutual

theorem canonCanonical (t : Template) : Canonical (canon t) := by
  cases t with
  | done => trivial
  | leaf a rest => exact canonCanonical rest
  | group options rest =>
    simp only [canon]
    split
    · exact canonCanonical rest
    · next unnamed => exact ⟨by rw [printCanonOptions]; exact unnamed,canonOptionsCanonical options,canonCanonical rest⟩

theorem canonOptionsCanonical (options : Options Leaf) : CanonicalOptions (canonOptions options) := by
  cases options with
  | last t => exact canonCanonical t
  | more t rest => exact ⟨canonCanonical t,canonOptionsCanonical rest⟩

end

theorem plainByteIff {b : UInt8} : plainByte b = true ↔ b ≠ openBrace ∧ b ≠ closeBrace ∧ b ≠ bar := by
  simp [plainByte,and_assoc]

theorem walkPlain {s : GoString} (plain : s.all plainByte = true) (d : Nat) : walk d s = some d := by
  induction s with
  | nil => rfl
  | cons b rest ih =>
    simp only [List.all_cons,Bool.and_eq_true,plainByteIff] at plain
    rw [walkOther plain.1.1 plain.1.2.1]
    exact ih plain.2

theorem walkLeaf (a : Leaf) (d : Nat) : walk d (printLeaf a) = some d := by
  cases a with
  | literal s => exact walkPlain s.property d
  | var name =>
    simp only [printLeaf,placeholder,List.cons_append,List.nil_append,walkOpen]
    rw [walkAppend,walkPlain name.property]
    rfl

mutual

theorem walkPrint (t : Template) (d : Nat) : walk d (print t) = some d := by
  cases t with
  | done => rfl
  | leaf a rest => rw [print,walkAppend,walkLeaf]; exact walkPrint rest d
  | group options rest =>
    rw [print,walkOpen,walkAppend,walkPrintOptions options (d+1)]
    exact walkPrint rest d

theorem walkPrintOptions (options : Options Leaf) (d : Nat) : walk d (printOptions options) = some d := by
  cases options with
  | last t => exact walkPrint t d
  | more t rest =>
    rw [printOptions,walkAppend,walkPrint t d,Option.bind_some,walkOther (by decide) (by decide)]
    exact walkPrintOptions rest d

end

def prints : Options Leaf → List GoString
  | .last t => [print t]
  | .more t rest => print t::prints rest

theorem scanOptionsPlain {s : GoString} (plain : s.all plainByte = true) (depth : Int) (current post : GoString) :
    scanOptions depth current (s ++ post) = scanOptions depth (current ++ s) post := by
  induction s generalizing current with
  | nil => simp
  | cons b rest ih =>
    simp only [List.all_cons,Bool.and_eq_true,plainByteIff] at plain
    obtain ⟨⟨noOpen,noClose,noBar⟩,tail⟩ := plain
    have step := ih tail (current ++ [b])
    simp only [List.cons_append,scanOptions,noOpen,noClose,noBar,false_and,if_false]
    rw [step,List.append_assoc]
    rfl

theorem scanOptionsOpen (depth : Int) (current post : GoString) :
    scanOptions depth current (openBrace::post) = scanOptions (depth+1) (current ++ [openBrace]) post := by
  simp [scanOptions]

theorem scanOptionsClose (depth : Int) (current post : GoString) :
    scanOptions depth current (closeBrace::post) = scanOptions (depth-1) (current ++ [closeBrace]) post := by
  simp [scanOptions,openBrace,closeBrace]

theorem scanOptionsLeaf (a : Leaf) (depth : Int) (current post : GoString) :
    scanOptions depth current (printLeaf a ++ post) = scanOptions depth (current ++ printLeaf a) post := by
  cases a with
  | literal s => exact scanOptionsPlain s.property depth current post
  | var name =>
    simp only [printLeaf,placeholder,List.append_assoc,List.cons_append,List.nil_append,scanOptionsOpen]
    rw [scanOptionsPlain name.property,scanOptionsClose,scanOptionsClose]
    have level : depth + 1 + 1 - 1 - 1 = depth := by omega
    rw [level]
    simp

mutual

theorem scanOptionsPrint (t : Template) (depth : Nat) (current post : GoString) :
    scanOptions depth current (print t ++ post) = scanOptions depth (current ++ print t) post := by
  cases t with
  | done => simp [print]
  | leaf a rest =>
    rw [print,List.append_assoc,scanOptionsLeaf,scanOptionsPrint rest,List.append_assoc]
  | group options rest =>
    have deeper : ((depth : Int) + 1) = ((depth+1 : Nat) : Int) := by omega
    simp only [print,List.cons_append,List.append_assoc,scanOptionsOpen]
    rw [deeper,scanOptionsInner options,scanOptionsClose,show (((depth+1 : Nat) : Int) - 1) = (depth : Int) by omega,
      scanOptionsPrint rest]
    simp

theorem scanOptionsInner (options : Options Leaf) (depth : Nat) (current post : GoString) :
    scanOptions ((depth+1 : Nat) : Int) current (printOptions options ++ post) =
      scanOptions ((depth+1 : Nat) : Int) (current ++ printOptions options) post := by
  cases options with
  | last t => exact scanOptionsPrint t (depth+1) current post
  | more t rest =>
    have deep : ¬ (((depth+1 : Nat) : Int) = 0) := by omega
    rw [printOptions,List.append_assoc,List.cons_append,scanOptionsPrint t (depth+1)]
    simp only [scanOptions,deep,and_false,if_false,show bar ≠ openBrace by decide,show bar ≠ closeBrace by decide]
    rw [scanOptionsInner rest]
    simp

end

theorem scanOptionsPrints (options : Options Leaf) : scanOptions 0 [] (printOptions options) = prints options := by
  cases options with
  | last t =>
    have whole := scanOptionsPrint t 0 [] []
    rw [List.append_nil] at whole
    exact whole
  | more t rest =>
    rw [printOptions]
    refine (scanOptionsPrint t 0 [] _).trans ?_
    simp only [List.nil_append,scanOptions,show bar ≠ openBrace by decide,show bar ≠ closeBrace by decide,if_false]
    exact congrArg _ (scanOptionsPrints rest)

theorem splitPrinted (options : Options Leaf) : splitOptions (printOptions options) = prints options :=
  scanOptionsPrints options

def leaves : Leaf → List GoString
  | .literal s => s.val.map (fun b => [b])
  | .var name => [placeholder name.val]

theorem leavesFlat (a : Leaf) : (leaves a).flatMap (fun s => s) = printLeaf a := by
  cases a with
  | literal s => simp [leaves,printLeaf,List.flatMap_map]
  | var name => simp [leaves,printLeaf]

theorem firstClosePlain {u : GoString} (plain : u.all plainByte = true) : FirstClose u := by
  induction u with
  | nil => simp [FirstClose,closeIdx]
  | cons b rest ih =>
    simp only [List.all_cons,Bool.and_eq_true,plainByteIff] at plain
    have tail := ih plain.2
    rw [FirstClose] at tail ⊢
    simp [closeIdx,plain.1.2.1,tail]

theorem readsPlain {s : GoString} (plain : s.all plainByte = true) (post : GoString) {fuel : Nat}
    (enough : (s ++ post).length ≤ fuel) :
    reads fuel (s ++ post) = (s.map (fun b => [b])).foldr Variants.leaf (reads (fuel - s.length) post) := by
  induction s generalizing fuel with
  | nil => rfl
  | cons b rest ih =>
    simp only [List.all_cons,Bool.and_eq_true,plainByteIff] at plain
    simp only [List.cons_append,List.length_cons] at enough ⊢
    obtain ⟨fuel,rfl⟩ : ∃ k, fuel = k+1 := ⟨fuel-1,by omega⟩
    rw [readsByte plain.1.1,ih plain.2 (by omega),Nat.add_sub_add_right]
    rfl

theorem readsLeaf (a : Leaf) (post : GoString) {fuel : Nat} (enough : (printLeaf a ++ post).length ≤ fuel) :
    ∃ k, post.length ≤ k ∧ reads fuel (printLeaf a ++ post) = (leaves a).foldr Variants.leaf (reads k post) := by
  cases a with
  | literal s =>
    refine ⟨fuel - s.val.length,?_,readsPlain s.property post enough⟩
    simp only [printLeaf,List.length_append] at enough
    omega
  | var name =>
    have size : 0 < (placeholder name.val).length := by simp [placeholder]
    simp only [printLeaf,List.length_append] at enough
    obtain ⟨fuel,rfl⟩ : ∃ k, fuel = k+1 := ⟨fuel-1,by omega⟩
    exact ⟨fuel,by omega,readsVariable (firstClosePlain name.property) fuel post⟩

mutual

theorem readsPrint (t : Template) (clear : Clear t) (fuel : Nat) (enough : (print t).length ≤ fuel) :
    reads fuel (print t) = spread leaves t := by
  cases t with
  | done => cases fuel <;> rfl
  | leaf a rest =>
    obtain ⟨k,left,row⟩ := readsLeaf a (print rest) enough
    rw [print,row,spread,readsPrint rest clear k left]
  | group options rest =>
    obtain ⟨unread,inner,tail⟩ := clear
    simp only [print,List.length_cons,List.length_append] at enough
    obtain ⟨fuel,rfl⟩ : ∃ k, fuel = k+1 := ⟨fuel-1,by omega⟩
    rw [print] at unread ⊢
    rw [readsGroup (walkPrintOptions options 0) unread,splitPrinted,spread,
      readsPrints options inner fuel (by omega),readsPrint rest tail fuel (by omega)]

theorem readsPrints (options : Options Leaf) (clear : ClearOptions options) (fuel : Nat)
    (enough : (printOptions options).length ≤ fuel) : gather (reads fuel) (prints options) = spreadOptions leaves options := by
  cases options with
  | last t => exact congrArg Options.last (readsPrint t clear fuel enough)
  | more t rest =>
    simp only [printOptions,List.length_append,List.length_cons] at enough
    have tail := readsPrints rest clear.2 fuel (by omega)
    rw [spreadOptions,← tail,← readsPrint t clear.1 fuel (by omega)]
    cases rest <;> rfl

end

theorem clearReturns {t : Template} (clear : Clear t) (y : GoString) : Returns (print t) y ↔ Yields printLeaf t y := by
  rw [Returns,reading,readsPrint t clear _ (Nat.le_refl _),yieldsSpread]
  simp only [leavesFlat]

def Bad (y : GoString) : Prop := ∃ u, FirstClose u ∧ u.all plainByte = false ∧ placeholder u <:+: y

theorem badInside {y z : GoString} (bad : Bad y) (inside : y <:+: z) : Bad z := by
  obtain ⟨u,first,odd,here⟩ := bad
  exact ⟨u,first,odd,here.trans inside⟩

inductive Tame : GoString → Prop where
  | nil : Tame []
  | byte (b : UInt8) (rest : GoString) (plain : plainByte b = true) (tail : Tame rest) : Tame (b::rest)
  | var (name rest : GoString) (plain : name.all plainByte = true) (tail : Tame rest) : Tame (placeholder name ++ rest)

theorem tameAppend {s t : GoString} (first : Tame s) (later : Tame t) : Tame (s ++ t) := by
  induction first with
  | nil => exact later
  | byte b rest plain _ ih => exact .byte b _ plain ih
  | var name rest plain _ ih =>
    rw [List.append_assoc]
    exact .var name _ plain ih

theorem tamePlain {s : GoString} (plain : s.all plainByte = true) : Tame s := by
  induction s with
  | nil => exact .nil
  | cons b rest ih =>
    simp only [List.all_cons,Bool.and_eq_true] at plain
    exact .byte b rest plain.1 (ih plain.2)

theorem tameLeaf (a : Leaf) : Tame (printLeaf a) := by
  cases a with
  | literal s => exact tamePlain s.property
  | var name =>
    have alone := Tame.var name.val [] name.property .nil
    rwa [List.append_nil] at alone

mutual

theorem yieldsTame (t : Template) {y : GoString} (yields : Yields printLeaf t y) : Tame y := by
  cases t with
  | done => cases yields; exact .nil
  | leaf a rest =>
    obtain ⟨z,tail,rfl⟩ := yields
    exact tameAppend (tameLeaf a) (yieldsTame rest tail)
  | group options rest =>
    obtain ⟨x,z,offers,tail,rfl⟩ := yields
    exact tameAppend (offersTame options offers) (yieldsTame rest tail)

theorem offersTame (options : Options Leaf) {y : GoString} (offers : Offers printLeaf options y) : Tame y := by
  cases options with
  | last t => exact yieldsTame t offers
  | more t rest =>
    rcases offers with here | there
    · exact yieldsTame t here
    · exact offersTame rest there

end

theorem openLater {s later tail : GoString} (free : ∀ b ∈ s, b ≠ openBrace) (here : openBrace::tail <:+ s ++ later) :
    openBrace::tail <:+ later := by
  induction s with
  | nil => exact here
  | cons b rest ih =>
    simp only [List.forall_mem_cons] at free
    rcases List.suffix_cons_iff.mp here with same | after
    · exact absurd (List.cons.inj same).1.symm free.1
    · exact ih free.2 after

theorem tameOpens {y : GoString} (tame : Tame y) (tail : GoString) (here : openBrace::openBrace::tail <:+ y) :
    ∃ name rest, name.all plainByte = true ∧ tail = name ++ closeBrace::closeBrace::rest := by
  induction tame with
  | nil => exact absurd (List.suffix_nil.mp here) (List.cons_ne_nil _ _)
  | byte b rest plain _ ih =>
    rcases List.suffix_cons_iff.mp here with same | after
    · exact absurd (List.cons.inj same).1.symm (plainByteIff.mp plain).1
    · exact ih after
  | var name rest plain _ ih =>
    have shape : placeholder name ++ rest = openBrace::openBrace::(name ++ closeBrace::closeBrace::rest) := by
      simp [placeholder]
    rw [shape] at here
    have closes : ∀ b ∈ name ++ [closeBrace,closeBrace], b ≠ openBrace := by
      intro b member
      rcases List.mem_append.mp member with inside | after
      · exact (plainByteIff.mp (List.all_eq_true.mp plain b inside)).1
      · rcases List.mem_pair.mp after with rfl | rfl <;> decide
    have split_ : name ++ closeBrace::closeBrace::rest = (name ++ [closeBrace,closeBrace]) ++ rest := by simp
    rcases List.suffix_cons_iff.mp here with same | after
    · exact ⟨name,rest,plain,(List.cons.inj (List.cons.inj same).2).2⟩
    · rw [split_] at after
      rcases List.suffix_cons_iff.mp after with same | after
      · -- the name, or what closes it, would begin with an opening brace
        cases inner : name ++ [closeBrace,closeBrace] with
        | nil => simp at inner
        | cons b more =>
          rw [inner] at same closes
          exact absurd (List.cons.inj (List.cons.inj same).2).1.symm (closes b List.mem_cons_self)
      · exact ih (openLater closes after)

theorem tameNotBad {y : GoString} (tame : Tame y) : ¬ Bad y := by
  intro bad
  obtain ⟨u,first,odd,pre,post,rfl⟩ := bad
  have opens : openBrace::openBrace::(u ++ closeBrace::closeBrace::post) <:+ pre ++ placeholder u ++ post :=
    ⟨pre,by simp [placeholder]⟩
  obtain ⟨name,rest,plain,same⟩ := tameOpens tame _ opens
  have sizes := closeIdxAppend first post
  rw [same,closeIdxAppend (firstClosePlain plain)] at sizes
  have equal := (List.append_inj same (Option.some.inj sizes).symm).1
  rw [equal,plain] at odd
  cases odd

theorem closedPrefix {first second post after : GoString} (closed : walk 0 first = some 0) (closes : walk 0 second = some 0)
    (same : first ++ closeBrace::post = second ++ closeBrace::after) : first = second := by
  have one := scanBraceClosed (d := 0) closed 0 post
  rw [same,scanBraceClosed (d := 0) closes 0 after] at one
  have sizes := Option.some.inj one
  exact (List.append_inj same (by omega)).1

theorem oddName {options : Options Leaf} {rest : Template} {u post : GoString} (unnamed : asVariable (printOptions options) = none)
    (split_ : print (.group options rest) = placeholder u ++ post) : u.all plainByte = false := by
  refine Bool.eq_false_iff.mpr (fun plain => ?_)
  have tail : printOptions options ++ closeBrace::print rest = (openBrace::(u ++ [closeBrace])) ++ closeBrace::post := by
    have shape : placeholder u ++ post = openBrace::((openBrace::(u ++ [closeBrace])) ++ closeBrace::post) := by
      simp [placeholder]
    rw [print,shape] at split_
    exact (List.cons.inj split_).2
  have inner : walk 0 (openBrace::(u ++ [closeBrace])) = some 0 := by
    rw [walkOpen,walkAppend,walkPlain plain]
    rfl
  have same := closedPrefix (walkPrintOptions options 0) inner tail
  have named : asVariable (printOptions options) = some ⟨u,plain⟩ := asVariableIff.mpr same
  rw [named] at unnamed
  cases unnamed

mutual

theorem misread (t : Template) (canonical : Canonical t) (misleads : ¬ Clear t) (fuel : Nat)
    (enough : (print t).length ≤ fuel) : ∃ y, Yields (fun s => s) (reads fuel (print t)) y ∧ Bad y := by
  cases t with
  | done => exact absurd trivial misleads
  | leaf a rest =>
    obtain ⟨k,left,row⟩ := readsLeaf a (print rest) enough
    obtain ⟨z,tail,bad⟩ := misread rest canonical misleads k left
    rw [print,row]
    exact ⟨_,(yieldsRow _ _ _).mpr ⟨z,tail,rfl⟩,badInside bad (List.suffix_append _ z).isInfix⟩
  | group options rest =>
    obtain ⟨unnamed,inner,later⟩ := canonical
    have size := enough
    simp only [print,List.length_cons,List.length_append] at size
    obtain ⟨fuel,rfl⟩ : ∃ k, fuel = k+1 := ⟨fuel-1,by omega⟩
    cases found : variableLength (print (.group options rest)) with
    | some n =>
      obtain ⟨u,post,split_,_,first⟩ := variableSplit found
      obtain ⟨z,tail⟩ := yieldsSome (fun s : GoString => s) (reads fuel post)
      have odd := oddName unnamed split_
      rw [split_,readsVariable first]
      exact ⟨_,⟨z,tail,rfl⟩,u,first,odd,(List.prefix_append _ z).isInfix⟩
    | none =>
      have unread := found
      rw [print] at unread ⊢
      rw [readsGroup (walkPrintOptions options 0) unread,splitPrinted]
      have some_ : prints options ≠ [] := by cases options <;> exact List.cons_ne_nil _ _
      by_cases clear : ClearOptions options
      · obtain ⟨z,tail,bad⟩ := misread rest later (fun tail => misleads ⟨found,clear,tail⟩) fuel (by omega)
        obtain ⟨x,offers⟩ := offersSome (fun s : GoString => s) (gather (reads fuel) (prints options))
        exact ⟨_,⟨x,z,offers,tail,rfl⟩,badInside bad (List.suffix_append x z).isInfix⟩
      · obtain ⟨o,member,x,here,bad⟩ := misreads options inner clear fuel (by omega)
        obtain ⟨z,tail⟩ := yieldsSome (fun s : GoString => s) (reads fuel (print rest))
        have offers := (offersGather some_ x).mpr ⟨o,member,here⟩
        exact ⟨_,⟨x,z,offers,tail,rfl⟩,badInside bad (List.prefix_append x z).isInfix⟩

theorem misreads (options : Options Leaf) (canonical : CanonicalOptions options) (misleads : ¬ ClearOptions options)
    (fuel : Nat) (enough : (printOptions options).length ≤ fuel) :
    ∃ o ∈ prints options, ∃ y, Yields (fun s => s) (reads fuel o) y ∧ Bad y := by
  cases options with
  | last t => exact ⟨_,List.mem_cons_self,misread t canonical misleads fuel enough⟩
  | more t rest =>
    simp only [printOptions,List.length_append,List.length_cons] at enough
    by_cases clear : Clear t
    · obtain ⟨o,member,there⟩ := misreads rest canonical.2 (fun later => misleads ⟨clear,later⟩) fuel (by omega)
      exact ⟨o,List.mem_cons_of_mem _ member,there⟩
    · exact ⟨_,List.mem_cons_self,misread t canonical.1 clear fuel (by omega)⟩

end

/-- The printed form expands to the template's expansions, all of them and nothing else, exactly where no group begins like
a variable that is closed later on, and taking the groups printed as variables for variables changes no expansion. -/
theorem expandedExact (t : Template) :
    Expanded t ↔ Clear (canon t) ∧ ∀ y, Yields printLeaf (canon t) y ↔ Yields printLeaf t y := by
  constructor
  · intro expanded
    have returns : ∀ y, Returns (print t) y ↔ Yields printLeaf t y := by
      intro y
      rw [returnsIff]
      constructor
      · intro there
        obtain ⟨choices,rfl⟩ := there
        exact expanded.sound choices
      · exact expanded.complete y
    have clear : Clear (canon t) := by
      by_contra misleads
      obtain ⟨y,yields,bad⟩ := misread (canon t) (canonCanonical t) misleads _ (Nat.le_refl _)
      rw [printCanon] at yields
      exact tameNotBad (yieldsTame t ((returns y).mp yields)) bad
    refine ⟨clear,fun y => ?_⟩
    rw [← clearReturns clear,printCanon]
    exact returns y
  · intro there
    obtain ⟨clear,same⟩ := there
    have returns : ∀ y, Returns (print t) y ↔ Yields printLeaf t y := by
      intro y
      rw [← same,← clearReturns clear,printCanon]
    refine ⟨fun choices => (returns _).mp (returnsIff.mpr ⟨choices,rfl⟩),fun y yields => ?_⟩
    exact returnsIff.mp ((returns y).mpr yields)

def variableFirst : Template :=
  .group (.more (.leaf (.var ⟨text "a",by decide⟩) .done) (.last (.leaf (.literal ⟨text "y",by decide⟩) .done))) .done

theorem firstOptionRead : ¬ Expanded variableFirst ∧ ∀ choices,
    processSpintax (print variableFirst) choices = print variableFirst := by
  have whole : ∀ choices, processSpintax (print variableFirst) choices = print variableFirst := fun _ => rfl
  refine ⟨fun expanded => ?_,whole⟩
  have sound := expanded.sound []
  rw [whole] at sound
  obtain ⟨x,z,offers,rfl,same⟩ := sound
  rw [List.append_nil] at same
  subst same
  rcases offers with here | there
  · obtain ⟨y,rfl,wrong⟩ := here
    exact absurd wrong (by decide)
  · obtain ⟨y,rfl,wrong⟩ := there
    exact absurd wrong (by decide)

end WppGateway.Templates
