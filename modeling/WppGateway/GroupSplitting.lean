import WppGateway.SpintaxReading

/-! The inside of a group and its options, in terms of how many braces of either kind stand before a place. -/
namespace WppGateway.GroupSplitting
open GoJson Spintax SpintaxReading

structure Balanced (s : GoString) : Prop where
  prefixes : ∀ p, p <+: s → p.count closeBrace ≤ p.count openBrace
  total : s.count openBrace = s.count closeBrace

def BarsInside (s : GoString) : Prop := ∀ p, p ++ [bar] <+: s → p.count closeBrace < p.count openBrace

theorem walkCount {d e : Nat} {s : GoString} : walk d s = some e ↔
    (∀ p, p <+: s → p.count closeBrace ≤ d + p.count openBrace) ∧
      d + s.count openBrace = e + s.count closeBrace := by
  induction s generalizing d with
  | nil =>
    rw [walkNil,Option.some.injEq]
    constructor
    · intro same
      refine ⟨fun p before => ?_,by simpa using same⟩
      rw [List.prefix_nil.mp before]
      exact Nat.zero_le _
    · exact fun both => by simpa using both.2
  | cons b rest ih =>
    have prefixes : ∀ P : GoString → Prop, (∀ p, p <+: b::rest → P p) ↔ P [] ∧ ∀ p, p <+: rest → P (b::p) := by
      intro P
      constructor
      · exact fun all => ⟨all [] List.nil_prefix,fun p before => all (b::p) (List.cons_prefix_cons.mpr ⟨rfl,before⟩)⟩
      · intro both p before
        rcases List.prefix_cons_iff.mp before with rfl | ⟨t,rfl,later⟩
        · exact both.1
        · exact both.2 t later
    rw [prefixes]
    by_cases opens : b = openBrace
    · subst opens
      rw [walkOpen,ih]
      simp only [List.count_nil,List.count_cons_self,List.count_cons_of_ne (show openBrace ≠ closeBrace by decide)]
      refine and_congr ⟨fun all => ⟨Nat.zero_le _,fun p before => ?_⟩,fun both p before => ?_⟩ (by omega)
      · have := all p before
        omega
      · have := both.2 p before
        omega
    · by_cases closes : b = closeBrace
      · subst closes
        simp only [List.count_nil,List.count_cons_self,List.count_cons_of_ne (show closeBrace ≠ openBrace by decide)]
        cases d with
        | zero =>
          rw [walkCloseZero]
          refine ⟨fun none_ => (by cases none_),fun both => ?_⟩
          have first := both.1.2 [] List.nil_prefix
          simp at first
        | succ d =>
          rw [walkClose,ih]
          refine and_congr ⟨fun all => ⟨Nat.zero_le _,fun p before => ?_⟩,fun both p before => ?_⟩ (by omega)
          · have := all p before
            omega
          · have := both.2 p before
            omega
      · rw [walkOther opens closes,ih]
        simp only [List.count_nil,List.count_cons_of_ne opens,List.count_cons_of_ne closes]
        exact and_congr_left' ⟨fun all => ⟨Nat.zero_le _,all⟩,And.right⟩

theorem balancedWalk {s : GoString} : Balanced s ↔ walk 0 s = some 0 := by
  rw [walkCount,Nat.zero_add,Nat.zero_add]
  simp only [Nat.zero_add]
  exact ⟨fun balanced => ⟨balanced.prefixes,balanced.total⟩,fun both => ⟨both.1,both.2⟩⟩

theorem intercalateCons (sep first : GoString) {rest : List GoString} (some_ : rest ≠ []) :
    sep.intercalate (first::rest) = first ++ (sep ++ sep.intercalate rest) := by
  cases rest with
  | nil => exact absurd rfl some_
  | cons second more => simp [List.intercalate]

theorem scanOptionsJoin (depth : Int) (current s : GoString) :
    [bar].intercalate (scanOptions depth current s) = current ++ s := by
  induction s generalizing depth current with
  | nil => simp [scanOptions,List.intercalate]
  | cons b rest ih =>
    have shifted : current ++ b::rest = current ++ [b] ++ rest := by simp
    simp only [scanOptions]
    split
    · rw [ih,shifted]
    split
    · rw [ih,shifted]
    split
    · next cut =>
      rw [intercalateCons _ _ (scanOptionsSome depth [] rest),ih,cut.1]
      rfl
    · rw [ih,shifted]

theorem barsAppend {s : GoString} {b : UInt8} (inside : BarsInside s)
    (here : b = bar → s.count closeBrace < s.count openBrace) : BarsInside (s ++ [b]) := by
  intro p before
  rcases List.prefix_concat_iff.mp before with same | earlier
  · obtain ⟨rfl,last⟩ := List.append_inj' same rfl
    exact here (List.cons.inj last).1.symm
  · exact inside p earlier

theorem optionBars {inner o : GoString} (closed : walk 0 inner = some 0) (member : o ∈ splitOptions inner) :
    BarsInside o := by
  have none_ : BarsInside [] := fun p before => absurd (List.prefix_nil.mp before) (by simp)
  refine (scanOptionsKeep none_ (fun b before inside deep => barsAppend inside (fun cut => ?_)) rfl closed none_ o member).2
  have counts := (walkCount.mp before).2
  have positive := deep cut
  omega

theorem insideFound {text : GoString} {pos e : Nat} (opens : text[pos]? = some openBrace)
    (found : findMatchingBrace text pos = some e) : walk 0 ((text.take e).drop (pos+1)) = some 0 := by
  obtain ⟨inside,at_⟩ := List.getElem?_eq_some_iff.mp opens
  have start : text.drop pos = openBrace::text.drop (pos+1) := by rw [List.drop_eq_getElem_cons inside,at_]
  rw [findMatchingBrace,start] at found
  have here : scanBrace ((0 : Nat) + 1 : Int) (pos+1) (text.drop (pos+1)) = some e := found
  obtain ⟨inner,post,split_,closed,rfl⟩ := scanBraceSplit here
  have same : (text.take (pos + 1 + inner.length)).drop (pos+1) = inner := by
    rw [List.drop_take,split_]
    simp
  rw [same]
  exact closed

/-- The inside of a group is balanced. Its options, of which there is one at least, are balanced as well, have no bar
outside braces, and joined by bars they are the inside again. -/
theorem splittingLossless {text : GoString} {pos e : Nat} (opens : text[pos]? = some openBrace)
    (found : findMatchingBrace text pos = some e) :
    Balanced ((text.take e).drop (pos+1)) ∧ splitOptions ((text.take e).drop (pos+1)) ≠ [] ∧
      [bar].intercalate (splitOptions ((text.take e).drop (pos+1))) = (text.take e).drop (pos+1) ∧
      ∀ o ∈ splitOptions ((text.take e).drop (pos+1)), Balanced o ∧ BarsInside o := by
  have closed := insideFound opens found
  refine ⟨balancedWalk.mpr closed,splitOptionsSome _,scanOptionsJoin 0 [] _,fun o member => ?_⟩
  exact ⟨balancedWalk.mpr (optionClosed closed member),optionBars closed member⟩

def nested : GoString :=
  text "x" ++ openBrace::text "a|" ++ openBrace::text "b|c" ++ [closeBrace,closeBrace]

theorem nestedSplit : nested[1]? = some openBrace ∧ findMatchingBrace nested 1 = some 9 ∧
    splitOptions ((nested.take 9).drop 2) = [text "a",openBrace::text "b|c" ++ [closeBrace]] ∧
    ∀ o ∈ splitOptions ((nested.take 9).drop 2), Balanced o ∧ BarsInside o := by
  have opens : nested[1]? = some openBrace := by decide +kernel
  have found : findMatchingBrace nested 1 = some 9 := by decide +kernel
  exact ⟨opens,found,by decide +kernel,(splittingLossless opens found).2.2.2⟩

end WppGateway.GroupSplitting
