import WppGateway.GoJson

/-! ProcessSpintax over bytes. The random choices are an argument; each group takes
the next one. -/
namespace WppGateway.Spintax
open GoJson

def openBrace : UInt8 := 123
def closeBrace : UInt8 := 125
def bar : UInt8 := 124

def scanBrace : Int → Nat → GoString → Option Nat
  | _,_,[] => none
  | depth,i,b::rest =>
    if b = openBrace then scanBrace (depth+1) (i+1) rest
    else if b = closeBrace then
      if depth - 1 = 0 then some i else scanBrace (depth-1) (i+1) rest
    else scanBrace depth (i+1) rest

def findMatchingBrace (text : GoString) (pos : Nat) : Option Nat := scanBrace 0 pos (text.drop pos)

def scanOptions : Int → GoString → GoString → List GoString
  | _,current,[] => [current]
  | depth,current,b::rest =>
    if b = openBrace then scanOptions (depth+1) (current ++ [b]) rest
    else if b = closeBrace then scanOptions (depth-1) (current ++ [b]) rest
    else if b = bar ∧ depth = 0 then current::scanOptions depth [] rest
    else scanOptions depth (current ++ [b]) rest

def splitOptions (inner : GoString) : List GoString := scanOptions 0 [] inner

def closeIdx : GoString → Option Nat
  | [] => none
  | b::rest => if b = closeBrace ∧ rest.head? = some closeBrace then some 0 else (closeIdx rest).map (· + 1)

def variableLength (text : GoString) : Option Nat :=
  if text.head? = some openBrace ∧ text.tail.head? = some openBrace then
    (closeIdx (text.drop 2)).map (· + 4)
  else none

def choose (options : List GoString) : List Nat → GoString × List Nat
  | [] => (options.headD [],[])
  | c::rest => (options.getD (c % options.length) [],rest)

/- One call of the source for the nested text and one turn of its loop for the rest;
`fuel` bounds the bytes still to be read. -/
def expand : Nat → GoString → List Nat → GoString × List Nat
  | _,[],choices => ([],choices)
  | 0,_::_,choices => ([],choices)
  | fuel+1,b::rest,choices =>
    match variableLength (b::rest) with
    | some n =>
      let later := expand fuel ((b::rest).drop n) choices
      ((b::rest).take n ++ later.1,later.2)
    | none =>
      match if b = openBrace then findMatchingBrace (b::rest) 0 else none with
      | some e =>
        let chosen := choose (splitOptions (((b::rest).take e).drop 1)) choices
        let inner := expand fuel chosen.1 chosen.2
        let later := expand fuel ((b::rest).drop (e+1)) inner.2
        (inner.1 ++ later.1,later.2)
      | none =>
        let later := expand fuel rest choices
        (b::later.1,later.2)

def processSpintax (text : GoString) (choices : List Nat) : GoString := (expand text.length text choices).1

theorem scanOptionsLength (depth : Int) (current text : GoString) :
    ∀ o ∈ scanOptions depth current text, o.length ≤ current.length + text.length := by
  induction text generalizing depth current with
  | nil => simp [scanOptions]
  | cons b rest ih =>
    intro o member
    simp only [scanOptions] at member
    split at member
    · have bound := ih _ _ o member
      simp only [List.length_append,List.length_cons,List.length_nil] at bound ⊢
      omega
    · split at member
      · have bound := ih _ _ o member
        simp only [List.length_append,List.length_cons,List.length_nil] at bound ⊢
        omega
      · split at member
        · rcases List.mem_cons.mp member with rfl | later
          · omega
          · have bound := ih _ _ o later
            simp only [List.length_cons,List.length_nil] at bound ⊢
            omega
        · have bound := ih _ _ o member
          simp only [List.length_append,List.length_cons,List.length_nil] at bound ⊢
          omega

theorem chooseLength (options : List GoString) (choices : List Nat) (bound : Nat)
    (short : ∀ o ∈ options, o.length ≤ bound) : (choose options choices).1.length ≤ bound := by
  cases choices with
  | nil =>
    cases options with
    | nil => exact Nat.zero_le _
    | cons o rest => exact short o (by simp)
  | cons c later =>
    simp only [choose,List.getD_eq_getElem?_getD]
    cases found : options[c % options.length]? with
    | none => exact Nat.zero_le _
    | some o => exact short o (List.mem_of_getElem? found)

theorem variablePositive {text n} (found : variableLength text = some n) : 0 < n := by
  simp only [variableLength] at found
  split at found <;> try contradiction
  obtain ⟨i,_,rfl⟩ := Option.map_eq_some_iff.mp found
  omega

theorem expandFuel {n m text choices} (enough : text.length ≤ n) (more : n ≤ m) :
    expand m text choices = expand n text choices := by
  induction n generalizing m text choices with
  | zero =>
    cases text with
    | nil => cases m <;> rfl
    | cons b rest => simp at enough
  | succ n ih =>
    obtain ⟨m,rfl⟩ : ∃ k, m = k+1 := ⟨m-1,by omega⟩
    cases text with
    | nil => rfl
    | cons b rest =>
      have size : rest.length ≤ n := by simpa using enough
      have later : n ≤ m := by omega
      simp only [expand]
      cases found : variableLength (b::rest) with
      | some k =>
        have positive := variablePositive found
        have drop : ((b::rest).drop k).length ≤ n := by simp only [List.length_drop,List.length_cons]; omega
        simp only [ih drop later]
      | none =>
        cases matched : if b = openBrace then findMatchingBrace (b::rest) 0 else none with
        | none => simp only [ih size later]
        | some e =>
          have inner : (choose (splitOptions (((b::rest).take e).drop 1)) choices).1.length ≤ n := by
            apply chooseLength
            intro o member
            have bound := scanOptionsLength _ _ _ o member
            simp only [List.length_drop,List.length_take,List.length_cons,List.length_nil] at bound
            omega
          have drop : ((b::rest).drop (e+1)).length ≤ n := by
            simp only [List.length_drop,List.length_cons]; omega
          simp only [ih inner later,ih drop later]

example : processSpintax (text "{a|{b|c}} {{x}}") [1,0] = text "b {{x}}" := by decide

end WppGateway.Spintax
