import WppGateway.Numerals

/-! SELECT statements with numbered arguments: how their text is read, what they select, and a WHERE clause that is put
together one argument after another. No program is named here. -/
namespace WppGateway.Statements
open Numerals

abbrev Bytes := List UInt8

def keyword (s : String) : Bytes := s.toUTF8.data.toList

inductive Token where
  | word (w : Bytes)
  | sign (b : UInt8)
  | argument (n : Nat)
  deriving DecidableEq, Repr

def blank (b : UInt8) : Bool := b == 32 || b == 9 || b == 10

/- A comma, an equals sign, a bracket and an asterisk end a word. -/
def alone (b : UInt8) : Bool := b == 44 || b == 61 || b == 40 || b == 41 || b == 42

def decimalValue (digits : Bytes) : Nat := Nat.ofDigits 10 (digits.map digitValue).reverse

def token : Bytes → Token
  | 36::digits => if digits.isEmpty then .word [36]
    else if digits.all (fun b => 48 ≤ b && b ≤ 57) then .argument (decimalValue digits) else .word (36::digits)
  | w => .word w

def flush (w : Bytes) : List Token := if w.isEmpty then [] else [token w]

def lexFrom : Bytes → Bytes → List Token
  | w,[] => flush w
  | w,b::rest =>
    if blank b then flush w ++ lexFrom [] rest
    else if alone b then flush w ++ .sign b::lexFrom [] rest
    else lexFrom (w ++ [b]) rest

def lex (text : Bytes) : List Token := lexFrom [] text

abbrev Condition := Bytes × Nat

structure Statement where
  columns : List Token
  table : Bytes
  conditions : List Condition
  order : Option Bytes
  limit : Option (Nat × Nat)
  deriving DecidableEq, Repr

def readConditions : List Token → List Condition × List Token
  | .word c::.sign s::.argument n::.word w::rest =>
    if s = 61 then
      if w = keyword "AND" then ((c,n)::(readConditions rest).1,(readConditions rest).2) else ([(c,n)],.word w::rest)
    else ([],.word c::.sign s::.argument n::.word w::rest)
  | [.word c,.sign s,.argument n] => if s = 61 then ([(c,n)],[]) else ([],[.word c,.sign s,.argument n])
  | rest => ([],rest)

def readOrder : List Token → Option (Option Bytes × Option (Nat × Nat))
  | [] => some (none,none)
  | [.word order,.word by_,.word column,.word desc,.word limit,.argument n,.word offset,.argument m] =>
    if order = keyword "ORDER" ∧ by_ = keyword "BY" ∧ desc = keyword "DESC" ∧ limit = keyword "LIMIT" ∧
      offset = keyword "OFFSET" then some (some column,some (n,m)) else none
  | _ => none

def readStatement (tokens : List Token) : Option Statement := match tokens with
  | .word select::rest =>
    match rest.dropWhile (· != .word (keyword "FROM")) with
    | _::.word table::.word w::clause =>
      if select = keyword "SELECT" ∧ w = keyword "WHERE" then do
        let (order,limit) ← readOrder (readConditions clause).2
        some ⟨rest.takeWhile (· != .word (keyword "FROM")),table,(readConditions clause).1,order,limit⟩
      else none
    | _ => none
  | _ => none

section Meaning
variable {ρ α : Type} [DecidableEq α]

/- Here `column` has nothing for NULL, which is equal to no argument. -/
structure Database (ρ α : Type) where
  column : Bytes → ρ → Option α
  descending : Bytes → List ρ → List ρ
  number : α → Option Int

variable (db : Database ρ α) (args : List α)

def holds (r : ρ) (c : Condition) : Bool := match db.column c.1 r,args[c.2 - 1]? with
  | some v,some a => v == a
  | _,_ => false

def chosen (st : Statement) (rows : List ρ) : List ρ := rows.filter (fun r => st.conditions.all (holds db args r))

def ordered (st : Statement) (rows : List ρ) : List ρ := match st.order with
  | none => chosen db args st rows
  | some column => db.descending column (chosen db args st rows)

/- A negative LIMIT or OFFSET is an error. -/
def answer (st : Statement) (rows : List ρ) : Option (List ρ) := match st.limit with
  | none => some (ordered db args st rows)
  | some (n,m) => do
    let limit ← db.number (← args[n - 1]?)
    let offset ← db.number (← args[m - 1]?)
    if limit < 0 ∨ offset < 0 then none
    else some (((ordered db args st rows).drop offset.toNat).take limit.toNat)

def named (st : Statement) : List Nat := st.conditions.map Prod.snd ++ match st.limit with
  | none => []
  | some (n,m) => [n,m]

def fits (st : Statement) : Bool := (List.range' 1 args.length).all (fun n => (named st).contains n) &&
  (named st).all (fun n => (List.range' 1 args.length).contains n)

def query (text : Bytes) (rows : List ρ) : Option (List ρ) := do
  let st ← readStatement (lex text)
  if fits args st then answer db args st rows else none

def queryCount (text : Bytes) (rows : List ρ) : Option Nat := do
  let st ← readStatement (lex text)
  if fits args st then some (chosen db args st rows).length else none

end Meaning

/-! A WHERE clause in the making, with the arguments so far and the number of the next one. -/
section Building
variable {α : Type}

structure Building (α : Type) where
  clause : Bytes
  args : List α
  argIdx : Nat

def argumentText (n : Nat) : Bytes := 36::numeral 10 1 n

def extend (q : Building α) (column : Bytes) : Option α → Building α
  | none => q
  | some a => ⟨q.clause ++ keyword " AND " ++ column ++ keyword " = " ++ argumentText q.argIdx,q.args ++ [a],q.argIdx + 1⟩

/- The clause reads as conditions on the filters' columns, and the arguments are the filters' values in this order. -/
def numbered : Nat → List (Bytes × α) → List Condition
  | _,[] => []
  | n,f::rest => (f.1,n)::numbered (n + 1) rest

def one (c : Condition) : List Token := [.word c.1,.sign 61,.argument c.2]

def joined : Condition → List Condition → List Token
  | c,[] => one c
  | c,d::rest => one c ++ .word (keyword "AND")::joined d rest

structure Built (q : Building α) (first : Bytes × α) (filters : List (Bytes × α)) : Prop where
  clause : lex q.clause = .word (keyword "WHERE")::joined (first.1,1) (numbered 2 filters)
  args : q.args = (first::filters).map Prod.snd
  next : q.argIdx = filters.length + 2

def Plain (w : Bytes) : Prop := w ≠ [] ∧ (∀ b ∈ w, blank b = false ∧ alone b = false) ∧ w.head? ≠ some 36

instance (w : Bytes) : Decidable (Plain w) := inferInstanceAs (Decidable (_ ∧ _ ∧ _))

end Building

theorem lexBlank (w a b : Bytes) : lexFrom w (a ++ 32::b) = lexFrom w a ++ lex b := by
  induction a generalizing w with
  | nil => simp [lexFrom,blank,lex]
  | cons c rest ih =>
    simp only [List.cons_append,lexFrom]
    split
    · rw [ih,List.append_assoc]
    split
    · rw [ih,List.append_assoc,List.cons_append]
    · exact ih _

theorem lexWord {x : Bytes} (plain : ∀ b ∈ x, blank b = false ∧ alone b = false) (w : Bytes) : lexFrom w x = flush (w ++ x) := by
  induction x generalizing w with
  | nil => rw [lexFrom,List.append_nil]
  | cons b rest ih =>
    obtain ⟨first,second⟩ := plain b List.mem_cons_self
    simp only [lexFrom,first,second]
    rw [if_neg (by decide),if_neg (by decide),ih (fun c member => plain c (List.mem_cons_of_mem _ member)),List.append_assoc]
    rfl

theorem lexPlain {w : Bytes} (plain : Plain w) : lex w = [.word w] := by
  obtain ⟨some_,bytes,first⟩ := plain
  rw [lex,lexWord bytes,List.nil_append,flush,if_neg (by simpa using some_)]
  cases w with
  | nil => exact absurd rfl some_
  | cons b rest =>
    have other : b ≠ 36 := fun same => first (by rw [same]; rfl)
    simp only [token]
    split
    · next here => exact absurd (List.cons.inj here).1 other
    · rfl

theorem decimalByte {n : Nat} : ∀ b ∈ numeral 10 1 n, 48 ≤ b ∧ b ≤ 57 := by
  intro b member
  obtain ⟨d,inside,rfl⟩ := List.mem_map.mp member
  have small : d < 10 := by
    rcases List.mem_append.mp (List.mem_reverse.mp inside) with digit | zero
    · exact Nat.digits_lt_base (by decide) digit
    · rw [List.eq_of_mem_replicate zero]
      decide
  clear inside member
  decide +revert

theorem numeralSome (n : Nat) : (numeral 10 1 n).isEmpty = false := by
  have length : 1 ≤ (numeral 10 1 n).length := by
    simp only [numeral,List.length_map,List.length_reverse,List.length_append,List.length_replicate]
    omega
  cases digits : numeral 10 1 n with
  | nil => rw [digits] at length; simp at length
  | cons b rest => rfl

theorem tokenArgument (n : Nat) : token (argumentText n) = .argument n := by
  have all : (numeral 10 1 n).all (fun b => 48 ≤ b && b ≤ 57) = true :=
    List.all_eq_true.mpr (fun b member => by simpa using decimalByte b member)
  simp only [token,argumentText,numeralSome,all,if_true,Bool.false_eq_true,if_false,decimalValue]
  rw [numeralValue (by decide) (by decide) 1 n]

theorem lexArgument (n : Nat) : lex (argumentText n) = [.argument n] := by
  have bytes : ∀ b ∈ argumentText n, blank b = false ∧ alone b = false := by
    intro b member
    rcases List.mem_cons.mp member with rfl | digit
    · decide
    · refine everyByte (P := fun b => 48 ≤ b ∧ b ≤ 57 → blank b = false ∧ alone b = false) ?_ b (decimalByte b digit)
      decide +kernel
  rw [lex,lexWord bytes,List.nil_append,flush,if_neg (by simp [argumentText]),tokenArgument]

section Built
variable {α : Type} {q : Building α} {first : Bytes × α} {filters : List (Bytes × α)}

theorem numberedSnoc (n : Nat) (filters : List (Bytes × α)) (f : Bytes × α) :
    numbered n (filters ++ [f]) = numbered n filters ++ [(f.1,n + filters.length)] := by
  induction filters generalizing n with
  | nil => rfl
  | cons g rest ih =>
    simp only [List.cons_append,numbered,ih,List.length_cons]
    rw [Nat.add_assoc,Nat.add_comm 1]

theorem numberedNames (n : Nat) (filters : List (Bytes × α)) :
    (numbered n filters).map Prod.snd = List.range' n filters.length := by
  induction filters generalizing n with
  | nil => rfl
  | cons f rest ih => simp only [numbered,List.map_cons,ih,List.length_cons,List.range'_succ]

theorem pageNumbers (n : Nat) : 1::(List.range' 2 n ++ [n + 2,n + 2 + 1]) = List.range' 1 (n + 3) := by
  have last : [n + 2,n + 2 + 1] = List.range' (2 + n) 2 := by
    rw [Nat.add_comm 2]
    rfl
  rw [last,List.range'_append_1]
  rfl

theorem joinedSnoc (c d : Condition) (rest : List Condition) :
    joined c (rest ++ [d]) = joined c rest ++ .word (keyword "AND")::one d := by
  induction rest generalizing c with
  | nil => rfl
  | cons e rest ih => simp only [List.cons_append,joined,ih,List.append_assoc]

theorem startBuilt {column : Bytes} (plain : Plain column) (a : α) :
    Built ⟨keyword "WHERE " ++ column ++ keyword " = " ++ argumentText 1,[a],2⟩ (column,a) [] := by
  have split_ : keyword "WHERE " ++ column ++ keyword " = " ++ argumentText 1 =
      keyword "WHERE" ++ 32::(column ++ 32::(keyword "=" ++ 32::argumentText 1)) := by
    have before : keyword "WHERE " = keyword "WHERE" ++ [32] := by decide +kernel
    have equals : keyword " = " = 32::(keyword "=" ++ [32]) := by decide +kernel
    simp only [before,equals,List.append_assoc,List.cons_append,List.nil_append]
  refine ⟨?_,rfl,rfl⟩
  have opens : lexFrom [] (keyword "WHERE") = [.word (keyword "WHERE")] := by decide +kernel
  have equal : lexFrom [] (keyword "=") = [.sign 61] := by decide +kernel
  have name := lexPlain plain
  rw [lex] at name
  simp only [split_,lex,lexBlank,opens,name,equal,numbered,joined,one]
  have last := lexArgument 1
  rw [lex] at last
  rw [last]
  rfl

theorem extendBuilt (built : Built q first filters) {column : Bytes} (plain : Plain column) (a : Option α) :
    Built (extend q column a) first (filters ++ (a.map (Prod.mk column)).toList) := by
  cases a with
  | none => simpa [extend] using built
  | some a =>
    obtain ⟨clause,args,next⟩ := built
    refine ⟨?_,by simp [extend,args],by simp [extend,next]⟩
    have split_ : q.clause ++ keyword " AND " ++ column ++ keyword " = " ++ argumentText q.argIdx =
        q.clause ++ 32::(keyword "AND" ++ 32::(column ++ 32::(keyword "=" ++ 32::argumentText q.argIdx))) := by
      have before : keyword " AND " = 32::(keyword "AND" ++ [32]) := by decide +kernel
      have equals : keyword " = " = 32::(keyword "=" ++ [32]) := by decide +kernel
      simp only [before,equals,List.append_assoc,List.cons_append,List.nil_append]
    have and_ : lex (keyword "AND") = [.word (keyword "AND")] := by decide +kernel
    have equal : lex (keyword "=") = [.sign 61] := by decide +kernel
    have whole : lex (q.clause ++ 32::(keyword "AND" ++ 32::(column ++ 32::(keyword "=" ++ 32::argumentText q.argIdx)))) =
        lex q.clause ++ (lex (keyword "AND") ++ (lex column ++ (lex (keyword "=") ++ lex (argumentText q.argIdx)))) := by
      simp only [lex,lexBlank]
    change lex (q.clause ++ keyword " AND " ++ column ++ keyword " = " ++ argumentText q.argIdx) = _
    rw [split_,whole,clause,and_,equal,lexPlain plain,lexArgument,next,Option.map_some,Option.toList_some,numberedSnoc,joinedSnoc,
      Nat.add_comm 2]
    rfl

end Built

section Texts
variable {α : Type}

theorem fitsExact {args : List α} {st : Statement} (same : named st = List.range' 1 args.length) : fits args st = true := by
  simp [fits,same]

def selectText (columns table : Bytes) (q : Building α) : Bytes :=
  keyword "SELECT " ++ columns ++ keyword " FROM " ++ table ++ keyword " " ++ q.clause

def pageText (columns table order : Bytes) (q : Building α) : Bytes :=
  selectText columns table q ++ keyword " ORDER BY " ++ order ++ keyword " DESC LIMIT " ++ argumentText q.argIdx ++
    keyword " OFFSET " ++ argumentText (q.argIdx + 1)

theorem readJoined (c : Condition) (rest : List Condition) {tail : List Token}
    (ends : tail = [] ∨ ∃ w more, tail = .word w::more ∧ w ≠ keyword "AND") :
    readConditions (joined c rest ++ tail) = (c::rest,tail) := by
  induction rest generalizing c with
  | nil =>
    rcases ends with rfl | ⟨w,more,rfl,other⟩
    · simp [joined,one,readConditions]
    · simp [joined,one,readConditions,other]
  | cons d rest ih => simp [joined,one,readConditions,ih]

theorem readTokens {columns tail : List Token} {table : Bytes} (free : .word (keyword "FROM") ∉ columns) (c : Condition)
    (rest : List Condition) (ends : tail = [] ∨ ∃ w more, tail = .word w::more ∧ w ≠ keyword "AND") :
    readStatement (.word (keyword "SELECT")::(columns ++ .word (keyword "FROM")::.word table::.word (keyword "WHERE")::
      (joined c rest ++ tail))) = (readOrder tail).map (fun o => ⟨columns,table,c::rest,o.1,o.2⟩) := by
  have kept : ∀ t ∈ columns, (t != .word (keyword "FROM")) = true := fun t member =>
    bne_iff_ne.mpr (fun same => free (same ▸ member))
  simp only [readStatement,List.dropWhile_append_of_pos kept,List.takeWhile_append_of_pos kept,List.dropWhile_cons,
    List.takeWhile_cons,bne_self_eq_false,Bool.false_eq_true,if_false,List.append_nil,readJoined c rest ends]
  cases readOrder tail <;> rfl

theorem lexSelect {columns table : Bytes} (plain : Plain table) (q : Building α) :
    lex (selectText columns table q) =
      .word (keyword "SELECT")::(lex columns ++ .word (keyword "FROM")::.word table::lex q.clause) := by
  have select : keyword "SELECT " = keyword "SELECT" ++ [32] := by decide +kernel
  have from_ : keyword " FROM " = 32::(keyword "FROM" ++ [32]) := by decide +kernel
  have space : keyword " " = [32] := by decide +kernel
  have split_ : selectText columns table q =
      keyword "SELECT" ++ 32::(columns ++ 32::(keyword "FROM" ++ 32::(table ++ 32::q.clause))) := by
    simp only [selectText,select,from_,space,List.append_assoc,List.cons_append,List.nil_append]
  have whole : lex (keyword "SELECT" ++ 32::(columns ++ 32::(keyword "FROM" ++ 32::(table ++ 32::q.clause)))) =
      lex (keyword "SELECT") ++ (lex columns ++ (lex (keyword "FROM") ++ (lex table ++ lex q.clause))) := by
    simp only [lex,lexBlank]
  have first : lex (keyword "SELECT") = [.word (keyword "SELECT")] := by decide +kernel
  have second : lex (keyword "FROM") = [.word (keyword "FROM")] := by decide +kernel
  rw [split_,whole,first,second,lexPlain plain]
  rfl

def tailTokens (order : Bytes) (n : Nat) : List Token :=
  [.word (keyword "ORDER"),.word (keyword "BY"),.word order,.word (keyword "DESC"),.word (keyword "LIMIT"),.argument n,
    .word (keyword "OFFSET"),.argument (n + 1)]

theorem lexPage {columns table order : Bytes} (plain : Plain order) (q : Building α) :
    lex (pageText columns table order q) = lex (selectText columns table q) ++ tailTokens order q.argIdx := by
  have orderBy : keyword " ORDER BY " = 32::(keyword "ORDER" ++ 32::(keyword "BY" ++ [32])) := by decide +kernel
  have desc : keyword " DESC LIMIT " = 32::(keyword "DESC" ++ 32::(keyword "LIMIT" ++ [32])) := by decide +kernel
  have offset : keyword " OFFSET " = 32::(keyword "OFFSET" ++ [32]) := by decide +kernel
  have split_ : pageText columns table order q = selectText columns table q ++ 32::(keyword "ORDER" ++ 32::(keyword "BY" ++
      32::(order ++ 32::(keyword "DESC" ++ 32::(keyword "LIMIT" ++ 32::(argumentText q.argIdx ++
        32::(keyword "OFFSET" ++ 32::argumentText (q.argIdx + 1)))))))) := by
    simp only [pageText,orderBy,desc,offset,List.append_assoc,List.cons_append,List.nil_append]
  have whole (a : Bytes) : lex (a ++ 32::(keyword "ORDER" ++ 32::(keyword "BY" ++ 32::(order ++ 32::(keyword "DESC" ++
      32::(keyword "LIMIT" ++ 32::(argumentText q.argIdx ++ 32::(keyword "OFFSET" ++ 32::argumentText (q.argIdx + 1)))))))))
      = lex a ++ (lex (keyword "ORDER") ++ (lex (keyword "BY") ++ (lex order ++ (lex (keyword "DESC") ++
        (lex (keyword "LIMIT") ++ (lex (argumentText q.argIdx) ++ (lex (keyword "OFFSET") ++
          lex (argumentText (q.argIdx + 1))))))))) := by
    simp only [lex,lexBlank]
  have words : lex (keyword "ORDER") = [.word (keyword "ORDER")] ∧ lex (keyword "BY") = [.word (keyword "BY")] ∧
      lex (keyword "DESC") = [.word (keyword "DESC")] ∧ lex (keyword "LIMIT") = [.word (keyword "LIMIT")] ∧
      lex (keyword "OFFSET") = [.word (keyword "OFFSET")] := by decide +kernel
  obtain ⟨one_,two,three,four,five⟩ := words
  rw [split_,whole,one_,two,three,four,five,lexPlain plain,lexArgument,lexArgument]
  rfl

end Texts

section Selects
variable {ρ α : Type} [DecidableEq α] (db : Database ρ α)

def equalTo (r : ρ) (f : Bytes × α) : Bool := (db.column f.1 r).any (· == f.2)

theorem numberedHolds (r : ρ) (before : List α) (filters : List (Bytes × α)) (after : List α) :
    (numbered (before.length + 1) filters).all (holds db (before ++ filters.map Prod.snd ++ after) r) =
      filters.all (equalTo db r) := by
  induction filters generalizing before with
  | nil => rfl
  | cons f rest ih =>
    have here : (before ++ (f::rest).map Prod.snd ++ after)[before.length]? = some f.2 := by simp
    have later := ih (before ++ [f.2])
    simp only [List.length_append,List.length_singleton,List.append_assoc,List.singleton_append] at later
    simp only [numbered,List.all_cons,List.map_cons,List.append_assoc,List.cons_append] at here later ⊢
    rw [later]
    simp only [holds,Nat.add_sub_cancel,here,equalTo]
    cases db.column f.1 r <;> rfl

variable {db} in
theorem equalColumn {β : Type} {column : Bytes} {wrap : β → α} (wraps : ∀ x y, wrap x = wrap y → x = y) {r : ρ}
    {value : Option β} (here : db.column column r = value.map wrap) (x : β) :
    equalTo db r (column,wrap x) = true ↔ value = some x := by
  rw [equalTo,here]
  cases value with
  | none => simp
  | some v =>
    rw [Option.map_some,Option.any_some,beq_iff_eq,Option.some.injEq]
    exact ⟨wraps v x,congrArg wrap⟩

variable {db} in
theorem equalFilter {β : Type} {column : Bytes} {wrap : β → α} (wraps : ∀ x y, wrap x = wrap y → x = y) {r : ρ}
    {value : Option β} (here : db.column column r = value.map wrap) (filter : Option β) :
    ((filter.map wrap).map (Prod.mk column)).toList.all (equalTo db r) = true ↔ ∀ x ∈ filter, value = some x := by
  cases filter with
  | none => simp
  | some x => simp [equalColumn wraps here]

theorem querySame {a b : Bytes} (same : lex a = lex b) (args : List α) (rows : List ρ) :
    query db args a rows = query db args b rows := by
  simp only [query,same]

variable {q : Building α} {first : Bytes × α} {filters : List (Bytes × α)} (built : Built q first filters)
  {columns table order : Bytes} (free : .word (keyword "FROM") ∉ lex columns) (plain : Plain table)
include built free plain

theorem countMeans (rows : List ρ) : queryCount db q.args (selectText columns table q) rows =
    some (rows.filter (fun r => (first::filters).all (equalTo db r))).length := by
  obtain ⟨clause,args,next⟩ := built
  have read := @readTokens (lex columns) _ table free (first.1,1) (numbered 2 filters) (.inl rfl)
  rw [List.append_nil] at read
  have names : named ⟨lex columns,table,(first.1,1)::numbered 2 filters,none,none⟩ =
      List.range' 1 ((first::filters).map Prod.snd).length := by
    simp [named,numberedNames,List.range'_succ]
  have all (r : ρ) := numberedHolds db r [] (first::filters) []
  simp only [numbered,List.length_nil,Nat.zero_add,List.nil_append,List.append_nil] at all
  simp only [queryCount,lexSelect plain,clause,args,read,readOrder,Option.map_some,Option.bind_eq_bind,Option.bind_some,
    fitsExact names,if_true,chosen,all]

theorem pageMeans (sorted : Plain order) (rows : List ρ) {l o : α} {limit offset : Int} (left : db.number l = some limit)
    (right : db.number o = some offset) : query db (q.args ++ [l,o]) (pageText columns table order q) rows =
      if limit < 0 ∨ offset < 0 then none
      else some (((db.descending order (rows.filter (fun r => (first::filters).all (equalTo db r)))).drop
        offset.toNat).take limit.toNat) := by
  obtain ⟨clause,args,next⟩ := built
  have ends : tailTokens order q.argIdx = [] ∨ ∃ w more, tailTokens order q.argIdx = .word w::more ∧ w ≠ keyword "AND" :=
    .inr ⟨_,_,rfl,by decide +kernel⟩
  have read := @readTokens (lex columns) _ table free (first.1,1) (numbered 2 filters) ends
  have names : named ⟨lex columns,table,(first.1,1)::numbered 2 filters,some order,some (q.argIdx,q.argIdx + 1)⟩ =
      List.range' 1 ((first::filters).map Prod.snd ++ [l,o]).length := by
    have length : ((first::filters).map Prod.snd ++ [l,o]).length = filters.length + 3 := by simp
    rw [length,← pageNumbers]
    simp only [named,List.map_cons,numberedNames,next,List.cons_append]
  have tail : readOrder (tailTokens order q.argIdx) = some (some order,some (q.argIdx,q.argIdx + 1)) := by
    simp [readOrder,tailTokens]
  have first_ : ((first::filters).map Prod.snd ++ [l,o])[q.argIdx - 1]? = some l := by simp [next]
  have second : ((first::filters).map Prod.snd ++ [l,o])[q.argIdx + 1 - 1]? = some o := by simp [next]
  have all (r : ρ) := numberedHolds db r [] (first::filters) [l,o]
  simp only [numbered,List.length_nil,Nat.zero_add,List.nil_append] at all
  simp only [query,lexPage sorted,lexSelect plain,clause,args,List.cons_append,List.append_assoc,read,tail,Option.map_some,
    Option.bind_eq_bind,Option.bind_some] at names first_ second all ⊢
  simp only [fitsExact names,if_true,answer,ordered,chosen,first_,second,Option.bind_eq_bind,Option.bind_some,left,right,all]

end Selects

end WppGateway.Statements
