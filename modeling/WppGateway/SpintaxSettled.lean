import WppGateway.SpintaxValues

/-! What ProcessSpintax returns has nothing left to expand. -/
namespace WppGateway.SpintaxSettled
open GoJson Spintax MessageText SpintaxReading SpintaxValues

inductive Settled : GoString → Prop where
  | nil : Settled []
  | var (u rest : GoString) (first : FirstClose u) (tail : Settled rest) : Settled (placeholder u ++ rest)
  | byte (b : UInt8) (rest : GoString) (unread : variableLength (b::rest) = none)
      (unmatched : b = openBrace → findMatchingBrace (b::rest) 0 = none) (tail : Settled rest) : Settled (b::rest)

theorem expandSettled {s : GoString} (settled : Settled s) (choices : List Nat) :
    expand s.length s choices = (s,choices) := by
  induction settled with
  | nil => rfl
  | var u rest first tail ih =>
    have found := variableFound first rest
    have short : rest.length + 1 ≤ (placeholder u ++ rest).length := by
      simp only [placeholder,List.length_append,List.length_cons]
      omega
    cases split_ : placeholder u ++ rest with
    | nil => simp [placeholder] at split_
    | cons b more =>
      rw [split_] at found short
      simp only [List.length_cons,expand,found]
      rw [← split_,List.take_left,List.drop_left,expandFuel (Nat.le_refl _) (Nat.le_of_succ_le_succ short),ih]
  | byte b rest unread unmatched tail ih =>
    have alone : (if b = openBrace then findMatchingBrace (b::rest) 0 else none) = none := by
      split
      · next opens => exact unmatched opens
      · rfl
    simp only [List.length_cons,expand,unread,alone,ih]

theorem walkComes {text y : GoString} (comes : Comes (fun s => s) text y) (d : Nat) : walk d y = walk d text := by
  induction comes generalizing d with
  | nil => rfl
  | var u post y first tail ih => rw [walkAppend,walkAppend]; exact Option.bind_congr (fun e _ => ih e)
  | byte b rest y unread unmatched tail ih =>
    have joined : b::rest = [b] ++ rest := rfl
    rw [joined,walkAppend,walkAppend]
    exact Option.bind_congr (fun e _ => ih e)
  | group inner post o x y closed unread member inside tail here later =>
    have option_ : walk d o = some d := by simpa using walkDeeper (optionClosed closed member) d
    have inner_ : walk (d+1) inner = some (d+1) := by simpa using walkDeeper closed (d+1)
    rw [walkAppend,here,option_,Option.bind_some,later,walkOpen,walkAppend,inner_,Option.bind_some,walkClose]

theorem settledAppend {body s later : GoString} (first : Closed body s) (second : Settled later) :
    Settled (s ++ later) := by
  induction first with
  | nil => exact second
  | byte b rest plain _ ih =>
    exact .byte b _ (by simp [variableLength,plain]) (fun opens => absurd opens plain) ih
  | var u rest first _ _ ih =>
    rw [List.append_assoc]
    exact .var u _ first ih

/- An option comes out closed, so that it joins no braces of what stands around it. A brace that stays stands before as
much that closes as it did. -/
theorem settledComes {text y : GoString} (comes : Comes (fun s => s) text y) : Settled y := by
  induction comes with
  | nil => exact .nil
  | var u post y first tail ih => exact .var u y first ih
  | group inner post o x y closed unread member inside tail here later =>
    exact settledAppend (closedComes inside (optionClosed closed member) List.infix_rfl) later
  | byte b rest y unread unmatched tail ih =>
    refine .byte b y ?_ (fun opens => ?_) ih
    · cases found : variableLength (b::y) with
      | none => rfl
      | some n =>
        obtain ⟨u,post,split_,_⟩ := variableSplit found
        have opens : b = openBrace := (List.cons.inj split_).1
        subst opens
        exact absurd ⟨post,split_.symm⟩ (rawOpen unread tail)
    · subst opens
      rw [matchedIff,walkComes tail]
      exact (matchedIff rest).mp (unmatched rfl)

/-- Whatever the text and the choices, expanding what came out changes nothing. -/
theorem processSettled (text : GoString) (choices later : List Nat) :
    processSpintax (processSpintax text choices) later = processSpintax text choices := by
  have comes : Comes (fun s => s) text (processSpintax text choices) := comesIff.mp (returnsIff.mpr ⟨choices,rfl⟩)
  have same := congrArg Prod.fst (expandSettled (settledComes comes) later)
  exact same

end WppGateway.SpintaxSettled
