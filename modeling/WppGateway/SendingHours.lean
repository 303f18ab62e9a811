import WppGateway.GoJson

/-! When the operating hours let a message go out, and which misread bounds widen them. -/
namespace WppGateway.SendingHours
open GoJson

structure TimeWindow where
  start : GoString
  end_ : GoString
  deriving DecidableEq, Repr

/- A weekday of the configuration is any int. -/
structure OperatingHours where
  timezone : GoString
  windows : List TimeWindow
  days : List Int
  deriving DecidableEq, Repr

structure LocalTime where
  weekday : Fin 7
  hour : Fin 24
  minute : Fin 60
  deriving DecidableEq, Repr

def LocalTime.minutes (now : LocalTime) : Nat := now.hour * 60 + now.minute

/- The difference of two bytes is a byte. -/
def digitAt (b : UInt8) : Nat := (b - 48).toNat

def parseTimeMinutes : GoString → Nat
  | h::h'::_::m::m'::_ => (digitAt h * 10 + digitAt h') * 60 + (digitAt m * 10 + digitAt m')
  | _ => 0

def dayAllowed (hours : OperatingHours) (now : LocalTime) : Bool :=
  hours.days.any (fun d => decide (((now.weekday : Nat) : Int) = d))

def inside (now : LocalTime) (w : TimeWindow) : Bool :=
  decide (parseTimeMinutes w.start ≤ now.minutes ∧ now.minutes < parseTimeMinutes w.end_)

/- `zone` is LoadLocation, with what the clock shows there. -/
def isWithinOperatingHours (zone : GoString → Option LocalTime) (hours : OperatingHours) : Bool :=
  match zone hours.timezone with
  | none => true
  | some now =>
    if dayAllowed hours now = false ∧ hours.days.length > 0 then false
    else if hours.windows.any (inside now) then true
    else decide (hours.windows.length = 0)

def isDigit (b : UInt8) : Prop := 48 ≤ b ∧ b ≤ 57

instance (b : UInt8) : Decidable (isDigit b) := inferInstanceAs (Decidable (_ ∧ _))

def clockTime : GoString → Option Nat
  | [h,h',colon,m,m'] =>
    if isDigit h ∧ isDigit h' ∧ colon = 58 ∧ isDigit m ∧ isDigit m' then
      let hour := (h.toNat - 48) * 10 + (h'.toNat - 48)
      let minute := (m.toNat - 48) * 10 + (m'.toNat - 48)
      if hour ≤ 23 ∧ minute ≤ 59 then some (hour * 60 + minute) else none
    else none
  | _ => none

def wellFormed (w : TimeWindow) : Bool := (clockTime w.start).isSome && (clockTime w.end_).isSome

def Contains (now : LocalTime) (w : TimeWindow) : Prop :=
  ∃ s e, clockTime w.start = some s ∧ clockTime w.end_ = some e ∧ s ≤ now.minutes ∧ now.minutes < e

def Configured (hours : OperatingHours) (now : LocalTime) : Prop :=
  (hours.days = [] ∨ ((now.weekday : Nat) : Int) ∈ hours.days) ∧
    (hours.windows = [] ∨ ∃ w ∈ hours.windows, Contains now w)

/- On an allowed day no malformed window counts, unless a proper one lets the message out anyway. -/
def NotMisread (hours : OperatingHours) (now : LocalTime) : Prop :=
  (hours.days = [] ∨ ((now.weekday : Nat) : Int) ∈ hours.days) → (∃ w ∈ hours.windows, Contains now w) ∨
    ∀ w ∈ hours.windows, wellFormed w = false → inside now w = false

theorem digitRead {b : UInt8} (digit : isDigit b) : digitAt b = b.toNat - 48 := UInt8.toNat_sub_of_le b 48 digit.1

theorem clockRead {t : GoString} {minutes : Nat} (valid : clockTime t = some minutes) : parseTimeMinutes t = minutes := by
  unfold clockTime at valid
  split at valid
  next h h' colon m m' =>
    split at valid
    next digits =>
      dsimp only at valid
      split at valid
      · cases Option.some.inj valid
        simp only [parseTimeMinutes,digitRead digits.1,digitRead digits.2.1,digitRead digits.2.2.2.1,
          digitRead digits.2.2.2.2]
      · cases valid
    · cases valid
  · cases valid

theorem insideWellFormed {w : TimeWindow} (now : LocalTime) (proper : wellFormed w = true) :
    inside now w = true ↔ Contains now w := by
  obtain ⟨first,last⟩ := Bool.and_eq_true_iff.mp proper
  obtain ⟨s,start⟩ := Option.isSome_iff_exists.mp first
  obtain ⟨e,end_⟩ := Option.isSome_iff_exists.mp last
  rw [inside,clockRead start,clockRead end_,decide_eq_true_eq]
  constructor
  · exact fun within => ⟨s,e,start,end_,within⟩
  · rintro ⟨s',e',start',end',within⟩
    cases start.symm.trans start'
    cases end_.symm.trans end'
    exact within

theorem containsWellFormed {now : LocalTime} {w : TimeWindow} (held : Contains now w) : wellFormed w = true := by
  obtain ⟨s,e,start,end_,_⟩ := held
  rw [wellFormed,start,end_]
  rfl

theorem dayAllowedIff (hours : OperatingHours) (now : LocalTime) :
    ¬ (dayAllowed hours now = false ∧ hours.days.length > 0) ↔
      hours.days = [] ∨ ((now.weekday : Nat) : Int) ∈ hours.days := by
  have among : dayAllowed hours now = true ↔ ((now.weekday : Nat) : Int) ∈ hours.days := by
    simp [dayAllowed]
  rw [← among,not_and_or,Bool.not_eq_false,gt_iff_lt,List.length_pos_iff,not_not,or_comm]

theorem withinIff {zone : GoString → Option LocalTime} {hours : OperatingHours} {now : LocalTime}
    (loaded : zone hours.timezone = some now) : isWithinOperatingHours zone hours = true ↔
      (hours.days = [] ∨ ((now.weekday : Nat) : Int) ∈ hours.days) ∧
        (hours.windows = [] ∨ ∃ w ∈ hours.windows, inside now w = true) := by
  rw [isWithinOperatingHours,loaded,← dayAllowedIff]
  simp only
  split
  · next refused => exact ⟨fun h => (by cases h),fun both => absurd refused both.1⟩
  · next allowed =>
    split
    · next some_ => exact ⟨fun _ => ⟨allowed,.inr (List.any_eq_true.mp some_)⟩,fun _ => rfl⟩
    · next none_ =>
      rw [decide_eq_true_eq,List.length_eq_zero_iff]
      exact ⟨fun empty => ⟨allowed,.inl empty⟩,fun both => both.2.resolve_right (fun h => none_ (List.any_eq_true.mpr h))⟩

/-- The code keeps to the configured hours just when no malformed window lets out a message that no proper one does. -/
theorem keepsConfigured {zone : GoString → Option LocalTime} {hours : OperatingHours} {now : LocalTime}
    (loaded : zone hours.timezone = some now) :
    (isWithinOperatingHours zone hours = true ↔ Configured hours now) ↔ NotMisread hours now := by
  rw [withinIff loaded,Configured,NotMisread]
  have proper : (∃ w ∈ hours.windows, Contains now w) → ∃ w ∈ hours.windows, inside now w = true := by
    rintro ⟨w,member,held⟩
    exact ⟨w,member,(insideWellFormed now (containsWellFormed held)).mpr held⟩
  constructor
  · intro same day
    by_cases held : ∃ w ∈ hours.windows, Contains now w
    · exact .inl held
    · refine .inr (fun w member malformed => Bool.eq_false_iff.mpr (fun counts => ?_))
      rcases (same.mp ⟨day,.inr ⟨w,member,counts⟩⟩).2 with empty | some_
      · rw [empty] at member
        cases member
      · exact held some_
  · intro unread
    refine and_congr_right (fun day => or_congr_right ⟨?_,proper⟩)
    rintro ⟨w,member,counts⟩
    rcases unread day with some_ | none_
    · exact some_
    · cases form : wellFormed w with
      | true => exact ⟨w,member,(insideWellFormed now form).mp counts⟩
      | false => rw [none_ w member form] at counts; cases counts

def night : LocalTime := ⟨2,3,0⟩

def officeHours (start : String) : OperatingHours := ⟨text "UTC",[⟨text start,text "18:00"⟩],[]⟩

theorem officeAtNight : (fun _ => some night) (officeHours "08:00").timezone = some night ∧
    isWithinOperatingHours (fun _ => some night) (officeHours "08:00") = false := by
  have loaded : (fun _ => some night) (officeHours "08:00").timezone = some night := rfl
  have unread : NotMisread (officeHours "08:00") night := fun _ => .inr (by decide +kernel)
  refine ⟨loaded,Bool.eq_false_iff.mpr (fun within => ?_)⟩
  obtain ⟨_,empty | ⟨w,member,s,e,start,_,begun,_⟩⟩ := ((keepsConfigured loaded).mpr unread).mp within
  · cases empty
  · cases List.mem_singleton.mp member
    have eight : clockTime (text "08:00") = some 480 := by decide +kernel
    cases eight.symm.trans start
    exact absurd begun (by decide)

theorem shortBoundOpens : isWithinOperatingHours (fun _ => some night) (officeHours "8:00") = true ∧
    ¬ Configured (officeHours "8:00") night := by
  refine ⟨by decide +kernel,?_⟩
  rintro ⟨_,empty | ⟨w,member,held⟩⟩
  · cases empty
  · cases List.mem_singleton.mp member
    exact absurd (containsWellFormed held) (by decide +kernel)

end WppGateway.SendingHours
