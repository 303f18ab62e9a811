import WppGateway.Calendar
import WppGateway.Domain
import WppGateway.ExpiringCounters
import WppGateway.GoJson
import WppGateway.Numerals

/-! The daily and the hourly counters of the budget manager in Redis. Times are nanoseconds of UTC from the first day of
year 1. -/
namespace WppGateway.RedisBudget
open Runs Calendar Domain ExpiringCounters GoJson Numerals

def hour : Nat := 3600 * 1000000000

def dayOf (t : Nat) : Nat := t / (24 * hour)

def hourOf (t : Nat) : Nat := t / hour

def formatDay (t : Nat) : GoString :=
  let d := date (dayOf t)
  numeral 10 4 d.year ++ text "-" ++ numeral 10 2 d.month ++ text "-" ++ numeral 10 2 d.day

def formatHour (t : Nat) : GoString := formatDay t ++ text "T" ++ numeral 10 2 (hourOf t % 24)

inductive Period where
  | daily | hourly
  deriving DecidableEq

def periodOf : Period → Nat → Nat
  | .daily => dayOf
  | .hourly => hourOf

def keyStart : Period → GoString
  | .daily => text "budget:daily:"
  | .hourly => text "budget:hourly:"

def format : Period → Nat → GoString
  | .daily => formatDay
  | .hourly => formatHour

def lifetime : Period → Nat
  | .daily => 25 * hour
  | .hourly => 2 * hour

section Manager
variable (uuidString : UUID → GoString)

def budgetKey (p : Period) (instanceId : UUID) (now : Nat) : GoString :=
  keyStart p ++ uuidString instanceId ++ text ":" ++ format p now

def increment (p : Period) (instanceId : UUID) (now : Nat) : Command GoString :=
  .incr (budgetKey uuidString p instanceId now) (lifetime p)

/- redis.Nil is zero. -/
def getCounter (p : Period) (s : System GoString) (instanceId : UUID) (now : Nat) : Int :=
  match get s.store (budgetKey uuidString p instanceId now) with
  | none => 0
  | some val => val

def remaining (p : Period) (s : System GoString) (instanceId : UUID) (budget : Int) (now : Nat) : Int :=
  let used := getCounter uuidString p s instanceId now
  if budget - used < 0 then 0 else budget - used

def incrementDaily := increment uuidString .daily
def getDaily := getCounter uuidString .daily
def incrementHourly := increment uuidString .hourly
def getHourly := getCounter uuidString .hourly
def remainingDaily := remaining uuidString .daily
def remainingHourly := remaining uuidString .hourly

inductive Call where
  | incrementDaily (instanceId : UUID)
  | incrementHourly (instanceId : UUID)
  | getDaily (instanceId : UUID)
  | getHourly (instanceId : UUID)
  | expire (n : Nat)
  | evict (key : GoString)
  deriving DecidableEq

/- A client reads its clock at `now`, and its command reaches Redis so much later. -/
structure Event where
  now : Nat
  delay : Nat
  call : Call
  deriving DecidableEq

def command (now : Nat) : Call → Command GoString
  | .incrementDaily x => incrementDaily uuidString x now
  | .incrementHourly x => incrementHourly uuidString x now
  | .getDaily x => .get (budgetKey uuidString .daily x now)
  | .getHourly x => .get (budgetKey uuidString .hourly x now)
  | .expire n => .expire n
  | .evict key => .evict key

def issued (e : Event) : ExpiringCounters.Event GoString := ⟨e.now + e.delay,command uuidString e.now e.call⟩

def step (s : System GoString) (e : Event) : Option (System GoString) :=
  ExpiringCounters.step s (issued uuidString e)

end Manager

def incremented : Call → Option (Period × UUID)
  | .incrementDaily x => some (.daily,x)
  | .incrementHourly x => some (.hourly,x)
  | _ => none

def counted (p : Period) (x : UUID) (t : Nat) (e : Event) : Bool :=
  decide (incremented e.call = some (p,x) ∧ periodOf p e.now = periodOf p t)

def dailyCalls (x : UUID) (t : Nat) (events : List Event) : Nat :=
  events.countP (fun e => decide (e.call = .incrementDaily x ∧ dayOf e.now = dayOf t))

def hourlyCalls (x : UUID) (t : Nat) (events : List Event) : Nat :=
  events.countP (fun e => decide (e.call = .incrementHourly x ∧ hourOf e.now = hourOf t))

theorem dayOfHour (t : Nat) : dayOf t = hourOf t / 24 := by
  rw [dayOf,hourOf,Nat.div_div_eq_div_mul,Nat.mul_comm hour 24]

theorem decimalLacks {b : UInt8} (other : ¬ IsDigit b) (width n : Nat) : b ∉ numeral 10 width n :=
  numeralLacks (by decide) (by decide) other width n

theorem decimalInjective (width : Nat) : Function.Injective (numeral 10 width) :=
  numeralInjective (by decide) (by decide) width

theorem formatDayInjective {first second : Nat} (same : formatDay first = formatDay second) :
    dayOf first = dayOf second := by
  have dash : text "-" = [45] := by decide
  have lacks := decimalLacks (show ¬ IsDigit 45 by decide)
  simp only [formatDay,dash,List.append_assoc,List.singleton_append] at same
  obtain ⟨year,rest⟩ := fieldsInjective (lacks 4 _) (lacks 4 _) same
  obtain ⟨month,day⟩ := fieldsInjective (lacks 2 _) (lacks 2 _) rest
  exact dateInjective (Date.ext (decimalInjective 4 year) (decimalInjective 2 month) (decimalInjective 2 day))

theorem formatDayLacks (t : Nat) : 84 ∉ formatDay t := by
  have dash : text "-" = [45] := by decide
  have lacks := decimalLacks (show ¬ IsDigit 84 by decide)
  simp [formatDay,dash,lacks]

theorem formatHourInjective {first second : Nat} (same : formatHour first = formatHour second) :
    hourOf first = hourOf second := by
  have mark : text "T" = [84] := by decide
  simp only [formatHour,mark,List.append_assoc,List.singleton_append] at same
  obtain ⟨day,inDay⟩ := fieldsInjective (formatDayLacks first) (formatDayLacks second) same
  have days := formatDayInjective day
  rw [dayOfHour,dayOfHour] at days
  have hours := decimalInjective 2 inDay
  omega

theorem formatInjective {p : Period} {first second : Nat} (same : format p first = format p second) :
    periodOf p first = periodOf p second := by
  cases p with
  | daily => exact formatDayInjective same
  | hourly => exact formatHourInjective same

def kindByte : Period → UInt8
  | .daily => 100
  | .hourly => 104

theorem keyKind (uuidString : UUID → GoString) (p : Period) (x : UUID) (t : Nat) :
    (budgetKey uuidString p x t)[7]? = some (kindByte p) := by
  have long : 7 < (keyStart p).length := by cases p <;> decide
  rw [budgetKey,List.append_assoc,List.append_assoc,List.getElem?_append_left long]
  cases p <;> decide

theorem formatStable {p : Period} {first second : Nat} (same : periodOf p first = periodOf p second) :
    format p first = format p second := by
  cases p with
  | daily => simp only [format,formatDay,show dayOf first = dayOf second from same]
  | hourly =>
    have hours : hourOf first = hourOf second := same
    simp only [format,formatHour,formatDay,dayOfHour,hours]

def length : Period → Nat
  | .daily => 24 * hour
  | .hourly => hour

def close (p : Period) (t : Nat) : Nat := (periodOf p t + 1) * length p

theorem periodLength (p : Period) (t : Nat) : periodOf p t = t / length p := by cases p <;> rfl

theorem lengthPositive (p : Period) : 0 < length p := by cases p <;> decide

theorem lengthLifetime (p : Period) : length p ≤ lifetime p := by cases p <;> decide

theorem beforeClose (p : Period) (t : Nat) : t < close p t := by
  rw [close,periodLength,Nat.mul_comm]
  exact Nat.lt_mul_div_succ t (lengthPositive p)

theorem closeLifetime {p : Period} {t now : Nat} (same : periodOf p now = periodOf p t) :
    close p t ≤ now + lifetime p := by
  have whole : now / length p * length p ≤ now := Nat.div_mul_le_self now (length p)
  have reach := lengthLifetime p
  rw [close,← same,periodLength,Nat.add_mul,Nat.one_mul]
  omega

theorem runIssued (uuidString : UUID → GoString) (s : System GoString) (events : List Event) :
    run (step uuidString) s events = run ExpiringCounters.step s (events.map (issued uuidString)) := by
  have mirrors : ∀ s e, (step uuidString s e).map id = ExpiringCounters.step (id s) (issued uuidString e) :=
    fun s e => by rw [Option.map_id]; rfl
  simpa only [Option.map_id,id_eq] using runMirrored mirrors s events

section Keys
variable {uuidString : UUID → GoString} (injective : Function.Injective uuidString) (noColon : ∀ x, 58 ∉ uuidString x)
include injective noColon

theorem budgetKeyExact {p q : Period} {x y : UUID} {first second : Nat} :
    budgetKey uuidString p x first = budgetKey uuidString q y second ↔
      (p,x) = (q,y) ∧ periodOf q first = periodOf q second := by
  have colon : text ":" = [58] := by decide
  constructor
  · intro same
    have kinds := (keyKind uuidString p x first).symm.trans (same ▸ keyKind uuidString q y second)
    have kind : p = q := by cases p <;> cases q <;> first | rfl | cases kinds
    subst kind
    simp only [budgetKey,colon,List.append_assoc,List.append_cancel_left_eq,List.singleton_append] at same
    obtain ⟨ids,stamp⟩ := fieldsInjective (noColon x) (noColon y) same
    exact ⟨congrArg (Prod.mk p) (injective ids),formatInjective stamp⟩
  · intro both
    obtain ⟨who,same⟩ := both
    obtain ⟨rfl,rfl⟩ := Prod.mk.inj who
    rw [budgetKey,formatStable same,budgetKey]

theorem incrementsCounted (p : Period) (x : UUID) (t : Nat) (e : Event) :
    increments (budgetKey uuidString p x t) (issued uuidString e) = counted p x t e := by
  obtain ⟨now,delay,call⟩ := e
  cases call with
  | incrementDaily y | incrementHourly y =>
    simp only [increments,issued,command,incrementDaily,incrementHourly,increment,counted,incremented,Option.some.injEq,
      budgetKeyExact injective noColon]
  | getDaily | getHourly | expire | evict => rfl

theorem issuedLasting (p : Period) (x : UUID) (t : Nat) (e : Event) :
    Lasting (budgetKey uuidString p x t) (close p t) (issued uuidString e) := by
  intro ttl writes
  obtain ⟨now,delay,call⟩ := e
  cases call with
  | incrementDaily y | incrementHourly y =>
    simp only [issued,command,incrementDaily,incrementHourly,increment,Command.incr.injEq,
      budgetKeyExact injective noColon,Prod.mk.injEq] at writes
    obtain ⟨⟨⟨kind,_⟩,same⟩,long⟩ := writes
    subst kind
    have reach := closeLifetime same
    simp only [issued]
    omega
  | getDaily | getHourly | expire | evict => cases writes

theorem countingCalls {s : System GoString} {events : List Event} (ran : run (step uuidString) fresh events = some s)
    {t : Nat} (later : s.clock ≤ t) (p : Period) (x : UUID) :
    Counting (budgetKey uuidString p x t) (close p t) (events.countP (counted p x t)) s := by
  have lasting : ∀ e ∈ events.map (issued uuidString), Lasting (budgetKey uuidString p x t) (close p t) e := by
    intro e member
    obtain ⟨e,_,rfl⟩ := List.mem_map.mp member
    exact issuedLasting injective noColon p x t e
  have counting := runCounting (countingFresh (budgetKey uuidString p x t) (close p t)) lasting
    ((runIssued uuidString fresh events).symm.trans ran) (Nat.lt_of_le_of_lt later (beforeClose p t))
  have calls : increments (budgetKey uuidString p x t) ∘ issued uuidString = counted p x t :=
    funext (incrementsCounted injective noColon p x t)
  rwa [Int.zero_add,List.countP_map,calls] at counting

theorem getCounted {s : System GoString} {events : List Event} (ran : run (step uuidString) fresh events = some s)
    {t : Nat} (later : s.clock ≤ t) (p : Period) (x : UUID) :
    getCounter uuidString p s x t = events.countP (counted p x t) := by
  rw [← (countingCalls injective noColon ran later p x).exact,getCounter,current]
  cases get s.store (budgetKey uuidString p x t) <;> rfl

theorem getKept {s u : System GoString} {events : List Event} (ran : run (step uuidString) fresh events = some s)
    {e : Event} (moved : step uuidString s e = some u) {t : Nat} (later : u.clock ≤ t) {p : Period} {x : UUID}
    (other : counted p x t e = false) : getCounter uuidString p u x t = getCounter uuidString p s x t := by
  obtain ⟨order,now⟩ := stepClock moved
  have longer : run (step uuidString) fresh (events ++ [e]) = some u := by
    rw [runAppend ran]
    simp only [run,moved,bind,Option.bind]
  rw [getCounted injective noColon longer later,getCounted injective noColon ran (by omega),List.countP_append,
    List.countP_singleton,other]
  rfl

end Keys

theorem remainingMax (uuidString : UUID → GoString) (p : Period) (s : System GoString) (x : UUID) (budget : Int)
    (t : Nat) :
    remaining uuidString p s x budget t = max 0 (budget - getCounter uuidString p s x t) := by
  simp only [remaining]
  split <;> omega

theorem dailyCounted (x : UUID) (t : Nat) (e : Event) :
    counted .daily x t e = decide (e.call = .incrementDaily x ∧ dayOf e.now = dayOf t) := by
  obtain ⟨now,delay,call⟩ := e
  cases call <;> simp [counted,incremented,periodOf]

theorem hourlyCounted (x : UUID) (t : Nat) (e : Event) :
    counted .hourly x t e = decide (e.call = .incrementHourly x ∧ hourOf e.now = hourOf t) := by
  obtain ⟨now,delay,call⟩ := e
  cases call <;> simp [counted,incremented,periodOf]

/-- Over any interleaving of the commands of any clients, and however late their lifetimes arrive, a read gets the number
of the calls for its instance in its own day, or hour, and no other call changes what it gets. -/
theorem countersExact {uuidString : UUID → GoString} (injective : Function.Injective uuidString)
    (noColon : ∀ x, 58 ∉ uuidString x) {events : List Event} {s : System GoString}
    (ran : run (step uuidString) fresh events = some s) {t : Nat} (later : s.clock ≤ t) (x : UUID) (budget : Int) :
    getDaily uuidString s x t = dailyCalls x t events ∧ getHourly uuidString s x t = hourlyCalls x t events ∧
      remainingDaily uuidString s x budget t = max 0 (budget - dailyCalls x t events) ∧
      remainingHourly uuidString s x budget t = max 0 (budget - hourlyCalls x t events) ∧
      ∀ e u, step uuidString s e = some u → u.clock ≤ t →
        (¬ (e.call = .incrementDaily x ∧ dayOf e.now = dayOf t) →
          getDaily uuidString u x t = getDaily uuidString s x t) ∧
        (¬ (e.call = .incrementHourly x ∧ hourOf e.now = hourOf t) →
          getHourly uuidString u x t = getHourly uuidString s x t) := by
  have days := getCounted injective noColon ran later .daily x
  have hours := getCounted injective noColon ran later .hourly x
  simp only [funext (dailyCounted x t)] at days
  simp only [funext (hourlyCounted x t)] at hours
  refine ⟨days,hours,?_,?_,?_⟩
  · rw [remainingDaily,remainingMax,days,dailyCalls]
  · rw [remainingHourly,remainingMax,hours,hourlyCalls]
  · intro e u moved soon
    refine ⟨fun other => ?_,fun other => ?_⟩
    · exact getKept injective noColon ran moved soon ((dailyCounted x t e).trans (decide_eq_false other))
    · exact getKept injective noColon ran moved soon ((hourlyCounted x t e).trans (decide_eq_false other))

def sampleString (x : UUID) : GoString := text "00000000-0000-0000-0000-" ++ numeral 16 12 x

def leapDay : Nat := 738944 * (24 * hour)

def sampleCalls : List Event :=
  [⟨leapDay - 1,0,.incrementDaily 7⟩,⟨leapDay + 2,0,.incrementDaily 7⟩,⟨leapDay + 2,3,.incrementHourly 7⟩,
    ⟨leapDay + hour,1,.expire 1⟩,⟨leapDay + hour,2,.incrementDaily 7⟩,⟨leapDay + hour,4,.incrementHourly 8⟩,
    ⟨leapDay + hour,5,.getDaily 7⟩,⟨leapDay + hour,6,.incrementHourly 7⟩]

theorem leapDayCounted : Function.Injective sampleString ∧ (∀ x, 58 ∉ sampleString x) ∧
    ∃ s, run (step sampleString) fresh sampleCalls = some s ∧ s.clock ≤ leapDay + 2 * hour - 1 ∧
      getDaily sampleString s 7 (leapDay + 2 * hour - 1) = 2 ∧ getHourly sampleString s 7 (leapDay + 2 * hour - 1) = 1 ∧
      remainingDaily sampleString s 7 1 (leapDay + 2 * hour - 1) = 0 ∧
      remainingHourly sampleString s 7 30 (leapDay + 2 * hour - 1) = 29 := by
  have injective : Function.Injective sampleString := fun x y same =>
    numeralInjective (by decide) (by decide) 12 (List.append_cancel_left same)
  have noColon : ∀ x, 58 ∉ sampleString x := by
    intro x member
    rcases List.mem_append.mp member with start | id
    · exact absurd start (by decide)
    · exact numeralLacks (by decide) (by decide) (show ¬ IsDigit 58 by decide) 12 x id
  obtain ⟨s,ran,later⟩ : ∃ s, run (step sampleString) fresh sampleCalls = some s ∧ s.clock ≤ leapDay + 2 * hour - 1 :=
    ⟨_,rfl,by decide⟩
  obtain ⟨days,hours,day,_⟩ := countersExact injective noColon ran later 7 1
  obtain ⟨_,_,_,inHour,_⟩ := countersExact injective noColon ran later 7 30
  have twice : dailyCalls 7 (leapDay + 2 * hour - 1) sampleCalls = 2 := by decide
  have once : hourlyCalls 7 (leapDay + 2 * hour - 1) sampleCalls = 1 := by decide
  rw [twice] at days day
  rw [once] at hours inHour
  exact ⟨injective,noColon,s,ran,later,days,hours,day,inHour⟩

end WppGateway.RedisBudget
