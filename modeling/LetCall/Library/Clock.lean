import LetCall.World

/-!
# LetCall.Library.Clock

The clock, the timer and the calendar.  Reading the clock may fail; functions that give
a text then give a note instead, the others fail themselves.
-/

namespace LetCall.Library

open Numeric

/-! ## the timer -/

/-- Start the timer. -/
def startTimer : WorldM Trouble Unit := do
  let now ← readClock
  modify fun w => { w with timer := some now }

/-- The seconds on the timer, unless it was never started. -/
def elapsed : WorldM Trouble (Option Number) := do
  match (← get).timer with
  | none => return none
  | some start =>
    let now ← readClock
    return some (← ofExcept (now.sub start))

/-- A number of seconds with a number of places; a clock set back shows zero. -/
def sinceText (places : Nat) (t : Number) : Except Trouble String := do
  if t.compare? (.int 0) == some .lt then return fixedText places 0.0
  return fixedText places (← t.toFloat)

/-- Run a step that gives a text; if it fails, give a note that starts with `what`. -/
def orNote (what : String) (x : WorldM Trouble String) : WorldM Trouble Value := do
  try return .str (← x)
  catch e => return .str s!"[{what} Error: {e.message}]"

/-- Run a step; if it fails, report that as one of a larger operation. -/
def inContext {α : Type} (context : String) (x : WorldM Trouble α) : WorldM Trouble α :=
  tryCatch x fun e => throw (.within context e)

/-- The timer in seconds with three places. -/
def timeText : WorldM Trouble Value := orNote "Time" do
  match ← elapsed with
  | none => return "0.000s"
  | some t => return (← ofExcept (sinceText 3 t)) ++ "s"

/-- The timer in whole milliseconds. -/
def millisecondsText : WorldM Trouble Value := orNote "Time" do
  match ← elapsed with
  | none => return "0ms"
  | some t =>
    let ms ← ofExcept (t.mul (.int 1000))
    return (← ofExcept (sinceText 0 ms)) ++ "ms"

/-- Start the timer anew. -/
def resetTimer : WorldM Trouble Value :=
  inContext "Timer reset error: " do startTimer; return .null

/-- The timer in seconds, at least zero. -/
def uptime : WorldM Trouble Value := inContext "Uptime error: " do
  match ← elapsed with
  | none => return .float 0.0
  | some t => return if t.compare? (.float 0.0) == some .gt then t.value else .float 0.0

/-! ## the calendar -/

/-- The whole part of a number of seconds. -/
def wholePart (x : Float) : Except Trouble Int :=
  match parts x with
  | .nan => .error .nanToInteger
  | .infinite _ => .error .infinityToInteger
  | .finite negative m e =>
    let (n, d) := scale m e
    .ok (if negative then -((n / d : Nat) : Int) else ((n / d : Nat) : Int))

/-- The whole seconds of a moment. -/
def wholeSeconds : Number → Except Trouble Int
  | .int n => .ok n
  | t => do wholePart (← t.toFloat)

/-- A moment in microseconds, a tie to the even one.  The fraction of a second is scaled
in double precision before it is rounded. -/
def microseconds (t : Number) : Except Trouble Int := do
  let whole ← wholeSeconds t
  match t with
  | .int _ => return whole * 1000000
  | t =>
    let fraction := (← t.toFloat) - ((ofInt? whole).getD 0.0)
    let micros :=
      match quotient? (1000000.0 * fraction) with
      | some (n, d) => roundInt n d
      | none => 0
    return whole * 1000000 + micros

/-- A day of the calendar. -/
structure Date where
  year : Int
  month : Nat
  day : Nat
  deriving DecidableEq, Repr

/-- The day that comes `days` after the first of January 1970.  Years are counted from
March, in eras of four hundred, so that the leap day comes last. -/
def Date.ofDays (days : Int) : Date :=
  let z := days + 719468
  let era := z.fdiv 146097
  let ofEra := (z - era * 146097).toNat
  let yearOfEra := (ofEra - ofEra / 1460 + ofEra / 36524 - ofEra / 146096) / 365
  let dayOfYear := ofEra - (365 * yearOfEra + yearOfEra / 4 - yearOfEra / 100)
  let shifted := (5 * dayOfYear + 2) / 153
  let day := dayOfYear - (153 * shifted + 2) / 5 + 1
  let month := if shifted < 10 then shifted + 3 else shifted - 9
  ⟨era * 400 + yearOfEra + (if month ≤ 2 then 1 else 0), month, day⟩

/-- The day and the second of the day of a moment, within the years 1 to 9999. -/
def calendar (now : Number) : Except Trouble (Date × Nat) := do
  let micros ← microseconds now
  let seconds := micros.fdiv 1000000
  let days := seconds.fdiv 86400
  if days < -(twoPow 31 : Int) ∨ (twoPow 31 : Int) ≤ days then throw .daysBeyondRange
  if 999999999 < days.natAbs then throw (.daysTooMany days)
  let date := Date.ofDays days
  if date.year < 1 ∨ 9999 < date.year then throw .dateOutOfRange
  return (date, (seconds - days * 86400).toNat)

/-- A number with two digits. -/
def twoDigits (n : Nat) : String := if n < 10 then s!"0{n}" else s!"{n}"

/-- A day as year, month and day. -/
def Date.text (d : Date) : String :=
  intDigits d.year ++ "-" ++ twoDigits d.month ++ "-" ++ twoDigits d.day

/-- A second of a day as hours, minutes and seconds. -/
def timeOfDayText (s : Nat) : String :=
  ":".intercalate [twoDigits (s / 3600), twoDigits (s / 60 % 60), twoDigits (s % 60)]

/-- The clock in whole seconds. -/
def timestampText : WorldM Trouble Value := orNote "Timestamp" do
  let seconds ← ofExcept (wholeSeconds (← readClock))
  let some text := intText? seconds | throw .tooManyDigits
  return text

/-- The clock as a day of the calendar and a time of day. -/
def datetimeText : WorldM Trouble Value := orNote "DateTime" do
  let (date, second) ← ofExcept (calendar (← readClock))
  return date.text ++ " " ++ timeOfDayText second

/-- The clock as a day of the calendar. -/
def dateText : WorldM Trouble Value := orNote "Date" do
  let (date, _) ← ofExcept (calendar (← readClock))
  return date.text

/-! ## sleeping -/

/-- How long to sleep: not less than nothing and at most an hour. -/
def sleepSeconds (v : Value) : Except Trouble Number := do
  let some x := v.realNumber? | throw (.sleepType v.typeName)
  if x.compare? (.int 0) == some .lt then throw .sleepNegative
  if x.compare? (.int 3600) == some .gt then throw .sleepTooLong
  return x

/-- Let time pass. -/
def sleep (v : Value) : WorldM Trouble Value := inContext "Sleep error: " do
  let s ← ofExcept (sleepSeconds v)
  let later ← ofExcept ((← readClock).add s)
  modify fun w => { w with now := later }
  return .null

end LetCall.Library
