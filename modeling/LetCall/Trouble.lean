/-!
# LetCall.Trouble

Why an operation on values fails: the causes, the category each belongs to, and
the one place where they are put into words.
-/

namespace LetCall

/-- Categories of failure. -/
inductive Trouble.Category where
  | type | value | zeroDivision | overflow | memory | system | runtime
  deriving DecidableEq, Repr

/-- A division whose divisor is zero. -/
inductive ZeroDivision where
  | quotient | floatQuotient | complexQuotient | remainder | floatRemainder
  | negativePower | complexPower
  deriving DecidableEq, Repr

/-- A call with the wrong number of arguments. -/
inductive ArityError where
  /-- Some parameters are left without an argument. -/
  | missing (function : String) (parameters : List String)
  /-- More arguments than the most the function takes. -/
  | tooMany (function : String) (least most given : Nat)
  /-- Not the one argument that is wanted. -/
  | notOne (function : String) (given : Nat)
  /-- No argument where one at least is wanted. -/
  | none (function : String)
  /-- Neither one nor two arguments. -/
  | notOneOrTwo (function : String)
  /-- The argument that is wanted first is missing. -/
  | first (function parameter : String)
  /-- More than the most, counted without the least. -/
  | atMost (function : String) (most given : Nat)
  deriving DecidableEq, Repr

/-- A template that does not fit what is to be filled in. -/
inductive TemplateError where
  | unused
  | notEnough
  | realWanted (conversion : Char) (got : String)
  | integerWanted (conversion : Char) (got : String)
  | characterWanted
  | characterRange
  | unknown (conversion : Char) (index : Nat)
  | incomplete
  | mapping
  | listKey
  | incompleteKey
  | star
  /-- An integer beyond the range of a width or precision. -/
  | starTooLarge (range : String)
  | widthTooBig
  | precisionTooBig
  | precisionTooLarge
  deriving DecidableEq, Repr

/-- Why an operation fails. -/
inductive Trouble where
  | operands (operator left right : String)
  | concatenate (sequence other : String)
  | repetition (count : String)
  | unary (operator operand : String)
  | notReal (got : String)
  | unordered (operator left right : String)
  | notIterable (got : String)
  | emptySequence (function : String)
  | notRoundable (got : String)
  | notInteger (got : String)
  | arity (e : ArityError)
  | zeroDivision (z : ZeroDivision)
  | mathDomain
  | mathRange
  | nanToInteger
  | infinityToInteger
  | integerTooLarge
  | quotientTooLarge
  | powerTooLarge
  | complexPowerTooLarge
  | magnitudeTooLarge
  | roundedTooLarge
  | tooManyDigits
  | countTooLarge
  | repeatedTooLong
  | outOfMemory
  | template (e : TemplateError)
  | startIndex (got : String)
  | endIndex (got : String)
  | sleepType (got : String)
  | sleepNegative
  | sleepTooLong
  | clockFailure
  | daysTooMany (days : Int)
  | daysBeyondRange
  | dateOutOfRange
  | brokenOutput
  | tooFewParts (got : Nat)
  | tooManyParts
  | raisedType (message : String)
  | raisedRuntime (message : String)
  | raisedValue (message : String)
  /-- A failure that an operation reports as its own, led by `context`. -/
  | within (context : String) (inner : Trouble)
  deriving DecidableEq, Repr

namespace Trouble

def zeroDivisionText : ZeroDivision → String
  | .quotient => "division by zero"
  | .floatQuotient => "float division by zero"
  | .complexQuotient => "complex division by zero"
  | .remainder => "integer modulo by zero"
  | .floatRemainder => "float modulo"
  | .negativePower => "0.0 cannot be raised to a negative power"
  | .complexPower => "0.0 to a negative or complex power"

/-- Names in a sentence: `a`, `a and b`, `a, b, and c`. -/
def enumerate : List String → String
  | [] => ""
  | [a] => a
  | [a, b] => a ++ " and " ++ b
  | as => ", ".intercalate as.dropLast ++ ", and " ++ as.getLastD ""

def plural (n : Nat) (word : String) : String := if n = 1 then word else word ++ "s"

/-- A wrong number of arguments in words. -/
def arityText : ArityError → String
  | .missing f ps =>
    let n := ps.length
    let names := enumerate (ps.map fun p => s!"'{p}'")
    let arguments := plural n "argument"
    s!"{f}() missing {n} required positional {arguments}: {names}"
  | .tooMany f least most given =>
    let range := if least = most then s!"{most}" else s!"from {least} to {most}"
    let arguments := plural most "argument"
    let were := if given = 1 then "was" else "were"
    s!"{f}() takes {range} positional {arguments} but {given} {were} given"
  | .notOne f given => s!"{f}() takes exactly one argument ({given} given)"
  | .none f => s!"{f} expected at least 1 argument, got 0"
  | .notOneOrTwo f => s!"{f} requires 1 to 2 arguments"
  | .first f p => s!"{f}() missing required argument '{p}' (pos 1)"
  | .atMost f most given => s!"{f}() takes at most {most} arguments ({given} given)"

/-- A character as a message shows it: a question mark if it is not plain ASCII. -/
def plain (c : Char) : Char := if 31 ≤ c.toNat ∧ c.toNat ≤ 126 then c else '?'

/-- A character code in lower-case hexadecimal. -/
def codeText (c : Char) : String := "0x" ++ String.ofList (Nat.toDigits 16 c.toNat)

/-- A template that does not fit, in words. -/
def templateText : TemplateError → String
  | .unused => "not all arguments converted during string formatting"
  | .notEnough => "not enough arguments for format string"
  | .realWanted c got => s!"%{c} format: a real number is required, not {got}"
  | .integerWanted c got => s!"%{c} format: an integer is required, not {got}"
  | .characterWanted => "%c requires int or char"
  | .characterRange => "%c arg not in range(0x110000)"
  | .unknown c index => s!"unsupported format character '{plain c}' ({codeText c}) at index {index}"
  | .incomplete => "incomplete format"
  | .mapping => "format requires a mapping"
  | .listKey => "list indices must be integers or slices, not str"
  | .incompleteKey => "incomplete format key"
  | .star => "* wants int"
  | .starTooLarge range => s!"Python int too large to convert to C {range}"
  | .widthTooBig => "width too big"
  | .precisionTooBig => "precision too big"
  | .precisionTooLarge => "precision too large"

/-- A failure in words. -/
def message : Trouble → String
  | operands op l r => s!"unsupported operand type(s) for {op}: '{l}' and '{r}'"
  | concatenate seq other => s!"can only concatenate {seq} (not \"{other}\") to {seq}"
  | repetition t => s!"can't multiply sequence by non-int of type '{t}'"
  | unary op t => s!"bad operand type for {op}: '{t}'"
  | notReal t => s!"must be real number, not {t}"
  | unordered op l r => s!"'{op}' not supported between instances of '{l}' and '{r}'"
  | notIterable t => s!"'{t}' object is not iterable"
  | emptySequence f => s!"{f}() arg is an empty sequence"
  | notRoundable t => s!"type {t} doesn't define __round__ method"
  | notInteger t => s!"'{t}' object cannot be interpreted as an integer"
  | arity e => arityText e
  | zeroDivision z => zeroDivisionText z
  | mathDomain => "math domain error"
  | mathRange => "math range error"
  | nanToInteger => "cannot convert float NaN to integer"
  | infinityToInteger => "cannot convert float infinity to integer"
  | integerTooLarge => "int too large to convert to float"
  | quotientTooLarge => "integer division result too large for a float"
  | powerTooLarge => "(34, 'Numerical result out of range')"
  | complexPowerTooLarge => "complex exponentiation"
  | magnitudeTooLarge => "absolute value too large"
  | roundedTooLarge => "rounded value too large to represent"
  | tooManyDigits =>
    "Exceeds the limit (4300 digits) for integer string conversion; " ++
      "use sys.set_int_max_str_digits() to increase the limit"
  | countTooLarge => "cannot fit 'int' into an index-sized integer"
  | repeatedTooLong => "repeated string is too long"
  | outOfMemory => ""
  | template e => templateText e
  | startIndex t => s!"Start index must be integer, got {t}"
  | endIndex t => s!"End index must be integer, got {t}"
  | sleepType t => s!"Sleep duration must be numeric, got {t}"
  | sleepNegative => "Sleep duration cannot be negative"
  | sleepTooLong => "Sleep duration cannot exceed 1 hour"
  | clockFailure => "clock failure"
  | daysTooMany days => s!"days={days}; must have magnitude <= 999999999"
  | daysBeyondRange => "Python int too large to convert to C int"
  | dateOutOfRange => "date value out of range"
  | brokenOutput => ""
  | tooFewParts got => s!"not enough values to unpack (expected 4, got {got})"
  | tooManyParts => "too many values to unpack (expected 4)"
  | raisedType m | raisedRuntime m | raisedValue m => m
  | within context inner => context ++ inner.message

/-- The category a failure belongs to. -/
def category : Trouble → Category
  | operands .. | concatenate .. | repetition _ | unary .. | notReal _ | unordered ..
  | notIterable _ | notRoundable _ | notInteger _ | arity _
  | startIndex _ | endIndex _ | sleepType _ | raisedType _ => .type
  | zeroDivision _ => .zeroDivision
  | emptySequence _ | mathDomain | nanToInteger | tooManyDigits | sleepNegative | sleepTooLong
  | raisedValue _ | tooFewParts _ | tooManyParts => .value
  | mathRange | infinityToInteger | integerTooLarge | quotientTooLarge | powerTooLarge
  | complexPowerTooLarge | magnitudeTooLarge | roundedTooLarge | countTooLarge | repeatedTooLong
  | daysTooMany _ | daysBeyondRange | dateOutOfRange => .overflow
  | template (.unknown ..) | template .incomplete | template .incompleteKey | template .widthTooBig
  | template .precisionTooBig => .value
  | template .characterRange | template .precisionTooLarge | template (.starTooLarge _) => .overflow
  | template _ => .type
  | outOfMemory => .memory
  | clockFailure | brokenOutput => .system
  | raisedRuntime _ | within .. => .runtime

end Trouble

end LetCall
