import LetCall.Value.Number

/-!
# LetCall.Value.Template

Filling in a text template.  A percent sign starts a directive: flags, a width, a
precision and the letter of a conversion; two percent signs stand for one.  One value
is filled in; a list may also be left unused.
-/

namespace LetCall.Template

open Numeric

/-! ## directives -/

/-- How a converted text is laid out. -/
structure Directive where
  left : Bool := false
  plus : Bool := false
  space : Bool := false
  alternate : Bool := false
  zero : Bool := false
  width : Nat := 0
  precision : Option Nat := none
  conversion : Char
  /-- Where in the template the conversion letter stands. -/
  index : Nat

/-- Read the flags in front of a directive. -/
def readFlags (d : Directive) : List Char → Directive × List Char
  | '-' :: cs => readFlags { d with left := true } cs
  | '+' :: cs => readFlags { d with plus := true } cs
  | ' ' :: cs => readFlags { d with space := true } cs
  | '#' :: cs => readFlags { d with alternate := true } cs
  | '0' :: cs => readFlags { d with zero := true } cs
  | cs => (d, cs)

/-- Read a run of ASCII digits as a number. -/
def readWidth (cs : List Char) : Nat × List Char :=
  ((cs.takeWhile Char.isDigit).foldl (fun n c => 10 * n + (c.toNat - 48)) 0,
    cs.dropWhile Char.isDigit)

/-- Take a width or precision from the arguments, which uses up the one there is: it has
to be an integer of less than so many bits beside its sign. -/
def takeWidth (bits : Nat) (range : String) : Option Value → Except Trouble Unit
  | none => .error (.template .notEnough)
  | some v =>
    match v.integer? with
    | none => .error (.template .star)
    | some n =>
      if n < -(twoPow bits : Int) ∨ (twoPow bits : Int) ≤ n then
        .error (.template (.starTooLarge range))
      else .ok ()

/-- Whether so many open parentheses are closed again. -/
def closes : Nat → List Char → Bool
  | 0, _ => true
  | _ + 1, [] => false
  | depth + 1, '(' :: cs => closes (depth + 2) cs
  | depth + 1, ')' :: cs => closes depth cs
  | depth + 1, _ :: cs => closes (depth + 1) cs

/-- What is wrong with a name in parentheses in front of a directive: no value here has
named parts. -/
def nameTrouble (cs : List Char) : Value → Trouble
  | .list _ => if closes 1 cs then .template .listKey else .template .incompleteKey
  | _ => .template .mapping

/-- Read a width: a number, or a star that uses up the argument. -/
def readWidthPart (argument : Option Value) :
    List Char → Except Trouble (Nat × Option Value × List Char)
  | '*' :: cs => do
    takeWidth 63 "ssize_t" argument
    return (0, none, cs)
  | cs => do
    let (width, cs) := readWidth cs
    if twoPow 63 ≤ width then throw (.template .widthTooBig)
    return (width, argument, cs)

/-- Read a precision behind its point: a number, or a star that uses up the argument. -/
def readPrecisionPart (argument : Option Value) :
    List Char → Except Trouble (Option Nat × Option Value × List Char)
  | '.' :: '*' :: cs => do
    takeWidth 31 "int" argument
    return (none, none, cs)
  | '.' :: cs => do
    let (precision, cs) := readWidth cs
    if twoPow 31 ≤ precision then throw (.template .precisionTooBig)
    return (some precision, argument, cs)
  | cs => return (none, argument, cs)

/-- Read a directive behind its percent sign: `size` is the length of the template, `v`
the value to be filled in and `argument` the same unless it has been used.  The result
has what is left of the argument and of the template. -/
def readDirective (size : Nat) (v : Value) (argument : Option Value) (cs : List Char) :
    Except Trouble (Directive × Option Value × List Char) := do
  if cs.head? = some '(' then throw (nameTrouble cs.tail v)
  let (d, cs) := readFlags ⟨false, false, false, false, false, 0, none, '%', 0⟩ cs
  let (width, argument, cs) ← readWidthPart argument cs
  let (precision, argument, cs) ← readPrecisionPart argument cs
  -- a length letter before the conversion is allowed and means nothing
  let cs := match cs with
    | 'h' :: r | 'l' :: r | 'L' :: r => r
    | _ => cs
  match cs with
  | [] => throw (.template .incomplete)
  | c :: rest =>
    let d := { d with width := width, precision := precision, conversion := c }
    return ({ d with index := size - cs.length }, argument, rest)

/-! ## conversions -/

/-- Pad a text to the width of its directive. -/
def pad (d : Directive) (s : String) : String :=
  let fill := String.ofList (List.replicate (d.width - s.length) ' ')
  if d.left then s ++ fill else fill ++ s

/-- Lay out a number: its sign, what stands between sign and digits, and its digits. -/
def padNumber (d : Directive) (negative : Bool) (lead digits : String) : String :=
  let sign := if negative then "-" else if d.plus then "+" else if d.space then " " else ""
  if d.zero && !d.left then
    let zeros := List.replicate (d.width - (sign ++ lead ++ digits).length) '0'
    sign ++ lead ++ String.ofList zeros ++ digits
  else pad d (sign ++ lead ++ digits)

/-- Check that an integer can be written with the digits that the precision asks for. -/
def checkPrecision (d : Directive) : Except Trouble Unit :=
  if twoPow 31 - 4 < d.precision.getD 0 then .error (.template .precisionTooLarge) else .ok ()

/-- Digits led by zeros up to the precision. -/
def atLeast (d : Directive) (digits : String) : String :=
  String.ofList (List.replicate (d.precision.getD 0 - digits.length) '0') ++ digits

/-- Convert to a decimal integer; a float loses its fraction. -/
def convertDecimal (d : Directive) (v : Value) : Except Trouble String := do
  let n ←
    match v.realNumber? with
    | some (.int n) => pure n
    | some (.float x) =>
      match parts x with
      | .nan => throw .nanToInteger
      | .infinite _ => throw .infinityToInteger
      | .finite negative m e =>
        let (n, den) := scale m e
        pure (if negative then -((n / den : Nat) : Int) else ((n / den : Nat) : Int))
    | _ => throw (.template (.realWanted d.conversion v.typeName))
  checkPrecision d
  if (intText? n).isNone then throw .tooManyDigits
  return padNumber d (n < 0) "" (atLeast d (decimalDigits n.natAbs))

/-- Convert to an integer in base eight or sixteen. -/
def convertBase (d : Directive) (v : Value) : Except Trouble String := do
  match v.integer? with
  | some n =>
    checkPrecision d
    let base := if d.conversion = 'o' then 8 else 16
    let digits := String.ofList (Nat.toDigits base n.natAbs)
    let lead := if d.alternate then "0" ++ d.conversion.toString else ""
    let digits := if d.conversion = 'X' then digits.map Char.toUpper else digits
    return padNumber d (n < 0) lead (atLeast d digits)
  | none => throw (.template (.integerWanted d.conversion v.typeName))

/-- A positive quotient with `places` digits behind the first, and an exponent. -/
def scientific (places n d : Nat) : String :=
  if n = 0 then
    let zeros := String.ofList (List.replicate places '0')
    (if places = 0 then "0" else "0." ++ zeros) ++ "e+00"
  else
    let k := log10Quotient n d
    let (n', d') := scaleDown n d (k - places)
    let q := roundDiv n' d'
    -- rounding up may add a digit
    let (q, k) := if digitCount q > places + 1 then (q / 10, k + 1) else (q, k)
    let ds := Nat.toDigits 10 q
    (if places = 0 then String.ofList ds else String.ofList (placePoint ds 1)) ++ exponentText k

/-- The exponent of the first digit of a positive quotient rounded to `count` digits. -/
def roundedExponent (count n d : Nat) : Int :=
  if n = 0 then 0
  else
    let k := log10Quotient n d
    let (n', d') := scaleDown n d (k - count + 1)
    if digitCount (roundDiv n' d') > count then k + 1 else k

/-- Drop zeros at the end of a fraction, and its point if nothing else is left. -/
def trimFraction (s : String) : String :=
  if s.contains '.' then
    let rev := s.toList.reverse.dropWhile (· == '0')
    String.ofList (rev.dropWhile (· == '.')).reverse
  else s

/-- Change the part of a number in front of its exponent. -/
def onMantissa (f : String → String) (s : String) : String :=
  f (String.ofList (s.toList.takeWhile (· != 'e'))) ++
    String.ofList (s.toList.dropWhile (· != 'e'))

/-- Make sure that a number has a point. -/
def ensurePoint (s : String) : String := if s.contains '.' then s else s ++ "."

/-- A positive quotient with `count` significant digits, in the shorter notation. -/
def general (count n d : Nat) : String :=
  let count := max count 1
  let k := roundedExponent count n d
  if -4 ≤ k ∧ k < count then fixedQuotient (count - 1 - k).toNat n d
  else scientific (count - 1) n d

/-- A positive quotient in the notation of a conversion; the alternate form keeps the
point and the zeros at the end. -/
def floatDigits (style : Char) (alternate : Bool) (places n d : Nat) : String :=
  let s :=
    match style with
    | 'f' => fixedQuotient places n d
    | 'e' => scientific places n d
    | _ => general places n d
  if alternate then onMantissa ensurePoint s
  else if style = 'g' then onMantissa trimFraction s
  else s

/-- Convert to a float in fixed, scientific or general notation. -/
def convertFloat (d : Directive) (v : Value) : Except Trouble String := do
  let x ←
    match v.realNumber? with
    | some (.int n) => Number.floatOfInt n
    | some (.float x) => pure x
    | _ => throw (.notReal v.typeName)
  let places := d.precision.getD 6
  let (negative, digits) :=
    match parts x with
    | .nan => (false, "nan")
    | .infinite negative => (negative, "inf")
    | .finite negative m e =>
      let (n, den) := scale m e
      (negative, floatDigits d.conversion.toLower d.alternate places n den)
  let digits := if d.conversion.isUpper then digits.map Char.toUpper else digits
  return padNumber d negative "" digits

/-- Convert to one character. -/
def convertChar (d : Directive) (v : Value) : Except Trouble String := do
  match v with
  | .str s => if s.length = 1 then return pad d s else throw (.template .characterWanted)
  | _ =>
    match v.integer? with
    | some n =>
      if 0 ≤ n ∧ n < 0x110000 then return pad d (Char.ofNat n.toNat).toString
      else throw (.template .characterRange)
    | none => throw (.template .characterWanted)

/-- A text, refused if the value holds an integer that is too long. -/
def textOf (t : Option String) : Except Trouble String :=
  match t with
  | some s => .ok s
  | none => .error .tooManyDigits

/-- Cut a text to the precision of its directive. -/
def truncate (d : Directive) (s : String) : String :=
  match d.precision with
  | some p => String.ofList (s.toList.take p)
  | none => s

/-- Write characters beyond ASCII by their codes. -/
def asciiOnly (s : String) : String :=
  String.ofList (s.toList.flatMap fun c => if c.toNat < 128 then [c] else Text.escapeCode c)

/-- Convert a value as its directive says, whatever its width. -/
def convertFreely (d : Directive) (v : Value) : Except Trouble String :=
  match d.conversion with
  | 's' => do return pad d (truncate d (← textOf v.text?))
  | 'r' => do return pad d (truncate d (← textOf v.shown?))
  | 'a' => do return pad d (truncate d (asciiOnly (← textOf v.shown?)))
  | 'd' | 'i' | 'u' => convertDecimal d v
  | 'o' | 'x' | 'X' => convertBase d v
  | 'e' | 'E' | 'f' | 'F' | 'g' | 'G' => convertFloat d v
  | 'c' => convertChar d v
  | c => .error (.template (.unknown c d.index))

/-- Convert a value as its directive says; a width that no memory holds is refused. -/
def convert (d : Directive) (v : Value) : Except Trouble String := do
  if twoPow 32 < d.width then
    let _ ← convertFreely { d with width := 0 } v
    throw .outOfMemory
  convertFreely d v

/-! ## templates -/

/-- Fill in the rest of a template: `argument` is `v` unless it has been used. -/
def fill (size : Nat) (v : Value) :
    Nat → Option Value → List Char → Except Trouble (List Char × Option Value)
  | 0, argument, cs => .ok (cs, argument)
  | _ + 1, argument, [] => .ok ([], argument)
  | fuel + 1, argument, '%' :: '%' :: cs => do
    let (out, argument) ← fill size v fuel argument cs
    return ('%' :: out, argument)
  | fuel + 1, argument, '%' :: cs => do
    let (d, argument, rest) ← readDirective size v argument cs
    match argument with
    | none => throw (.template .notEnough)
    | some _ =>
      let s ← convert d v
      let (out, argument) ← fill size v fuel none rest
      return (s.toList ++ out, argument)
  | fuel + 1, argument, c :: cs => do
    let (out, argument) ← fill size v fuel argument cs
    return (c :: out, argument)

/-- Fill a value into a template: it has to be used, unless it is a list. -/
def format (template : String) (v : Value) : Except Trouble String := do
  let cs := template.toList
  let (out, unused) ← fill cs.length v cs.length (some v) cs
  match unused, v with
  | some _, .list _ | none, _ => return String.ofList out
  | some _, _ => throw (.template .unused)

end LetCall.Template
