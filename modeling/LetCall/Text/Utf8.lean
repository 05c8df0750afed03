/-!
# LetCall.Text.Utf8

Reading bytes as text.  Bytes that are no text are reported with the place and extent of
the first fault; line ends of every kind become line feeds.
-/

namespace LetCall.Text

/-- Why bytes are no text. -/
inductive Utf8Fault where
  | startByte | continuationByte | unexpectedEnd
  deriving DecidableEq, Repr

/-- A fault in words. -/
def Utf8Fault.text : Utf8Fault → String
  | startByte => "invalid start byte"
  | continuationByte => "invalid continuation byte"
  | unexpectedEnd => "unexpected end of data"

/-- The first fault in some bytes: which, the byte it starts at, its place and extent. -/
structure Utf8Error where
  fault : Utf8Fault
  byte : UInt8
  position : Nat
  extent : Nat
  deriving DecidableEq, Repr

/-- Two lower-case hexadecimal digits. -/
def hexByte (b : UInt8) : String :=
  let ds := Nat.toDigits 16 b.toNat
  String.ofList (if ds.length < 2 then '0' :: ds else ds)

/-- The error in words. -/
def Utf8Error.message (e : Utf8Error) : String :=
  let place :=
    if e.extent = 1 then s!"byte 0x{hexByte e.byte} in position {e.position}"
    else s!"bytes in position {e.position}-{e.position + e.extent - 1}"
  s!"'utf-8' codec can't decode {place}: {e.fault.text}"

/-- Bytes that continue a character. -/
def isContinuation (b : UInt8) : Bool := 0x80 ≤ b && b < 0xc0

/-- How many bytes the character takes that a byte starts; `none` if it starts none. -/
def sequenceLength (b : UInt8) : Option Nat :=
  if b < 0x80 then some 1
  else if b < 0xc2 then none
  else if b < 0xe0 then some 2
  else if b < 0xf0 then some 3
  else if b < 0xf5 then some 4
  else none

/-- Whether a byte may come second: some starts leave out codes that are too long, are
surrogates or lie beyond the last character. -/
def fitsSecond (start second : UInt8) : Bool :=
  isContinuation second &&
    (if start = 0xe0 then 0xa0 ≤ second
     else if start = 0xed then second < 0xa0
     else if start = 0xf0 then 0x90 ≤ second
     else if start = 0xf4 then second < 0x90
     else true)

/-- The code of a character given by its bytes. -/
def codeOf (start : UInt8) (tail : List UInt8) : Nat :=
  let lead :=
    match tail.length with
    | 0 => start.toNat
    | 1 => start.toNat % 32
    | 2 => start.toNat % 16
    | _ => start.toNat % 8
  tail.foldl (fun n b => 64 * n + b.toNat % 64) lead

/-- How many of the bytes behind a start fit it, of `count` wanted. -/
def fitting (start : UInt8) (count : Nat) : List UInt8 → Nat
  | [] => 0
  | second :: rest =>
    if count = 0 then 0
    else if fitsSecond start second then 1 + ((rest.take (count - 1)).takeWhile isContinuation).length
    else 0

/-- Read bytes as characters, the first byte being number `position`. -/
def decodeFrom (position : Nat) : List UInt8 → Except Utf8Error (List Char)
  | [] => .ok []
  | b :: bs =>
    match sequenceLength b with
    | none => .error ⟨.startByte, b, position, 1⟩
    | some size =>
      let want := size - 1
      let got := fitting b want bs
      if got = want then
        (decodeFrom (position + size) (bs.drop want)).map (Char.ofNat (codeOf b (bs.take want)) :: ·)
      else if got = bs.length then .error ⟨.unexpectedEnd, b, position, bs.length + 1⟩
      else .error ⟨.continuationByte, b, position, got + 1⟩
termination_by bs => bs.length
decreasing_by rw [List.length_drop, List.length_cons]; omega

/-- Line feeds in place of carriage returns and of those followed by a line feed. -/
def unifyLineEnds : List Char → List Char
  | '\r' :: '\n' :: cs => '\n' :: unifyLineEnds cs
  | '\r' :: cs => '\n' :: unifyLineEnds cs
  | c :: cs => c :: unifyLineEnds cs
  | [] => []

/-- Bytes as a text with line feeds at its line ends. -/
def readText (bytes : List UInt8) : Except Utf8Error String :=
  (decodeFrom 0 bytes).map fun cs => String.ofList (unifyLineEnds cs)

end LetCall.Text
