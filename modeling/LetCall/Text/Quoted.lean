import LetCall.Text.Printable

/-!
# LetCall.Text.Quoted

Texts as they are shown inside other values: between quotes, with the quote, the
backslash and whatever does not print escaped.  Single quotes are used unless the
text holds one and no double quote.
-/

namespace LetCall.Text

/-- Lower-case hexadecimal digits, at least `width` of them. -/
def hexDigits (width n : Nat) : List Char :=
  let ds := Nat.toDigits 16 n
  List.replicate (width - ds.length) '0' ++ ds

/-- A character by its code, in the shortest of the three forms that holds it. -/
def escapeCode (c : Char) : List Char :=
  let n := c.toNat
  if n ≤ 0xff then '\\' :: 'x' :: hexDigits 2 n
  else if n ≤ 0xffff then '\\' :: 'u' :: hexDigits 4 n
  else '\\' :: 'U' :: hexDigits 8 n

/-- One character inside quotes. -/
def escapeChar (quote c : Char) : List Char :=
  if c = quote ∨ c = '\\' then ['\\', c]
  else if c = '\n' then ['\\', 'n']
  else if c = '\r' then ['\\', 'r']
  else if c = '\t' then ['\\', 't']
  else if isPrintable c then [c]
  else escapeCode c

/-- The quote that goes around a text. -/
def quoteFor (cs : List Char) : Char :=
  if cs.contains '\'' && !cs.contains '"' then '"' else '\''

/-- A text between quotes. -/
def quoted (s : String) : String :=
  let q := quoteFor s.toList
  String.ofList (q :: s.toList.flatMap (escapeChar q) ++ [q])

end LetCall.Text
