import LetCall.Value
import LetCall.World

/-!
# LetCall.Library.Output

Printing values.  The arguments are converted before anything is written, so either all
of them appear, with single spaces between, or only a note on what went wrong.
-/

namespace LetCall.Library

/-- Convert all values for printing; the first that cannot be is the failure. -/
def printedAll : List Value → Except Trouble (List String)
  | [] => .ok []
  | v :: vs =>
    match v.printed? with
    | none => .error .tooManyDigits
    | some t => (printedAll vs).map (t :: ·)

/-- The first run of characters beyond ASCII: where it starts, and its characters. -/
def firstForeignRun (s : String) : Nat × List Char :=
  let ascii := s.toList.takeWhile (·.toNat < 128)
  (ascii.length, (s.toList.drop ascii.length).takeWhile (128 ≤ ·.toNat))

/-- What is wrong with a text on a device that accepts ASCII only, if anything is. -/
def encodingTrouble? (s : String) : Option String :=
  match firstForeignRun s with
  | (_, []) => none
  | (i, [c]) =>
    let code := String.ofList (Text.escapeCode c)
    some s!"'ascii' codec can't encode character '{code}' in position {i}: ordinal not in range(128)"
  | (i, run) =>
    let last := i + run.length - 1
    some s!"'ascii' codec can't encode characters in position {i}-{last}: ordinal not in range(128)"

/-- Write pieces up to the first that the device refuses; report why it did. -/
def writeAscii (w : World) : List String → World × Option String
  | [] => (w, none)
  | p :: ps =>
    match encodingTrouble? p with
    | some e => (w, some e)
    | none => writeAscii (w.write p) ps

/-- Print values, followed by `ending`. -/
def print (ending : String) (vs : List Value) : WorldM Trouble Value := do
  let w ← get
  match printedAll vs with
  | .error e =>
    -- the note goes to the same output, and a broken one fails here
    if w.device = .broken then throw .brokenOutput
    set (w.write (s!"[Print Error: {e.message}]" ++ ending))
  | .ok texts =>
    match w.device with
    | .anyText => set (w.write (" ".intercalate texts ++ ending))
    | .broken => pure ()
    | .ascii =>
      match writeAscii w (texts.intersperse " " ++ [ending]) with
      | (w', none) => set w'
      | (w', some e) => set (w'.write (s!"[Encoding Error: {e}]" ++ ending))
  return .null

end LetCall.Library
