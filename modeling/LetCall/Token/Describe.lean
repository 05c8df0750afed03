import LetCall.Trouble
import LetCall.Value

/-!
# LetCall.Token.Describe

A token in words, for messages: its kind, its text and where it stands.  Any four values
will do for its parts.
-/

namespace LetCall

/-- Four parts in words. -/
def describeParts : List Value → Except Trouble String
  | [kind, text, line, column] => do
    let part (v : Value) : Except Trouble String :=
      match v.text? with
      | some s => .ok s
      | none => .error .tooManyDigits
    return (← part kind) ++ "('" ++ (← part text) ++ "') at line " ++ (← part line) ++
      ", column " ++ (← part column)
  | parts => .error (if parts.length < 4 then .tooFewParts parts.length else .tooManyParts)

end LetCall
