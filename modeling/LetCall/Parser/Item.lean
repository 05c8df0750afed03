import LetCall.Token

/-!
# LetCall.Parser.Item

What a parser is fed.  Nearly always that is a token, but a list from elsewhere may hold
incomplete tokens and stray numbers; asking one of those for a part it does not have is
a flaw, which parsing reports like any other error.
-/

namespace LetCall

/-- Why an item cannot be asked for one of a token's parts. -/
inductive Flaw where
  /-- The item ends before that part. -/
  | incomplete
  /-- The item is a bare number. -/
  | number
  /-- There is no item. -/
  | nothing
  deriving DecidableEq, Repr

/-- A flaw in words. -/
def Flaw.message : Flaw → String
  | incomplete => "tuple index out of range"
  | number => "'int' object is not subscriptable"
  | nothing => "'NoneType' object is not subscriptable"

/-- An item of a parser's input. -/
inductive Item where
  | token (t : Token)
  /-- The first one to three parts of a token. -/
  | fragment (kind : Kind) (text : Option String) (line : Option Int)
  | stray (n : Int)
  deriving DecidableEq, Repr

namespace Item

/-- A stray zero is passed over as if nothing were there. -/
def isPresent : Item → Bool
  | stray n => n ≠ 0
  | _ => true

/-- The kind of an item. -/
def kind : Item → Except Flaw Kind
  | token t => .ok t.kind
  | fragment k _ _ => .ok k
  | stray _ => .error .number

/-- The text of an item. -/
def text : Item → Except Flaw String
  | token t => .ok t.text
  | fragment _ (some s) _ => .ok s
  | fragment _ none _ => .error .incomplete
  | stray _ => .error .number

/-- An item as a whole token. -/
def whole : Item → Except Flaw Token
  | token t => .ok t
  | fragment .. => .error .incomplete
  | stray _ => .error .number

@[simp] theorem isPresent_token (t : Token) : (token t).isPresent = true := rfl

@[simp] theorem kind_token (t : Token) : (token t).kind = .ok t.kind := rfl

@[simp] theorem text_token (t : Token) : (token t).text = .ok t.text := rfl

@[simp] theorem whole_token (t : Token) : (token t).whole = .ok t := rfl

end Item

end LetCall
