import LetCall.Parser.Error

/-!
# LetCall.Parser.Reader

Reading items one after another.  A reader either gives a result or fails, and in both
cases the cursor stays where it got to.

Main statements: what `Reader.expect` does at a token of the kind (`expect_token_self`),
at another token (`expect_token_ne`) and at the end (`expect_nil`).
-/

namespace LetCall

/-- Where a parser stands: the items still to be read, and how many have been. -/
structure Cursor where
  rest : List Item
  pos : Nat := 0
  deriving DecidableEq, Repr

namespace Cursor

/-- The item at the cursor, unless it is passed over. -/
def current? (c : Cursor) : Option Item := c.rest.head?.filter Item.isPresent

/-- The item behind the one at the cursor, unless it is passed over. -/
def next? (c : Cursor) : Option Item := c.rest.tail.head?.filter Item.isPresent

/-- Nothing is left to be read. -/
def atEnd (c : Cursor) : Bool := c.rest.isEmpty

/-- The cursor moved past one item. -/
def moved (c : Cursor) : Cursor := ⟨c.rest.tail, c.pos + 1⟩

/-- The cursor moved past the current item, if there is one. -/
def advanced (c : Cursor) : Cursor := if c.current?.isSome then c.moved else c

@[simp] theorem current?_token (t : Token) (rest : List Item) (pos : Nat) :
    (mk (.token t :: rest) pos).current? = some (.token t) := rfl

@[simp] theorem current?_nil (pos : Nat) : (mk [] pos).current? = none := rfl

@[simp] theorem advanced_token (t : Token) (rest : List Item) (pos : Nat) :
    (mk (.token t :: rest) pos).advanced = ⟨rest, pos + 1⟩ := rfl

@[simp] theorem advanced_nil (pos : Nat) : (mk [] pos).advanced = ⟨[], pos⟩ := rfl

end Cursor

/-- A reader of items. -/
abbrev Reader := EStateM Failure Cursor

namespace Reader

/-- Run a reader from a cursor. -/
def fromCursor {α : Type} (f : Cursor → Reader α) : Reader α := do f (← get)

/-- Fail with a flaw. -/
def flaw {α : Type} (f : Flaw) : Reader α := throw (.flaw f)

/-- Take a part of an item, which may be flawed. -/
def part {α : Type} : Except Flaw α → Reader α
  | .ok a => pure a
  | .error f => flaw f

/-- Fail, with no token at fault. -/
def fail {α : Type} (cause : SyntaxError.Cause) : Reader α := throw (.syntaxError ⟨cause, none⟩)

/-- Fail at an item, which has to be a whole token to say where it stands. -/
def failAt {α : Type} (cause : SyntaxError.Cause) (i : Item) : Reader α := do
  let t ← part i.whole
  throw (.syntaxError ⟨cause, some t⟩)

/-- `peek`: the item at the cursor. -/
def current? : Reader (Option Item) := return (← get).current?

/-- `advance`: move past the item at the cursor and give it. -/
def advance : Reader (Option Item) := do
  let c ← get
  set c.advanced
  return c.rest.head?

/-- Move past the item at the cursor and give it; there has to be one. -/
def take : Reader Item := do
  match ← advance with
  | some i => return i
  | none => flaw .nothing

/-- `match`: whether the item at the cursor is of one of some kinds. -/
def looksAt (kinds : List Kind) : Reader Bool := do
  match ← current? with
  | none => return false
  | some i => return kinds.contains (← part i.kind)

/-- `expect`: read an item of a given kind. -/
def expect (want : Kind) : Reader Item := do
  match ← current? with
  | none => fail (.expectedAtEnd want)
  | some i =>
    let got ← part i.kind
    if got ≠ want then failAt (.expected want got (← part i.text)) i
    take

/-! ## readers at a token and at the end -/

@[simp] theorem looksAt_token (kinds : List Kind) (t : Token) (rest : List Item) (pos : Nat) :
    looksAt kinds ⟨.token t :: rest, pos⟩ =
      .ok (kinds.contains t.kind) ⟨.token t :: rest, pos⟩ := rfl

@[simp] theorem looksAt_nil (kinds : List Kind) (pos : Nat) :
    looksAt kinds ⟨[], pos⟩ = .ok false ⟨[], pos⟩ := rfl

theorem expect_token_self (t : Token) (rest : List Item) (pos : Nat) :
    expect t.kind ⟨.token t :: rest, pos⟩ = .ok (.token t) ⟨rest, pos + 1⟩ := by
  change (ite (t.kind ≠ t.kind) _ _ : Reader Item) _ = _
  rw [if_neg (by simp)]
  rfl

theorem expect_token_ne {want : Kind} {t : Token} (h : t.kind ≠ want) (rest : List Item) (pos : Nat) :
    expect want ⟨.token t :: rest, pos⟩ =
      .error (.syntaxError ⟨.expected want t.kind t.text, some t⟩) ⟨.token t :: rest, pos⟩ := by
  change (ite (t.kind ≠ want) _ _ : Reader Item) _ = _
  rw [if_pos h]
  rfl

theorem expect_nil (want : Kind) (pos : Nat) :
    expect want ⟨[], pos⟩ = .error (.syntaxError ⟨.expectedAtEnd want, none⟩) ⟨[], pos⟩ := rfl

/-! ## larger pieces -/

/-- Read an item of a given kind and give its text. -/
def expectText (want : Kind) : Reader String := do part (← expect want).text

/-- Read a name: an item of kind `ident` whose text is not empty. -/
def expectName (cause : SyntaxError.Cause) : Reader String := do
  let i ← expect .ident
  let name ← part i.text
  if name = "" then failAt cause i
  return name

/-- Run a reader; a flaw in it becomes an error of a construct. -/
def within {α : Type} (construct : Construct) (r : Reader α) : Reader α :=
  tryCatch r fun
    | .flaw f => fail (.flawed construct f)
    | e => throw e

/-- The kinds at which reading can be taken up again after an error. -/
def boundaries : List Kind := [.semi, .rbrace, .int, .void, .importWord, .version]

/-- Pass over items up to one at which reading can be taken up again. -/
def skipToBoundary : List Item → Nat → EStateM.Result Failure Cursor Unit
  | [], pos => .ok () ⟨[], pos⟩
  | i :: rest, pos =>
    match i.kind with
    | .error f => .error (.flaw f) ⟨i :: rest, pos⟩
    | .ok k => if boundaries.contains k then .ok () ⟨i :: rest, pos⟩ else skipToBoundary rest (pos + 1)

/-- The loop of `synchronize`. -/
def synchronize : Reader Unit := fun c => skipToBoundary c.rest c.pos

end Reader

end LetCall
