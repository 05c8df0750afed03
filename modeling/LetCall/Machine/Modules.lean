import LetCall.Machine
import LetCall.Text.Alphanumeric

/-!
# LetCall.Machine.Modules

Bringing modules into the environment of a machine.
-/

namespace LetCall.Run

/-- The check `load_module` makes of a name: letters, numbers and underscores, and not the
last alone. -/
def isModuleName (name : String) : Bool :=
  let cs := name.toList.filter (· != '_')
  !cs.isEmpty && cs.all Text.isAlphanumeric

/-- Bring one of the language's own modules in (its `register`): what happens at its start,
then its names. -/
def register (m : Module) : Run Unit := do
  onWorld m.start
  modify fun s => { s with env := s.env.setAll m.exports }

/-- Bring in what is found under the name of any other module. -/
def registerFound (name : String) : Found → Run Unit
  | .nothing => fail (.module (.notFound name))
  | .noRegister => fail (.module (.nothingOffered name))
  | .withRegister f => fun m =>
    match f m.env with
    | (env, none) => .ok () { m with env }
    | (env, some message) => fail (.module (.refused name message)) { m with env }

/-- What becomes of a failure while a module is brought in. -/
def refuse (name : String) : Stop → Run Unit
  | .fault f => fail (.module (.refused name f.message))
  | s => throw s

/-- `load_module`: bring in the module of a given name. -/
def load (name : String) : Run Unit := do
  if name = "" then fail (.module .emptyName)
  if !isModuleName name then fail (.module (.invalidName name))
  match Module.ofName? name with
  | some m => tryCatch (register m) (refuse name)
  | none => registerFound name ((← get).world.modules name)

end LetCall.Run
