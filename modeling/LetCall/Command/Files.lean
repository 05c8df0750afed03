/-!
# LetCall.Command.Files

Where a command finds its source: what stands under a path, and a store of files and
directories kept in memory to look paths up in.  A path that starts at the root, or
climbs above the working directory, leads out of the store.
-/

namespace LetCall.Command

/-- What stands under a path. -/
inductive Entry where
  | missing
  | directory
  | file (bytes : List UInt8)
  /-- The path cannot even be asked for; `shown` is the path as it is reported. -/
  | nameTooLong (shown : String)
  deriving DecidableEq, Repr

/-- The steps of a path, without those that stay where they are. -/
def steps (path : String) : List String :=
  (path.splitOn "/").filter fun s => s ≠ "" ∧ s ≠ "."

/-- How a path that starts at the root is led: two slashes are kept, more count as one. -/
def rootText (path : String) : String :=
  match path.toList with
  | '/' :: '/' :: '/' :: _ => "/"
  | '/' :: '/' :: _ => "//"
  | '/' :: _ => "/"
  | _ => ""

/-- A path with its steps only. -/
def plainPath (path : String) : String :=
  let root := rootText path
  let rest := "/".intercalate (steps path)
  if root ++ rest = "" then "." else root ++ rest

/-- The longest name of a step, in bytes. -/
def nameLimit : Nat := 255

/-- The longest path, in bytes. -/
def pathLimit : Nat := 4095

/-- Files and directories in memory, by their steps from the working directory. -/
structure Store where
  files : List (List String × List UInt8)
  directories : List (List String)

namespace Store

/-- A store of files and directories given by their paths; of files under one path the
last counts. -/
def ofPaths (files : List (String × List UInt8)) (directories : List String) : Store :=
  ⟨files.reverse.map fun (p, bytes) => (steps p, bytes), directories.map steps⟩

/-- Whether there is a directory under some steps: the working directory, a given one,
or one that something given lies in. -/
def isDirectory (s : Store) (place : List String) : Bool :=
  place.isEmpty || s.directories.any (place.isPrefixOf ·) ||
    s.files.any fun (p, _) => place.isPrefixOf p && place ≠ p

/-- What stands under steps taken from a directory outside of the store, of which nothing
is known but that there are directories above it. -/
def outside (shown : String) : List String → Entry
  | [] => .directory
  | ".." :: names => outside shown names
  | name :: _ => if nameLimit < name.utf8ByteSize then .nameTooLong shown else .missing

/-- What stands under some steps, taken from a directory one after another. -/
def walk (s : Store) (shown : String) (here : List String) : List String → Entry
  | [] =>
    if s.isDirectory here then .directory
    else
      match s.files.lookup here with
      | some bytes => .file bytes
      | none => .missing
  | name :: names =>
    if !s.isDirectory here then .missing
    else if nameLimit < name.utf8ByteSize then .nameTooLong shown
    else if name = ".." then
      if here.isEmpty then outside shown names else walk s shown here.dropLast names
    else walk s shown (here ++ [name]) names

/-- What stands under a path. -/
def entry (s : Store) (path : String) : Entry :=
  let shown := plainPath path
  if path.contains '\x00' then .missing
  else if pathLimit < shown.utf8ByteSize then .nameTooLong shown
  else if path.startsWith "/" then outside shown (steps path)
  else s.walk shown [] (steps path)

end Store

end LetCall.Command
