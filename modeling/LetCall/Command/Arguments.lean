import LetCall.Text.Digit

/-!
# LetCall.Command.Arguments

The words of a command line.  Options have a short and a long form; short ones may be
joined, long ones shortened as long as one remains; two dashes end the options.  A word
like a negative number, or with a blank in it, is an argument though it starts with a
dash.
-/

namespace LetCall.Command

/-- What can be asked for by an option. -/
inductive Flag where
  | help | debug | version
  deriving DecidableEq, Repr

/-- The letter of the short form. -/
def Flag.letter : Flag → Char
  | help => 'h'
  | debug => 'd'
  | version => 'v'

/-- The word of the long form. -/
def Flag.word : Flag → String
  | help => "help"
  | debug => "debug"
  | version => "version"

/-- All options. -/
def flags : List Flag := [.help, .debug, .version]

/-- The option of a letter. -/
def Flag.ofLetter? (c : Char) : Option Flag := flags.find? (·.letter = c)

/-- A word of a command line. -/
inductive Word where
  | argument (s : String)
  /-- Options, acted on one after another. -/
  | options (fs : List Flag)
  /-- An option with something attached that it does not take. -/
  | misused
  | unknownOption
  /-- Two dashes, behind which all words are arguments. -/
  | dashes
  /-- A long option shortened to nothing, which could be any. -/
  | ambiguous
  deriving DecidableEq, Repr

/-- The options joined to a short one in the same word: every letter has to be one.  An
equals sign in front of them is passed over, but may not stand alone. -/
def joined? : List Char → Option (List Flag)
  | ['='] => none
  | '=' :: letters => letters.mapM Flag.ofLetter?
  | letters => letters.mapM Flag.ofLetter?

/-- Whether a word is a negative number; a line feed may follow it. -/
def isNegativeNumber (cs : List Char) : Bool :=
  match cs with
  | '-' :: body =>
    let body := if body.getLast? = some '\n' then body.dropLast else body
    let whole := body.takeWhile Text.isDigit
    match body.dropWhile Text.isDigit with
    | [] => !whole.isEmpty
    | '.' :: fraction => !fraction.isEmpty && fraction.all Text.isDigit
    | _ => false
  | _ => false

/-- What a word that starts with a dash and names no option is. -/
def otherWord (s : String) : Word :=
  if isNegativeNumber s.toList || s.toList.contains ' ' then .argument s else .unknownOption

/-- A word that starts with two dashes, given what follows them. -/
def longOption (s : String) (body : List Char) : Word :=
  let name := body.takeWhile (· != '=')
  let attached := body.contains '='
  match flags.filter fun f => name.isPrefixOf f.word.toList with
  | [f] => if attached then .misused else .options [f]
  | [] => otherWord s
  | _ => .ambiguous

/-- A word that starts with one dash, given the letter behind it and the rest. -/
def shortOption (s : String) (letter : Char) (rest : List Char) : Word :=
  match Flag.ofLetter? letter, joined? rest with
  | some f, some fs => .options (f :: fs)
  | some _, none => .misused
  | none, _ => otherWord s

/-- What a word in front of the two dashes is. -/
def wordOf (s : String) : Word :=
  match s.toList with
  | ['-', '-'] => .dashes
  | '-' :: '-' :: body => longOption s body
  | '-' :: letter :: rest => shortOption s letter rest
  | _ => .argument s

/-- The words of a command line. -/
def wordsOf : List String → List Word
  | [] => []
  | s :: ss =>
    match wordOf s with
    | .dashes => .dashes :: ss.map .argument
    | w => w :: wordsOf ss

/-- What a command line asks for. -/
inductive Request where
  | help
  | version
  /-- Compile and run a file, or the built-in program without one. -/
  | run (debug : Bool) (file : Option String)
  | usageError
  deriving DecidableEq, Repr

/-- How far a command line has been followed. -/
structure Progress where
  debug : Bool := false
  file : Option String := none
  /-- The place of the file has been filled, possibly by nothing. -/
  filled : Bool := false
  /-- The last word filled it. -/
  justFilled : Bool := false
  /-- There was a word that nothing wants. -/
  surplus : Bool := false

/-- Act on options: asking for help or the version is answered at once. -/
def act (p : Progress) : List Flag → Progress ⊕ Request
  | [] => .inl { p with justFilled := false }
  | .help :: _ => .inr .help
  | .version :: _ => .inr .version
  | .debug :: fs => act { p with debug := true } fs

/-- Follow the words of a command line; surplus words count only at its end. -/
def follow (p : Progress) : List Word → Request
  | [] => if p.surplus then .usageError else .run p.debug p.file
  | .options fs :: ws =>
    match act p fs with
    | .inl p => follow p ws
    | .inr r => r
  | .misused :: _ | .ambiguous :: _ => .usageError
  | .unknownOption :: ws => follow { p with surplus := true, justFilled := false } ws
  | .dashes :: ws =>
    -- next to the file the dashes are dropped with it, elsewhere they are surplus
    if p.filled && !p.justFilled then follow { p with surplus := true } ws else follow p ws
  | .argument s :: ws =>
    if p.filled then follow { p with surplus := true, justFilled := false } ws
    else follow { p with file := some s, filled := true, justFilled := true } ws

/-- What a command line asks for; an ambiguous word is found before any is acted on. -/
def requestOf (argv : List String) : Request :=
  let words := wordsOf argv
  if words.contains .ambiguous then .usageError else follow {} words

end LetCall.Command
