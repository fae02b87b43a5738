import JassOutline.CommandLine.Console

/-!
# Command lines

The words of a command line ask for one of two commands: to outline a file, or to run tests. Words
are read from left to right, and the first one that is wrong or asks for help decides.

Options of the whole program may stand anywhere, and count before the name of the command as they do
behind it. Where the name of a command is missing, the outline of a file is asked for.

Bridge lemma: `withCommand_of_command` says that a line which names its command is left alone.
-/

namespace JassOutline.CommandLine

/-- Options that are given or not. -/
inductive Switch where
  | noColor
  | verbose
  | check
  | ast
  | listBlocks
  | expanded
  | macros
  | zinc
  | listCategories
  deriving DecidableEq, Repr

/-- Whether the switch belongs to the whole program, and not to a command. -/
def Switch.isCommon (s : Switch) : Bool :=
  s == noColor || s == verbose

/-- What an option is. -/
inductive OptionKind where
  | switch (s : Switch)
  /-- Takes the path of a settings file. -/
  | config
  /-- Takes the name of a category. -/
  | category
  | help
  | version
  deriving DecidableEq, Repr

/-- The commands. -/
inductive CommandName where
  | outline
  | test
  deriving DecidableEq, Repr

/-- What was asked for. -/
inductive Command where
  /-- Outline a file. The switches are those of the command, which select what is shown. -/
  | outline (file : String) (switches : List Switch)
  /-- Run the tests at a path, of the given categories if there are any. -/
  | test (path : String) (categories : List String)
  /-- List the categories of the tests at a path. -/
  | listCategories (path : String)
  deriving DecidableEq, Repr

/-- A command, how it writes to the standard error, and the settings file to read before. -/
structure Request where
  display : Display
  config : Option String
  command : Command
  deriving DecidableEq, Repr

/-- Why there is no command to run. -/
inductive Stop where
  | usage
  | help
  | version
  deriving DecidableEq, Repr

/-! ### The name of the command -/

/-- The words that name a command. -/
def commandWords : List String := ["outline", "test", "help"]

/-- The options whose value is the word behind them. -/
def valueOptions : List String := ["--config", "-c", "--category"]

/-- Whether the word is an option. -/
def isOption (word : String) : Bool :=
  word.toList.head? == some '-'

/-- The words with `outline` before the first one that is neither an option nor the value of one,
unless that one names a command. -/
def withCommand : List String → List String
  | [] => []
  | word :: rest =>
    if valueOptions.contains word then
      match rest with
      | [] => [word]
      | value :: rest => word :: value :: withCommand rest
    else if isOption word then word :: withCommand rest
    else if commandWords.contains word then word :: rest
    else "outline" :: word :: rest

theorem withCommand_of_command {word : String} (h : word ∈ commandWords) (rest : List String) :
    withCommand (word :: rest) = word :: rest := by
  have hvalue : valueOptions.contains word = false := by
    simp only [commandWords, List.mem_cons, List.not_mem_nil, or_false] at h
    rcases h with rfl | rfl | rfl <;> decide
  have hoption : isOption word = false := by
    simp only [commandWords, List.mem_cons, List.not_mem_nil, or_false] at h
    rcases h with rfl | rfl | rfl <;> decide
  unfold withCommand
  rw [hvalue, hoption]
  simp [h]

/-! ### Options -/

/-- Options known everywhere, by their long names. -/
def commonOption? : String → Option OptionKind
  | "no-color" => some (.switch .noColor)
  | "verbose" => some (.switch .verbose)
  | "config" => some .config
  | "help" => some .help
  | _ => none

/-- The option with a long name before the command or behind the name of one. -/
def longOption? (scope : Option CommandName) (name : String) : Option OptionKind :=
  commonOption? name <|>
    match scope, name with
    | none, "version" => some .version
    | some .outline, "check" => some (.switch .check)
    | some .outline, "ast" => some (.switch .ast)
    | some .outline, "list-blocks" => some (.switch .listBlocks)
    | some .outline, "expanded" => some (.switch .expanded)
    | some .outline, "macros" => some (.switch .macros)
    | some .outline, "zinc" => some (.switch .zinc)
    | some .test, "category" => some .category
    | some .test, "list-categories" => some (.switch .listCategories)
    | _, _ => none

/-- The option with a short name. -/
def shortOption? (scope : Option CommandName) (name : Char) : Option OptionKind :=
  match scope, name with
  | _, 'v' => some (.switch .verbose)
  | _, 'h' => some .help
  | none, 'V' => some .version
  | some .test, 'c' => some .category
  | _, _ => none

/-! ### Reading words -/

/-- What the words of one part of a command line give. -/
structure Given where
  switches : List Switch
  config : Option String
  categories : List String
  operands : List String
  deriving DecidableEq, Repr

namespace Given

/-- Nothing is given. -/
def nothing : Given := ⟨[], none, [], []⟩

/-- One more switch, which must be new. -/
def addSwitch (given : Given) (s : Switch) : Except Stop Given :=
  if given.switches.contains s then .error .usage
  else .ok { given with switches := given.switches ++ [s] }

/-- The value of an option. There is one settings file and any number of categories. -/
def addValue (given : Given) (kind : OptionKind) (value : String) : Except Stop Given :=
  match kind with
  | .config =>
    if given.config.isSome then .error .usage else .ok { given with config := some value }
  | .category => .ok { given with categories := given.categories ++ [value] }
  | _ => .error .usage

/-- A word that belongs to no option. Commands take one. -/
def addOperand (given : Given) (word : String) : Except Stop Given :=
  if given.operands.isEmpty then .ok { given with operands := [word] } else .error .usage

end Given

/-- Whether the word can be the value of the option before it. -/
def isValue (word : String) : Bool :=
  !isOption word || word == "-"

/-- What the short options in one word give. An option that takes a value takes the rest of the
word, or else needs the next one and is returned. -/
def readShort (scope : Option CommandName) (given : Given) :
    List Char → Except Stop (Given × Option OptionKind)
  | [] => .ok (given, none)
  | name :: rest =>
    match shortOption? scope name with
    | none => .error .usage
    | some .help => .error .help
    | some .version => .error .version
    | some (.switch s) => do readShort scope (← given.addSwitch s) rest
    | some kind =>
      match rest with
      | [] => .ok (given, some kind)
      | '=' :: value => do .ok (← given.addValue kind (String.ofList value), none)
      | value => do .ok (← given.addValue kind (String.ofList value), none)

/-- What a long option gives. One that takes a value and has none in its word needs the next one
and is returned. -/
def readLong (scope : Option CommandName) (given : Given) (name : String)
    (value : Option String) : Except Stop (Given × Option OptionKind) :=
  match longOption? scope name, value with
  | none, _ => .error .usage
  | some .help, none => .error .help
  | some .version, none => .error .version
  | some (.switch s), none => do .ok (← given.addSwitch s, none)
  | some kind, some value => do .ok (← given.addValue kind value, none)
  | some kind, none => .ok (given, some kind)

/-- The name of a long option and what follows an equals sign in its word. -/
def splitLong (word : List Char) : String × Option String :=
  let name := word.takeWhile (· != '=')
  match word.drop name.length with
  | [] => (String.ofList name, none)
  | _ :: value => (String.ofList name, some (String.ofList value))

/-- Reads one option, which is a word that starts with a hyphen. -/
def readOption (scope : Option CommandName) (given : Given) (word : String) :
    Except Stop (Given × Option OptionKind) :=
  match word.toList with
  | '-' :: '-' :: name =>
    let (name, value) := splitLong name
    readLong scope given name value
  | _ :: names => readShort scope given names
  | [] => .error .usage

/-- Reads the words behind the name of a command. `pending?` is an option that needs its value. -/
def readWords (scope : CommandName) (given : Given) (pending? : Option OptionKind) :
    List String → Except Stop Given
  | [] => if pending?.isSome then .error .usage else .ok given
  | word :: rest =>
    match pending? with
    | some kind =>
      if isValue word then do readWords scope (← given.addValue kind word) none rest
      else .error .usage
    | none =>
      if word = "--" then rest.foldlM Given.addOperand given
      else if isValue word then do readWords scope (← given.addOperand word) none rest
      else do
        let (given, pending?) ← readOption (some scope) given word
        readWords scope given pending? rest

/-- The command that the given parts make up. -/
def toCommand (name : CommandName) (given : Given) : Except Stop Command :=
  match given.operands with
  | operand :: _ =>
    match name with
    | .outline => .ok (.outline operand (given.switches.filter (!·.isCommon)))
    | .test =>
      if given.switches.contains .listCategories then .ok (.listCategories operand)
      else .ok (.test operand given.categories)
  | [] => .error .usage

/-- How to write to the standard error. -/
def displayOf (switches : List Switch) : Display where
  noColor := switches.contains .noColor
  verbose := switches.contains .verbose

/-- Reads the words from the name of a command on, behind the given options. Those of the whole
program count on both sides of the name, and of two settings files the one behind it. -/
def readCommand (before : Given) (name : CommandName) (words : List String) :
    Except Stop Request := do
  let given ← readWords name .nothing none words
  let command ← toCommand name given
  .ok { display := displayOf (before.switches ++ given.switches)
        config := given.config <|> before.config
        command }

/-- What a request for help about the given commands ends with. -/
def readHelp (words : List String) : Stop :=
  match words with
  | [] => .help
  | [word] => if commandWords.contains word then .help else .usage
  | _ => .usage

/-- Reads the words of a command line that names its command. -/
def readFrom (given : Given) (pending? : Option OptionKind) :
    List String → Except Stop Request
  | [] => .error .usage
  | word :: rest =>
    match pending? with
    | some kind =>
      if isValue word then do readFrom (← given.addValue kind word) none rest
      else .error .usage
    | none =>
      match word with
      | "outline" => readCommand given .outline rest
      | "test" => readCommand given .test rest
      | "help" => .error (readHelp rest)
      | "--" => .error .usage
      | _ =>
        if isValue word then .error .usage
        else do
          let (given, pending?) ← readOption none given word
          readFrom given pending? rest

/-- What the words of a command line ask for. -/
def readArguments (words : List String) : Except Stop Request :=
  readFrom .nothing none (withCommand words)

end JassOutline.CommandLine
