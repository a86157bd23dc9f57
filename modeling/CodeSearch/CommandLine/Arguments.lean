import CodeSearch.Decimal.Reader
import CodeSearch.Settings

/-!
Arguments of the program: a command with its options and values. Options are read from left to
right, and the first that is wrong ends the reading.
-/

set_option autoImplicit false

namespace CodeSearch

/-- What a search asks for beyond its query; what is missing is as the settings say. -/
structure SearchFlags where
  projects : List String := []
  languages : List String := []
  kinds : List String := []
  files : List String := []
  excludeFiles : List String := []
  limit : Option Nat := none
  threshold : Option Float := none
  diversity : Option Float := none
  contextLines : Option Nat := none
  json : Bool := false

inductive Command where
  | init (force : Bool)
  | index (path : String)
  | search (query : String) (flags : SearchFlags)
  | projects
  | clear (project : String)
  | serve

/-- A command and the path of its settings. -/
structure Invocation where
  command : Command
  settingsPath : String

inductive UsageError where
  | unknownOption (option : String)
  | unexpectedValue (option : String)
  | missingValue (option : String)
  | invalidValue (option value : String)
  | repeatedOption (option : String)
  | unexpectedArgument (argument : String)
  | missingArguments (names : List String)
  | unknownCommand (name : String)
  | noCommand
deriving DecidableEq, Repr

def UsageError.message : UsageError → String
  | unknownOption option => "unexpected option '" ++ option ++ "'"
  | unexpectedValue option => "option '--" ++ option ++ "' takes no value"
  | missingValue option => "option '--" ++ option ++ "' needs a value"
  | invalidValue option value => "invalid value '" ++ value ++ "' for '" ++ option ++ "'"
  | repeatedOption option => "option '--" ++ option ++ "' is given twice"
  | unexpectedArgument argument => "unexpected argument '" ++ argument ++ "'"
  | missingArguments names => "missing arguments: " ++ String.intercalate ", " names
  | unknownCommand name => "unknown command '" ++ name ++ "'"
  | noCommand => "a command is needed"

/-- What arguments ask for, if it is not a command. -/
inductive Interruption where
  | usage (e : UsageError)
  | help
  | version
deriving DecidableEq, Repr

namespace Arguments

inductive OptionKind where
  | flag
  | single (valid : String → Bool)
  | list

structure OptionRule where
  name : String
  kind : OptionKind

/-- A value that is given in an argument of its own. -/
structure ValueRule where
  name : String
  valid : String → Bool := fun _ => true

structure Grammar where
  options : List OptionRule := []
  values : List ValueRule := []
  isRoot : Bool := false

inductive Token where
  /-- No argument behind it is an option. -/
  | divider
  | long (name : String) (value : Option String)
  | short (letters : List Char)
  | plain (text : String)

/-- A single dash is a plain argument. -/
def tokenOf (argument : String) : Token :=
  match argument.toList with
  | ['-', '-'] => .divider
  | '-' :: '-' :: cs =>
    let name := cs.takeWhile (· != '=')
    .long (String.ofList name) ((cs.drop name.length).tail?.map String.ofList)
  | '-' :: c :: cs => .short (c :: cs)
  | _ => .plain argument

/-- Options and values read so far, newest first. -/
structure Given where
  options : List (String × String) := []
  values : List String := []

namespace Given

def all (g : Given) (name : String) : List String :=
  ((g.options.filter fun o => o.1 == name).map Prod.snd).reverse

def any (g : Given) (name : String) : Bool := g.options.any fun o => o.1 == name

def last? (g : Given) (name : String) : Option String :=
  (g.options.find? fun o => o.1 == name).map Prod.snd

end Given

/-- Notes an option. Only those that make a list may be given again. -/
def noteOption (g : Given) (rule : OptionRule) (value : String) : Except Interruption Given :=
  let noted : Given := { g with options := (rule.name, value) :: g.options }
  match rule.kind with
  | .list => .ok noted
  | .flag => if g.any rule.name then .error (.usage (.repeatedOption rule.name)) else .ok noted
  | .single valid =>
    if !valid value then .error (.usage (.invalidValue ("--" ++ rule.name) value))
    else if g.any rule.name then .error (.usage (.repeatedOption rule.name))
    else .ok noted

/-- Notes a value; none if the grammar has no further one. -/
def noteValue? (grammar : Grammar) (g : Given) (text : String) :
    Option (Except Interruption Given) :=
  (grammar.values[g.values.length]?).map fun rule =>
    if rule.valid text then .ok { g with values := text :: g.values }
    else .error (.usage (.invalidValue rule.name text))

/-- Reads arguments behind a divider. -/
def readValues (grammar : Grammar) (g : Given) : List String → Except Interruption Given
  | [] => .ok g
  | text :: rest =>
    match noteValue? grammar g text with
    | none => .error (.usage (.unexpectedArgument text))
    | some (.error e) => .error e
    | some (.ok g) => readValues grammar g rest

/-- What a long option that has no rule of its own means. -/
def builtIn (grammar : Grammar) (name : String) (value : Option String) : Interruption :=
  if name = "help" ∧ value.isNone then .help
  else if name = "version" ∧ value.isNone ∧ grammar.isRoot then .version
  else if name = "help" ∨ (name = "version" ∧ grammar.isRoot) then .usage (.unexpectedValue name)
  else .usage (.unknownOption ("--" ++ name))

/-- What letters behind a single dash mean. -/
def shortOption (grammar : Grammar) (letters : List Char) : Interruption :=
  if letters.head? = some 'h' then .help
  else if letters.head? = some 'V' ∧ grammar.isRoot then .version
  else .usage (.unknownOption (String.ofList ('-' :: letters)))

/-- Reads options and values up to the first argument that the grammar has no value for; what is
read, and the arguments from there on. `waiting` is an option whose value comes next. -/
def readFrom (grammar : Grammar) (g : Given) (waiting : Option OptionRule) :
    List String → Except Interruption (Given × List String)
  | [] =>
    match waiting with
    | some rule => .error (.usage (.missingValue rule.name))
    | none => .ok (g, [])
  | argument :: rest =>
    match tokenOf argument, waiting with
    | .plain text, some rule =>
      match noteOption g rule text with
      | .error e => .error e
      | .ok g => readFrom grammar g none rest
    | _, some rule => .error (.usage (.missingValue rule.name))
    | .divider, none => (readValues grammar g rest).map fun g => (g, [])
    | .short letters, none => .error (shortOption grammar letters)
    | .long name value, none =>
      match grammar.options.find? fun o => o.name == name with
      | none => .error (builtIn grammar name value)
      | some rule =>
        match rule.kind, value with
        | .flag, none =>
          match noteOption g rule "" with
          | .error e => .error e
          | .ok g => readFrom grammar g none rest
        | .flag, some _ => .error (.usage (.unexpectedValue name))
        | _, some value =>
          match noteOption g rule value with
          | .error e => .error e
          | .ok g => readFrom grammar g none rest
        | _, none => readFrom grammar g (some rule) rest
    | .plain text, none =>
      match noteValue? grammar g text with
      | none => .ok (g, argument :: rest)
      | some (.error e) => .error e
      | some (.ok g) => readFrom grammar g none rest

/-! ## The commands -/

/-- The path of the settings may be given before or behind the command. -/
def settingsOption : OptionRule := ⟨"config", .single fun _ => true⟩

def isNat (text : String) : Bool := (Decimal.word? text.toList).isSome

def isNumber (text : String) : Bool := (Decimal.float? text.toList).isSome

def root : Grammar where
  options := [settingsOption]
  isRoot := true

def grammarOf? (name : String) : Option Grammar :=
  match name with
  | "init" => some { options := [settingsOption, ⟨"force", .flag⟩] }
  | "index" =>
    some { options := [settingsOption], values := [{ name := "path", valid := (· != "") }] }
  | "search" => some
    { options := [settingsOption, ⟨"project", .list⟩, ⟨"limit", .single isNat⟩,
        ⟨"threshold", .single isNumber⟩, ⟨"language", .list⟩, ⟨"node-type", .list⟩,
        ⟨"file", .list⟩, ⟨"exclude-file", .list⟩, ⟨"diversity", .single isNumber⟩,
        ⟨"context-lines", .single isNat⟩, ⟨"json", .flag⟩]
      values := [{ name := "query" }] }
  | "projects" | "serve" => some { options := [settingsOption] }
  | "clear" =>
    some { options := [settingsOption], values := [{ name := "project" }] }
  | _ => none

def searchFlags (g : Given) : SearchFlags where
  projects := g.all "project"
  languages := g.all "language"
  kinds := g.all "node-type"
  files := g.all "file"
  excludeFiles := g.all "exclude-file"
  limit := (g.last? "limit").bind fun text => Decimal.word? text.toList
  threshold := (g.last? "threshold").bind fun text => Decimal.float? text.toList
  diversity := (g.last? "diversity").bind fun text => Decimal.float? text.toList
  contextLines := (g.last? "context-lines").bind fun text => Decimal.word? text.toList
  json := g.any "json"

/-- The command of a name with what was given for it; none if a value is missing. -/
def commandOf? (name : String) (g : Given) : Option Command :=
  match name, g.values with
  | "init", [] => some (.init (g.any "force"))
  | "index", [path] => some (.index path)
  | "search", [query] => some (.search query (searchFlags g))
  | "projects", [] => some .projects
  | "serve", [] => some .serve
  | "clear", [project] => some (.clear project)
  | _, _ => none

def readCommand (outer : Given) (name : String) (grammar : Grammar) (arguments : List String) :
    Except Interruption Invocation :=
  match readFrom grammar {} none arguments with
  | .error e => .error e
  | .ok (_, extra :: _) => .error (.usage (.unexpectedArgument extra))
  | .ok (g, []) =>
    match commandOf? name g with
    | none => .error (.usage (.missingArguments (grammar.values.map ValueRule.name)))
    | some command =>
      let path := (g.last? "config").orElse fun _ => outer.last? "config"
      .ok { command, settingsPath := path.getD Settings.defaultPath }

/-- What a request for help about some commands comes to. -/
def readHelp : List String → Interruption
  | [] => .help
  | [name] =>
    if name = "help" ∨ (grammarOf? name).isSome then .help else .usage (.unknownCommand name)
  | _ :: name :: _ => .usage (.unknownCommand name)

def read (arguments : List String) : Except Interruption Invocation :=
  match readFrom root {} none arguments with
  | .error e => .error e
  | .ok (_, []) => .error (.usage .noCommand)
  | .ok (outer, name :: rest) =>
    match grammarOf? name with
    | some grammar => readCommand outer name grammar rest
    | none => .error (if name = "help" then readHelp rest else .usage (.unknownCommand name))

end Arguments

end CodeSearch
