import CodeSearch.CommandLine.Arguments
import CodeSearch.Tools

/-!
The program: what each command does to the files at hand, and what it prints.
-/

set_option autoImplicit false

namespace CodeSearch

/-- What a run of the program finds around it. -/
structure CommandContext where
  out : Surroundings
  environment : Settings.Environment
  /-- When the projects were updated last, as it is shown. -/
  updated : String

/-- What a run of the program leaves and prints. -/
structure CommandResult where
  files : FileTree
  code : Nat := 0
  output : String := ""
  errors : String := ""

namespace CommandLine

/-! ## Texts -/

/-- Texts on lines of their own. -/
def lines (texts : List String) : String := String.join (texts.map (· ++ "\n"))

/-- A text in an indented place: a front before its first line, as many blanks before the others. -/
def indented (front : String) (text : String) : String :=
  let lines := (Text.splitOn ['\n'] text.toList).map String.ofList
  front ++ String.intercalate ("\n" ++ String.ofList (List.replicate front.length ' ')) lines

/-- The front of the cause of that number. -/
def causeFront (place : Nat) : String :=
  let digits := toString place
  String.ofList (List.replicate (5 - digits.length) ' ') ++ digits ++ ": "

/-- Causes one below the other, with numbers if there are several. -/
def causeLines (causes : List String) : List String :=
  match causes with
  | [cause] => [indented "    " cause]
  | _ => causes.zipIdx.map fun (cause, place) => indented (causeFront place) cause

/-- What is shown of an error with its causes. -/
def errorText : List String → String
  | [] => ""
  | [message] => "Error: " ++ message ++ "\n"
  | message :: causes =>
    "Error: " ++ message ++ "\n\nCaused by:\n" ++ lines (causeLines causes)

def padRight (width : Nat) (text : String) : String :=
  text ++ String.ofList (List.replicate (width - text.length) ' ')

def padLeft (width : Nat) (text : String) : String :=
  String.ofList (List.replicate (width - text.length) ' ') ++ text

def reportText (r : IndexReport) : String :=
  lines (("Indexed " ++ toString r.processed ++ " of " ++ toString r.total ++ " files (" ++
      toString r.failed ++ " failed)") ::
    r.failures.map fun f => "  " ++ f.file ++ ": " ++ f.error.message)

def projectLine (updated : String) (s : Store) (p : Project) : String :=
  padRight 24 p.name ++ " " ++ padLeft 7 (toString (s.countChunks (some p.id))) ++ " chunks  " ++
    p.path ++ "  (updated " ++ updated ++ ")"

def projectsText (updated : String) (s : Store) : String :=
  if s.projects.isEmpty then "No projects indexed yet.\n"
  else lines (s.projects.map (projectLine updated s))

/-- Lines of a chunk that are shown. -/
def shownCount : Nat := 8

/-- A result: where it is, how it scores, how it begins, and how many chunks are near it. -/
def resultLines (r : SearchResult Float) : List String :=
  let c := r.chunk
  let head := toString r.rank ++ ". " ++ c.filePath ++ ":" ++ toString c.startLine ++ "-" ++
    toString c.endLine ++ " [" ++ c.language ++ " " ++ c.kind ++ "] similarity " ++
    Decimal.fixedText 3 r.similarity ++ ", relevance " ++ Decimal.fixedText 3 r.relevance
  let body := ((Text.shownLines c.content.toList).take shownCount).map fun line =>
    "    " ++ String.ofList line
  let near := if r.context.isEmpty then []
    else ["    (" ++ toString r.context.length ++ " nearby chunks)"]
  head :: body ++ near ++ [""]

def pageText (page : List (SearchResult Float)) : String :=
  if page.isEmpty then "No results.\n" else lines (page.flatMap resultLines)

def chunkJson (c : StoredChunk) : Json :=
  .object [("id", .integer c.id), ("project_id", .integer c.projectId),
    ("content", .string c.content), ("file_path", .string c.filePath),
    ("start_line", .ofNat c.startLine), ("end_line", .ofNat c.endLine),
    ("node_type", .string c.kind), ("language", .string c.language), ("hash", .string c.hash),
    ("size", .ofNat c.size)]

def resultJson (r : SearchResult Float) : Json :=
  .object [("chunk", chunkJson r.chunk), ("similarity", .real r.similarity),
    ("relevance_score", .real r.relevance), ("context", .array (r.context.map chunkJson)),
    ("rank", .ofNat r.rank)]

def pageJson (page : List (SearchResult Float)) : String :=
  (Json.array (page.map resultJson)).pretty ++ "\n"

/-! ## Commands -/

/-- Either what is printed or an error with its causes. -/
abbrev Outcome := Except (List String) String

/-- Code of a run that ends where a number does not fit into a word. -/
def overflowCode : Nat := 101

/-- Writes a file of default settings, over one that exists only by force. -/
def initSettings (t : FileTree) (path : String) (force : Bool) : FileTree × Outcome :=
  if t.pathExists path && !force then
    (t, .error [path ++ " already exists (use --force to overwrite)"])
  else match Settings.save t path {} with
    | .error e => (t, .error e.chain)
    | .ok t => (t, .ok ("Wrote default configuration to " ++ path ++ "\n"))

def index (x : Session) (t : FileTree) (path : String) : Session × Outcome :=
  match x.indexer with
  | .error e => (x, .error e.chain)
  | .ok indexer =>
    let (store, result) := indexer.index t x.store path
    ({ x with store }, match result with
      | .error e => .error (("failed to index " ++ path) :: e.chain)
      | .ok report => .ok (reportText report))

/-- The options of a search: its flags in the place of what the settings say. -/
def searchOptions (settings : Settings) (f : SearchFlags) : SearchOptions Float :=
  let o := settings.searchOptions
  { o with
    projects := f.projects
    languages := f.languages
    kinds := f.kinds
    filePaths := f.files
    excludeFilePaths := f.excludeFiles
    limit := f.limit.getD o.limit
    threshold := f.threshold.getD o.threshold
    diversityFactor := f.diversity.getD o.diversityFactor
    contextLines := f.contextLines.getD o.contextLines }

def search? (x : Session) (query : String) (f : SearchFlags) : Option Outcome :=
  (x.search? query (searchOptions x.settings f)).map fun result =>
    match result with
    | .error e => .error e.chain
    | .ok page => .ok (if f.json then pageJson page else pageText page)

def clear (x : Session) (project : String) : Session × Outcome :=
  match x.indexer with
  | .error e => (x, .error e.chain)
  | .ok _ =>
    let (store, result) := x.store.clear project
    ({ x with store }, match result with
      | .error e => .error e.chain
      | .ok removed =>
        .ok ("Removed " ++ toString removed ++ " chunks from '" ++ project ++ "'\n"))

/-- What a command does in a session; a search may have no outcome. -/
def perform (updated : String) (x : Session) (t : FileTree) : Command → Session × Option Outcome
  | .init _ | .serve => (x, some (.ok ""))
  | .index path => (index x t path).map id some
  | .search query flags => (x, search? x query flags)
  | .projects => (x, some (.ok (projectsText updated x.store)))
  | .clear project => (clear x project).map id some

def startSession (ctx : CommandContext) (t : FileTree) (settingsPath : String) :
    Except (List String) (FileTree × Session) :=
  match Settings.load t ctx.environment settingsPath with
  | .error e => .error e.chain
  | .ok settings =>
    match Session.start ctx.out t settings with
    | .error e => .error e.chain
    | .ok started => .ok started

/-- Runs a command; the files after it, and what comes of it. -/
def execute (ctx : CommandContext) (t : FileTree) (i : Invocation) : FileTree × Option Outcome :=
  match i.command with
  | .init force => (initSettings t i.settingsPath force).map id some
  | command =>
    match startSession ctx t i.settingsPath with
    | .error chain => (t, some (.error chain))
    | .ok (t, x) =>
      let (x, outcome) := perform ctx.updated x t command
      (x.close t, outcome)

/-- Serves requests one after another; the files after them, and the replies. -/
def serve (ctx : CommandContext) (t : FileTree) (settingsPath : String)
    (requests : List ToolRequest) : Except (List String) (FileTree × List ToolReply) :=
  match startSession ctx t settingsPath with
  | .error chain => .error chain
  | .ok (t, x) =>
    let (x, replies) := x.replies t requests
    .ok (x.close t, replies)

def versionText : String := "semdex 0.3.0\n"

def usageText : String :=
  lines ["Usage: semdex [--config <CONFIG>] <COMMAND>", "", "Commands:",
    "  init      Write the default configuration file",
    "  index     Index every supported file under a directory",
    "  search    Search indexed code with a natural language query",
    "  projects  List indexed projects",
    "  clear     Remove all chunks of a project",
    "  serve     Offer the tools on the standard streams"]

def run (ctx : CommandContext) (t : FileTree) (arguments : List String) : CommandResult :=
  match Arguments.read arguments with
  | .error .help => { files := t, output := usageText }
  | .error .version => { files := t, output := versionText }
  | .error (.usage e) => { files := t, code := 2, errors := "error: " ++ e.message ++ "\n" }
  | .ok invocation =>
    let (files, outcome) := execute ctx t invocation
    match outcome with
    | some (.ok output) => { files, output }
    | some (.error chain) => { files, code := 1, errors := errorText chain }
    | none => { files, code := overflowCode }

end CommandLine

end CodeSearch
