import CodeSearch.Session
import CodeSearch.Text.Quoted

/-!
The tools that a session offers to programs: indexing, searching and clearing. A tool answers with
a JSON value or with the text of an error; requests that reach no tool are refused with a code.
-/

set_option autoImplicit false

namespace CodeSearch

inductive Tool where
  | clear
  | index
  | search
deriving DecidableEq, Repr

namespace Tool

def all : List Tool := [clear, index, search]

def name : Tool → String
  | clear => "code-clear"
  | index => "code-index"
  | search => "code-search"

def ofName? (name : String) : Option Tool := all.find? fun tool => tool.name == name

def description : Tool → String
  | clear => "Remove all indexed chunks and embeddings of a project."
  | index =>
    "Index a codebase: split supported source files into syntax-aware chunks, embed them and " ++
      "store them under a project named after the directory. Unchanged chunks are skipped on " ++
      "re-index."
  | search =>
    "Search indexed code with a natural language query. Returns ranked chunks with file, line " ++
      "span, similarity and nearby context."

def required : Tool → List String
  | clear => ["project"]
  | index => ["path"]
  | search => ["query"]

end Tool

/-! ## Arguments -/

/-- What is wrong with the arguments of a call. -/
inductive ArgumentFault where
  | missing (name : String)
  /-- A value of another kind than `expected`. -/
  | wrongKind (found : Json) (expected : String)

namespace ArgumentFault

/-- What a value is, and which one where that can be said briefly. -/
def describe : Json → String
  | .null | .unreadable => "null"
  | .bool value => "boolean `" ++ (if value then "true" else "false") ++ "`"
  | .integer value => "integer `" ++ toString value ++ "`"
  | .real value => "floating point `" ++ Decimal.plainText value ++ "`"
  | .string text => "string " ++ Text.quote text
  | .array _ => "sequence"
  | .object _ => "map"

def message : ArgumentFault → String
  | missing name => "missing field `" ++ name ++ "`"
  | wrongKind found expected =>
    "invalid type: " ++ describe found ++ ", expected " ++ expected

end ArgumentFault

inductive ToolCall where
  | clear (project : String)
  | index (path : String)
  /-- No list of projects means all of them. -/
  | search (query : String) (projects : List String)
deriving DecidableEq, Repr

namespace ToolCall

def readText : Json → Except ArgumentFault String
  | .string text => .ok text
  | found => .error (.wrongKind found "a string")

/-- Null stands for the empty list. -/
def readTexts : Json → Except ArgumentFault (List String)
  | .null => .ok []
  | .array items => items.mapM readText
  | found => .error (.wrongKind found "a sequence")

def needed {α : Type} (name : String) (read : Json → Except ArgumentFault α)
    (arguments : Json) : Except ArgumentFault α :=
  match arguments.field? name with
  | none => .error (.missing name)
  | some value => read value

/-- Reads the arguments of a call; others than those that the tool knows do not count. -/
def read (arguments : Json) : Tool → Except ArgumentFault ToolCall
  | .clear => (needed "project" readText arguments).map clear
  | .index => (needed "path" readText arguments).map index
  | .search =>
    match readTexts (arguments.get "projects") with
    | .error e => .error e
    | .ok projects => (needed "query" readText arguments).map fun query => search query projects

end ToolCall

/-! ## Calls -/

inductive ToolAnswer where
  | result (body : Json)
  | failure (text : String)

namespace ToolAnswer

def failureJson (f : FileFailure) : Json :=
  .object [("file", .string f.file), ("error", .string f.error.message)]

def reportJson (path : String) (r : IndexReport) : Json :=
  .object [("path", .string path), ("total_files", .ofNat r.total),
    ("processed_files", .ofNat r.processed), ("failed_files", .ofNat r.failed),
    ("errors", .array (r.failures.map failureJson))]

def contextJson (c : StoredChunk) : Json :=
  .object [("start_line", .ofNat c.startLine), ("end_line", .ofNat c.endLine),
    ("content", .string c.content)]

def resultJson (r : SearchResult Float) : Json :=
  .object [("rank", .ofNat r.rank), ("file", .string r.chunk.filePath),
    ("start_line", .ofNat r.chunk.startLine), ("end_line", .ofNat r.chunk.endLine),
    ("node_type", .string r.chunk.kind), ("language", .string r.chunk.language),
    ("similarity", .real r.similarity), ("relevance_score", .real r.relevance),
    ("content", .string r.chunk.content), ("context", .array (r.context.map contextJson))]

def pageJson (query : String) (page : List (SearchResult Float)) : Json :=
  .object [("query", .string query), ("results", .array (page.map resultJson))]

end ToolAnswer

namespace Session

/-- A message with those of its causes, on one line. -/
def oneLine (chain : List String) : String := String.intercalate ": " chain

def callIndex (x : Session) (t : FileTree) (path : String) : Session × ToolAnswer :=
  if Text.isBlank path.toList then (x, .failure "path is required")
  else match x.indexer with
    | .error e => (x, .failure (oneLine e.chain))
    | .ok indexer =>
      let (store, result) := indexer.index t x.store path
      ({ x with store }, match result with
        | .error e => .failure ("indexing failed: " ++ e.message)
        | .ok report => .result (ToolAnswer.reportJson path report))

def callSearch? (x : Session) (query : String) (projects : List String) : Option ToolAnswer :=
  if Text.isBlank query.toList then some (.failure "query is required")
  else (x.search? query { x.settings.searchOptions with projects }).map fun result =>
    match result with
    | .error e => .failure e.message
    | .ok page => .result (ToolAnswer.pageJson query page)

def callClear (x : Session) (project : String) : Session × ToolAnswer :=
  if Text.isBlank project.toList then (x, .failure "project is required")
  else match x.indexer with
    | .error e => (x, .failure (oneLine e.chain))
    | .ok _ =>
      let (store, result) := x.store.clear project
      ({ x with store }, match result with
        | .error e => .failure e.message
        | .ok removed => .result
            (.object [("project", .string project), ("removed_chunks", .ofNat removed)]))

/-- Calls a tool; a search may have no answer. -/
def call (x : Session) (t : FileTree) : ToolCall → Session × Option ToolAnswer
  | .clear project => (x.callClear project).map id some
  | .index path => (x.callIndex t path).map id some
  | .search query projects => (x, x.callSearch? query projects)

end Session

/-! ## Requests -/

structure ToolRequest where
  method : String
  parameters : Json

inductive ToolReply where
  | tools (list : List Tool)
  | answer (a : ToolAnswer)
  /-- There is nothing to say, and nothing wrong either. -/
  | empty
  /-- The call has no answer, so its request is never replied to. -/
  | silence
  | refused (code : Int) (message : String)

namespace ToolReply

def unknownMethod (method : String) : ToolReply := refused (-32601) method

def invalidParameters (message : String) : ToolReply := refused (-32602) message

end ToolReply

namespace ToolRequest

/-- Methods whose answer is always empty. -/
def emptyMethods : List String :=
  ["ping", "prompts/list", "resources/list", "resources/templates/list"]

/-- Name and arguments of a call; no arguments are the same as an empty record. -/
def nameAndArguments? (parameters : Json) : Option (String × Json) :=
  match parameters.get "name", parameters.get "arguments" with
  | .string name, .null => some (name, .object [])
  | .string name, .object fields => some (name, .object fields)
  | _, _ => none

end ToolRequest

namespace Session

/-- Calls the tool of a name, if there is one and the arguments are right. -/
def callByName (x : Session) (t : FileTree) (name : String) (arguments : Json) :
    Session × ToolReply :=
  match Tool.ofName? name with
  | none => (x, .invalidParameters "tool not found")
  | some tool =>
    match ToolCall.read arguments tool with
    | .error e => (x, .invalidParameters ("failed to deserialize parameters: " ++ e.message))
    | .ok call =>
      match x.call t call with
      | (x, some a) => (x, .answer a)
      | (x, none) => (x, .silence)

def reply (x : Session) (t : FileTree) (r : ToolRequest) : Session × ToolReply :=
  if r.method = "tools/list" then (x, .tools Tool.all)
  else if r.method = "tools/call" then
    match ToolRequest.nameAndArguments? r.parameters with
    | some (name, arguments) => x.callByName t name arguments
    | none => (x, .unknownMethod r.method)
  else if ToolRequest.emptyMethods.contains r.method then (x, .empty)
  else (x, .unknownMethod r.method)

def replies (x : Session) (t : FileTree) : List ToolRequest → Session × List ToolReply
  | [] => (x, [])
  | r :: rest =>
    let (x, first) := x.reply t r
    let (x, others) := x.replies t rest
    (x, first :: others)

end Session

end CodeSearch
