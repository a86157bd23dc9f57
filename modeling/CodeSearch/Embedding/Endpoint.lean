import CodeSearch.Embedding.Provider
import CodeSearch.Embedding.Url
import CodeSearch.Json.Reader
import CodeSearch.Json.Record
import CodeSearch.Text.Quoted

/-!
Embeddings from a remote service. A request is a JSON text sent to the service's address; the
answer lists the vectors with the places of their texts, in any order. The connection itself is a
parameter.
-/

set_option autoImplicit false

namespace CodeSearch

/-- A service, the model asked for and the width expected of its vectors. -/
structure Endpoint where
  baseUrl : String
  model : String
  apiKey : Option String
  dimensions : Nat
deriving DecidableEq, Repr

structure HttpRequest where
  url : Url
  authorization : Option String
  contentType : String
  body : String

inductive HttpOutcome where
  | unreachable
  | response (status : Nat) (body : String)

structure ResponseEntry where
  index : Nat
  embedding : Vec

namespace Endpoint

/-- Slashes at the end of the address do not count. -/
def make (baseUrl model : String) (apiKey : Option String) (dimensions : Nat) : Endpoint where
  baseUrl := String.ofList (baseUrl.toList.reverse.dropWhile (· == '/')).reverse
  model
  apiKey
  dimensions

def address (e : Endpoint) : String := e.baseUrl ++ "/embeddings"

/-- A description that leaves the key out. -/
def describe (e : Endpoint) : String :=
  "OpenAiEmbedder \x7b base_url: " ++ Text.quote e.baseUrl ++ ", model: " ++ Text.quote e.model ++
    ", dimensions: " ++ toString e.dimensions ++ ", .. \x7d"

def requestBody (e : Endpoint) (texts : List String) : Json :=
  .object [("model", .string e.model), ("input", .ofStrings texts),
    ("encoding_format", .string "float")]

/-- Whether a text may stand in a header. -/
def isHeaderText (text : String) : Bool :=
  text.toList.all fun c => (32 ≤ c.toNat && c.toNat != 127) || c == '\t'

/-- The request for some texts, or why none can be made. -/
def request (e : Endpoint) (texts : List String) : Except EmbedError HttpRequest :=
  match Url.parse? e.address with
  | none => .error (.requestFailed "builder error")
  | some url =>
    let refused := EmbedError.requestFailed ("builder error for url (" ++ url.toText ++ ")")
    if url.authority.isNone then .error refused
    else if !(e.apiKey.all isHeaderText) then .error (.requestFailed "builder error")
    else if !url.isHttp then .error refused
    else .ok
      { url
        authorization := e.apiKey.map fun key => "Bearer " ++ key
        contentType := "application/json"
        body := (e.requestBody texts).compact }

/-- An entry: a place, zero if missing, and a vector. -/
def entry? (j : Json) : Option ResponseEntry := do
  match ← j.record? ["index", "embedding"] with
  | [index, embedding] =>
    return {
      index := ← Json.orDefault 0 Json.nat? index
      embedding := ← embedding.bind (Json.list? Json.single?) }
  | _ => none

def entries? (body : String) : Option (List ResponseEntry) := do
  match ← (← Json.parse? body).record? ["data"] with
  | [data] => data.bind (Json.list? entry?)
  | _ => none

/-- Vectors of entries, unless one has another width. -/
def checkWidths (dimensions : Nat) : List ResponseEntry → Except EmbedError (List Vec)
  | [] => .ok []
  | e :: rest =>
    if e.embedding.length = dimensions then
      match checkWidths dimensions rest with
      | .ok vectors => .ok (e.embedding :: vectors)
      | .error e => .error e
    else .error (.invalidResponse ("expected " ++ toString dimensions ++ " dimensions, got " ++
      toString e.embedding.length))

/-- Vectors in the order of their places; entries of one place stay in order. -/
def vectorsOf (expected dimensions : Nat) (entries : List ResponseEntry) :
    Except EmbedError (List Vec) :=
  if entries.length = expected then
    checkWidths dimensions (entries.mergeSort fun a b => decide (a.index ≤ b.index))
  else .error (.countMismatch expected entries.length)

/-- Standard reasons of status codes. -/
def statusReasons : List (Nat × String) := [
  (100, "Continue"), (101, "Switching Protocols"), (102, "Processing"), (103, "Early Hints"),
  (200, "OK"), (201, "Created"), (202, "Accepted"), (203, "Non Authoritative Information"),
  (204, "No Content"), (205, "Reset Content"), (206, "Partial Content"), (207, "Multi-Status"),
  (208, "Already Reported"), (226, "IM Used"), (300, "Multiple Choices"),
  (301, "Moved Permanently"), (302, "Found"), (303, "See Other"), (304, "Not Modified"),
  (305, "Use Proxy"), (307, "Temporary Redirect"), (308, "Permanent Redirect"),
  (400, "Bad Request"), (401, "Unauthorized"), (402, "Payment Required"), (403, "Forbidden"),
  (404, "Not Found"), (405, "Method Not Allowed"), (406, "Not Acceptable"),
  (407, "Proxy Authentication Required"), (408, "Request Timeout"), (409, "Conflict"),
  (410, "Gone"), (411, "Length Required"), (412, "Precondition Failed"),
  (413, "Payload Too Large"), (414, "URI Too Long"), (415, "Unsupported Media Type"),
  (416, "Range Not Satisfiable"), (417, "Expectation Failed"), (418, "I'm a teapot"),
  (421, "Misdirected Request"), (422, "Unprocessable Entity"), (423, "Locked"),
  (424, "Failed Dependency"), (425, "Too Early"), (426, "Upgrade Required"),
  (428, "Precondition Required"), (429, "Too Many Requests"),
  (431, "Request Header Fields Too Large"), (451, "Unavailable For Legal Reasons"),
  (500, "Internal Server Error"), (501, "Not Implemented"), (502, "Bad Gateway"),
  (503, "Service Unavailable"), (504, "Gateway Timeout"), (505, "HTTP Version Not Supported"),
  (506, "Variant Also Negotiates"), (507, "Insufficient Storage"), (508, "Loop Detected"),
  (510, "Not Extended"), (511, "Network Authentication Required")]

def statusText (status : Nat) : String :=
  toString status ++ " " ++ ((statusReasons.find? fun r => r.1 == status).map Prod.snd).getD
    "<unknown status code>"

/-- What the outcome of a request means for its texts. -/
def readOutcome (e : Endpoint) (url : Url) (expected : Nat) :
    HttpOutcome → Except EmbedError (List Vec)
  | .unreachable =>
    .error (.requestFailed ("error sending request for url (" ++ url.toText ++ ")"))
  | .response status body =>
    if 200 ≤ status ∧ status < 300 then
      match entries? body with
      | none => .error (.invalidResponse "error decoding response body")
      | some entries => vectorsOf expected e.dimensions entries
    else .error (.requestFailed ("HTTP " ++ statusText status ++ ": " ++ body))

/-- Vectors of some texts; no request is made for none. -/
def embedBatch (e : Endpoint) (send : HttpRequest → HttpOutcome) (texts : List String) :
    Except EmbedError (List Vec) :=
  if texts.isEmpty then .ok []
  else match e.request texts with
    | .error f => .error f
    | .ok r => e.readOutcome r.url texts.length (send r)

def embed (e : Endpoint) (send : HttpRequest → HttpOutcome) (text : String) :
    Except EmbedError Vec :=
  match e.embedBatch send [text] with
  | .error f => .error f
  | .ok [] => .error (.invalidResponse "no embedding returned")
  | .ok (v :: _) => .ok v

/-- The service as a provider, over a connection. -/
def provider (e : Endpoint) (send : HttpRequest → HttpOutcome) : Provider where
  dimensions := e.dimensions
  answer texts :=
    match e.embedBatch send texts with
    | .ok vectors => .vectors vectors
    | .error f => .failed f

end Endpoint

end CodeSearch
