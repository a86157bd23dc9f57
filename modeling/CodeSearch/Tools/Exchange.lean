import CodeSearch.Json.Reader
import CodeSearch.Tools

/-!
Requests and replies on lines of text. Each line is a JSON object with a method; one with an
identifier gets a reply under the same identifier, others get none.
-/

set_option autoImplicit false

namespace CodeSearch

namespace Tool

/-- Kinds of the arguments that a call may give. -/
def argumentKinds : Tool → List (String × Json)
  | clear => [("project", .object [("type", .string "string")])]
  | index => [("path", .object [("type", .string "string")])]
  | search =>
    [("query", .object [("type", .string "string")]),
      ("projects", .object [("type", .ofStrings ["array", "null"]),
        ("items", .object [("type", .string "string")])])]

def toJson (tool : Tool) : Json :=
  .object [("name", .string tool.name), ("description", .string tool.description),
    ("inputSchema", .object [("type", .string "object"),
      ("properties", .object tool.argumentKinds), ("required", .ofStrings tool.required)])]

end Tool

namespace ToolReply

def textJson (text : String) : Json :=
  .array [.object [("type", .string "text"), ("text", .string text)]]

def refusal (code : Int) (message : String) : String × Json :=
  ("error", .object [("code", .integer code), ("message", .string message)])

/-- What a reply says, under the name of a result or an error. -/
def field? : ToolReply → Option (String × Json)
  | tools list => some ("result", .object [("tools", .array (list.map Tool.toJson))])
  | answer (.result body) =>
    some ("result", .object [("content", textJson body.pretty), ("isError", .bool false)])
  | answer (.failure text) =>
    some ("result", .object [("content", textJson text), ("isError", .bool true)])
  | empty => some ("result", .object [])
  | silence => none
  | refused code message => some (refusal code message)

end ToolReply

namespace Exchange

/-- What the session says of itself when a client comes. -/
def greeting (parameters : Json) : Json :=
  .object [("protocolVersion", parameters.get "protocolVersion"),
    ("capabilities", .object [("tools", .object [])]),
    ("serverInfo", .object [("name", .string "semdex"), ("version", .string "0.3.0")])]

def replyText (id : Json) (field : String × Json) : String :=
  (Json.object [("jsonrpc", .string "2.0"), ("id", id), field]).compact

/-- The session after a line, and the line to answer with, if there is one. -/
def answerLine (x : Session) (t : FileTree) (line : String) : Session × Option String :=
  match Json.parse? line with
  | none => (x, some (replyText .null (ToolReply.refusal (-32700) "parse error")))
  | some request =>
    match request.field? "id", request.get "method" with
    | some id, .string "initialize" =>
      (x, some (replyText id ("result", greeting (request.get "params"))))
    | some id, .string method =>
      let (x, reply) := x.reply t { method, parameters := request.get "params" }
      (x, reply.field?.map (replyText id))
    | _, _ => (x, none)

end Exchange

end CodeSearch
