import CodeSearch.Chunking.Passages
import CodeSearch.Embedding.Provider

/-!
Embedding many texts. The texts go out in requests of a fixed size, all at once, and the answers
are put together in the order of the texts.
-/

set_option autoImplicit false

namespace CodeSearch

structure EmbeddingClient where
  provider : Provider
  batchSize : Nat := 10

namespace EmbeddingClient

def requests (c : EmbeddingClient) (texts : List String) : List (List String) :=
  groupsOf c.batchSize texts

/-- Reason given when a worker died. -/
def crashReason : String := "the worker crashed"

def hasCrash (replies : List Reply) : Bool :=
  replies.any fun
    | .crashed => true
    | _ => false

/-- Vectors of all replies in order, or the error of the first that failed. -/
def collect : List Reply → Except EmbedError (List Vec)
  | [] => .ok []
  | .vectors vs :: rest =>
    match collect rest with
    | .ok more => .ok (vs ++ more)
    | .error e => .error e
  | .failed e :: _ => .error e
  | .crashed :: _ => .error (.worker crashReason)

/-- A crash outweighs every failure, and a failure a wrong number of vectors. -/
def combine (expected : Nat) (replies : List Reply) : Except EmbedError (List Vec) :=
  if hasCrash replies then .error (.worker crashReason)
  else match collect replies with
    | .error e => .error e
    | .ok vectors =>
      if vectors.length = expected then .ok vectors
      else .error (.countMismatch expected vectors.length)

/-- One vector for each text, or an error. -/
def embedTexts (c : EmbeddingClient) (texts : List String) : Except EmbedError (List Vec) :=
  if texts.isEmpty then .ok []
  else combine texts.length ((c.requests texts).map c.provider.answer)

def embedChunks (c : EmbeddingClient) (chunks : List StoredChunk) :
    Except EmbedError (List Vec) :=
  c.embedTexts (chunks.map fun k => embeddingText k.filePath k.kind k.content)

def embedQuery (c : EmbeddingClient) (query : String) : Except EmbedError Vec :=
  match c.embedTexts [query] with
  | .error e => .error e
  | .ok [] => .error (.invalidResponse "no embedding returned")
  | .ok (v :: _) => .ok v

end EmbeddingClient

end CodeSearch
