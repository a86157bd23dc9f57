import CodeSearch.Chunking.Outline
import CodeSearch.Chunking.Passages
import CodeSearch.Files.Tree

/-!
Chunks of a file. Its extension decides whether it is cut along its parse tree or as plain text; a
grammar that cannot be loaded leaves plain text. A file that cannot be read or parsed has no chunks.
-/

set_option autoImplicit false

namespace CodeSearch

/-- Why a text has no chunks along a parse tree. -/
inductive ChunkError where
  | noGrammar (language : Language) (reason : String)
  | noTree (language : Language)
deriving DecidableEq, Repr

def ChunkError.message : ChunkError → String
  | noGrammar language reason =>
    "grammar for " ++ language.name ++ " could not be loaded: " ++ reason
  | noTree language => language.name ++ " parser produced no tree"

abbrev Parser := Language → String → Except ChunkError ParseTree

inductive ChunkStrategy where
  | outline (language : Language)
  | passages
deriving DecidableEq, Repr

namespace ChunkStrategy

def ofPath (path : String) : ChunkStrategy :=
  match Language.ofPath? path with
  | some language => outline language
  | none => passages

def name : ChunkStrategy → String
  | outline language => language.name
  | passages => "fallback"

end ChunkStrategy

namespace Chunking

/-- Chunks of a text, or why there are none. There is no result where the chunks of its tree have
none. -/
def ofText? (parse : Parser) (limits : ChunkLimits) (filePath text : String) :
    ChunkStrategy → Option (Except ChunkError (List Chunk))
  | .passages => some (.ok (Passages.chunks limits filePath text.toList))
  | .outline language =>
    match parse language text with
    | .ok tree =>
      (Outline.chunks? (Source.ofText text.toList) limits filePath language tree).map .ok
    | .error (.noGrammar _ _) => some (.ok (Passages.chunks limits filePath text.toList))
    | .error e => some (.error e)

/-- Chunks of a file under a project; no result where those of its text have none. -/
def ofFile? (parse : Parser) (t : FileTree) (limits : ChunkLimits) (projectId : Option Int)
    (path : String) : Option (List Chunk) :=
  match t.readText path with
  | .error _ => some []
  | .ok text => do
    match ← ofText? parse limits (Path.withSlashes path) text (.ofPath path) with
    | .ok chunks => return chunks.map fun c => { c with projectId }
    | .error _ => return []

end Chunking

end CodeSearch
