import CodeSearch.Json.Reader
import CodeSearch.Json.Record
import CodeSearch.Store.Basic

/-!
Stores as JSON. Rows are arrays of their fields in order, and the components of vectors are written
by their bits, so a store reads back as it was.
-/

set_option autoImplicit false

namespace CodeSearch

def Project.toJson (p : Project) : Json :=
  .array [.integer p.id, .string p.name, .string p.path, .ofOption .string p.description]

def Project.ofJson? : Json → Option Project
  | .array [.integer id, .string name, .string path, .null] => some ⟨id, name, path, none⟩
  | .array [.integer id, .string name, .string path, .string description] =>
    some ⟨id, name, path, some description⟩
  | _ => none

def StoredChunk.toJson (c : StoredChunk) : Json :=
  .array [.integer c.id, .integer c.projectId, .string c.content, .string c.filePath,
    .ofNat c.startLine, .ofNat c.endLine, .string c.kind, .string c.language, .string c.hash,
    .ofNat c.size]

def StoredChunk.ofJson? : Json → Option StoredChunk
  | .array [.integer id, .integer projectId, .string content, .string filePath, startLine, endLine,
      .string kind, .string language, .string hash, size] => do
    return {
      id, projectId, content, filePath, kind, language, hash
      startLine := ← startLine.nat?
      endLine := ← endLine.nat?
      size := ← size.nat? }
  | _ => none

def Embedding.toJson (e : Embedding) : Json :=
  .array (.integer e.chunkId :: e.vector.map fun x => .ofNat x.toBits.toNat)

def Embedding.ofJson? : Json → Option Embedding
  | .array (.integer chunkId :: components) => do
    return { chunkId, vector := (← components.mapM Json.nat?).map fun n => .ofBits (.ofNat n) }
  | _ => none

namespace Store

/-- Tells saved stores from other JSON. -/
def savedMark : String := "code search store"

def toJson (s : Store) : Json :=
  .object [("format", .string savedMark), ("dimensions", .ofNat s.dimensions),
    ("projects", .array (s.projects.map Project.toJson)),
    ("chunks", .array (s.chunks.map StoredChunk.toJson)),
    ("embeddings", .array (s.embeddings.map Embedding.toJson)),
    ("last_project", .integer s.lastProjectId), ("last_chunk", .integer s.lastChunkId)]

def ofJson? (j : Json) : Option Store := do
  match j.get "format", j.get "last_project", j.get "last_chunk" with
  | .string mark, .integer lastProjectId, .integer lastChunkId =>
    if mark = savedMark then
      return {
        lastProjectId, lastChunkId
        dimensions := ← (j.get "dimensions").nat?
        projects := ← Json.list? Project.ofJson? (j.get "projects")
        chunks := ← Json.list? StoredChunk.ofJson? (j.get "chunks")
        embeddings := ← Json.list? Embedding.ofJson? (j.get "embeddings") }
    else none
  | _, _, _ => none

end Store

end CodeSearch
