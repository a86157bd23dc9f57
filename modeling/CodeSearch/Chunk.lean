import CodeSearch.Digest.Sha256
import CodeSearch.Text.Utf8

/-!
Chunks: pieces of one file with the lines they come from. The hash of a chunk is what the store
tells chunks apart by.
-/

set_option autoImplicit false

namespace CodeSearch

/-- Size limits of chunking, in characters. -/
structure ChunkLimits where
  /-- Longest chunk that is made from several parts. -/
  maxSize : Nat := 1536
  /-- A chunk with less ink than this is merged with the next. -/
  minInk : Nat := 50
deriving DecidableEq, Repr

def textKind : String := "text"

/-- Lines are counted from one, both ends included. -/
structure Chunk where
  content : String
  filePath : String
  startLine : Nat
  endLine : Nat
  kind : String
  language : String
  hash : String
  size : Nat
  projectId : Option Int
deriving DecidableEq, Repr

/-- What the hash of a span is taken of: its fields with a zero byte between neighbours. -/
def spanKey (filePath : String) (startLine endLine : Nat) (content : List Char) : List UInt8 :=
  Text.utf8 filePath.toList ++ 0 :: (Text.utf8 (Nat.toDigits 10 startLine) ++
    0 :: (Text.utf8 (Nat.toDigits 10 endLine) ++ 0 :: Text.utf8 content))

/-- Hash of a chunk that knows its place: the same text elsewhere has another hash. -/
def spanHash (filePath : String) (startLine endLine : Nat) (content : List Char) : String :=
  Digest.Sha256.hexDigest (spanKey filePath startLine endLine content)

/-- Hash of a chunk by its text alone. -/
def textHash (text : List Char) : String := Digest.Sha256.hexDigest (Text.utf8 text)

end CodeSearch
