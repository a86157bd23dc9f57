import CodeSearch.Chunk
import CodeSearch.Language
import CodeSearch.ParseTree
import CodeSearch.Span.LineIndex
import CodeSearch.Text.Utf8
import CodeSearch.Word

/-!
Chunking along a parse tree. Children of a node are bundled greedily into spans within the size
limit; a child over the limit is bundled from its own children instead. Spans are then cut back to
where the span before them ends, trimmed, and those with little ink are merged with the next.
-/

set_option autoImplicit false

namespace CodeSearch

structure Source where
  text : List Char
  lines : Array (List Char)
  index : LineIndex

def Source.ofText (text : List Char) : Source :=
  let lines := Text.splitLines text
  { text, lines := lines.toArray, index := .ofLines lines }

namespace ParseTree

/-- Text of a node; empty where its bytes are no slice of the source. -/
def text (source : List Char) (t : ParseTree) : List Char :=
  (Text.byteSlice? source t.startByte t.endByte).getD []

/-- Rows of a node; one that ends before it starts has one row. -/
def span (t : ParseTree) : Span where
  first := t.firstRow
  last := max t.lastRow t.firstRow
  kind := t.kind

end ParseTree

namespace Outline

mutual

/-- Spans of the children of a node. -/
def bundle (source : Source) (maxSize : Nat) : ParseTree → List Span
  | .node _ _ _ _ _ children => bundleAll source maxSize none children

/-- Spans of a list of siblings; `current` is the span that the next one may join. -/
def bundleAll (source : Source) (maxSize : Nat) (current : Option Span) :
    List ParseTree → List Span
  | [] => current.toList
  | child :: rest =>
    if maxSize < (child.text source.text).length then
      let nested := bundle source maxSize child
      current.toList ++ (if nested.isEmpty then [child.span] else nested) ++
        bundleAll source maxSize none rest
    else match current with
      | none => bundleAll source maxSize (some child.span) rest
      | some span =>
        let merged := span.merge child.span
        if maxSize < source.index.extractedLength merged then
          span :: bundleAll source maxSize (some child.span) rest
        else bundleAll source maxSize (some merged) rest

end

/-- Cuts each span back to the rows after `covered`, the last row of the span kept before it, and
drops those with none left. -/
def clampFrom (covered : Option Nat) : List Span → List Span
  | [] => []
  | span :: rest =>
    match covered with
    | none => span :: clampFrom (some span.last) rest
    | some row =>
      if span.last ≤ row then clampFrom covered rest
      else { span with first := max span.first (row + 1) } :: clampFrom (some span.last) rest

def clamp (spans : List Span) : List Span := clampFrom none spans

/-- The excerpt as a list, empty if the text is blank. -/
def keep (e : Excerpt) : List Excerpt := if Text.isBlank e.text then [] else [e]

/-- Merges an excerpt with the next span while it has too little ink and the two fit. -/
def coalesceFrom (source : Source) (limits : ChunkLimits) (current : Excerpt) :
    List Span → List Excerpt
  | [] => keep current
  | next :: rest =>
    let merged := current.span.merge next
    if Text.inkCount current.text < limits.minInk ∧
        source.index.extractedLength merged ≤ limits.maxSize then
      coalesceFrom source limits (merged.extract source.lines) rest
    else keep current ++ coalesceFrom source limits (next.extract source.lines) rest

def coalesce (source : Source) (limits : ChunkLimits) : List Span → List Excerpt
  | [] => []
  | span :: rest => coalesceFrom source limits (span.extract source.lines) rest

/-- Spans before clamping; a root without children stands for itself unless it is blank. -/
def rawSpans (source : Source) (limits : ChunkLimits) (root : ParseTree) : List Span :=
  let spans := bundle source limits.maxSize root
  if spans.isEmpty && !Text.isBlank (root.text source.text) then [root.span] else spans

/-- Trimmed spans with their text, in source order. -/
def excerpts (source : Source) (limits : ChunkLimits) (root : ParseTree) : List Excerpt :=
  coalesce source limits (clamp (rawSpans source limits root))

/-- The chunk of an excerpt on the lines it comes from. -/
def chunkOn (startLine endLine : Nat) (filePath : String) (language : Language) (e : Excerpt) :
    Chunk where
  content := String.ofList e.text
  filePath
  startLine
  endLine
  kind := e.span.kind
  language := language.name
  hash := spanHash filePath startLine endLine e.text
  size := e.text.length
  projectId := none

/-- The chunk of an excerpt; none if a line number does not fit into a word. -/
def chunk? (filePath : String) (language : Language) (e : Excerpt) : Option Chunk := do
  let startLine ← Word.plus? e.span.first 1
  let endLine ← Word.plus? e.span.last 1
  return chunkOn startLine endLine filePath language e

/-- All chunks of a tree; none if one of them cannot be made. -/
def chunks? (source : Source) (limits : ChunkLimits) (filePath : String) (language : Language)
    (root : ParseTree) : Option (List Chunk) :=
  (excerpts source limits root).mapM (chunk? filePath language)

end Outline

end CodeSearch
