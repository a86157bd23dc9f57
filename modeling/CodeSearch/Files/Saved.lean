import CodeSearch.Files.Tree
import CodeSearch.Store.Saved

/-!
Files as bytes. A store is kept as its JSON text; the files that differ between two trees are those
that have to be written to get from one to the other.
-/

set_option autoImplicit false

namespace CodeSearch

namespace FileContent

def toBytes : FileContent → List UInt8
  | bytes data => data
  | database s => Text.utf8 s.toJson.compact.toList

/-- Bytes that are the text of a store are that store. -/
def ofBytes (data : List UInt8) : FileContent :=
  match data with
  | 0x7B :: _ =>
    match ((Text.ofUtf8? data).bind Json.parse?).bind Store.ofJson? with
    | some s => database s
    | none => bytes data
  | _ => bytes data

end FileContent

namespace FileNode

mutual

/-- Files at and below a node with their places. -/
def files (place : List String) : FileNode → List (List String × FileContent)
  | file content => [(place, content)]
  | symlink _ => []
  | directory entries => filesOf place entries

def filesOf (place : List String) :
    List (String × FileNode) → List (List String × FileContent)
  | [] => []
  | (name, node) :: rest => node.files (place ++ [name]) ++ filesOf place rest

end

def hasBytes (root : FileNode) (place : List String) (data : List UInt8) : Bool :=
  match root.at? place with
  | some (file content) => content.toBytes == data
  | _ => false

end FileNode

/-- Files of `after` that are not the same in `before`, with their bytes. -/
def FileTree.changes (before after : FileTree) : List (List String × List UInt8) :=
  ((after.root.files []).map fun (place, content) => (place, content.toBytes)).filter
    fun (place, data) => !before.root.hasBytes place data

end CodeSearch
