import CodeSearch.Discovery.Selection
import CodeSearch.Files.Tree

/-!
Finding the files to index: a walk over a directory that leaves out what patterns and ignore files
leave out, and never enters a directory that is left out. What ignore files say of a single entry,
by its names and whether it is a directory, is given.
-/

set_option autoImplicit false

namespace CodeSearch

inductive DiscoveryError where
  | notADirectory (path : String)
  | cannotResolve (path : String) (cause : FileError)
  | pattern (e : PatternError)
deriving DecidableEq, Repr

namespace DiscoveryError

def message : DiscoveryError → String
  | notADirectory path => "not a directory: " ++ path
  | cannotResolve path cause => "cannot resolve " ++ path ++ ": " ++ cause.message
  | pattern e => e.message

/-- The message and the messages of its causes. -/
def chain : DiscoveryError → List String
  | notADirectory path => [message (notADirectory path)]
  | cannotResolve path cause => [message (cannotResolve path cause), cause.message]
  | pattern e => [e.message, e.detail]

end DiscoveryError

namespace Discovery

/-- Names of the directory that a path means. -/
def resolveRoot (t : FileTree) (path : String) : Except DiscoveryError (List String) :=
  match t.resolve path with
  | .error e => .error (.cannotResolve path e)
  | .ok names =>
    match t.root.at? names with
    | some (.directory _) => .ok names
    | _ => .error (.notADirectory (Path.ofNames names))

mutual

/-- Files at and below a node; `skip` tells which entries to leave out. -/
def walk (skip : List String → Bool → Bool) (place : List String) :
    FileNode → List (List String)
  | .file _ => [place]
  | .symlink _ => []
  | .directory entries => walkAll skip place entries

/-- Files among the entries of the directory `place` and below them. -/
def walkAll (skip : List String → Bool → Bool) (place : List String) :
    List (String × FileNode) → List (List String)
  | [] => []
  | (name, node) :: rest =>
    (if skip (place ++ [name]) node.isDirectory then [] else walk skip (place ++ [name]) node) ++
      walkAll skip place rest

end

/-- Whether an entry below the root is left out. -/
def leftOut (ignored : List String → Bool → Bool) (s : Selection) (root names : List String)
    (isDirectory : Bool) : Bool :=
  s.ignores (String.intercalate "/" (names.drop root.length)) || ignored names isDirectory

/-- Absolute paths of the files to index below a root, sorted name by name. -/
def filesUnder (ignored : List String → Bool → Bool) (t : FileTree) (s : Selection)
    (root : List String) : List (List String) :=
  match t.root.at? root with
  | none => []
  | some node =>
    ((walk (leftOut ignored s root) root node).filter fun names =>
      s.supports (names.getLastD "")).mergeSort Path.namesLe

def discover (ignored : List String → Bool → Bool) (t : FileTree) (s : Selection) (path : String) :
    Except DiscoveryError (List (List String)) :=
  match resolveRoot t path with
  | .error e => .error e
  | .ok root => .ok (filesUnder ignored t s root)

end Discovery

end CodeSearch
