import CodeSearch.Path
import CodeSearch.Store.Basic
import CodeSearch.Text.Utf8

/-!
A tree of files, and how a path is followed through it. A file holds bytes or a store; a path is
followed name by name, through symbolic links, to the directory or file that it means.
-/

set_option autoImplicit false

namespace CodeSearch

inductive FileContent where
  | bytes (data : List UInt8)
  | database (store : Store)

inductive FileNode where
  | file (content : FileContent)
  | symlink (target : String)
  | directory (entries : List (String × FileNode))

instance : Inhabited FileNode := ⟨.directory []⟩

inductive FileError where
  | notFound
  | notADirectory
  | isADirectory
  | nameTooLong
  | tooManyLinks
  | nulInPath
  | notText
deriving DecidableEq, Repr

def FileError.message : FileError → String
  | notFound => "No such file or directory (os error 2)"
  | notADirectory => "Not a directory (os error 20)"
  | isADirectory => "Is a directory (os error 21)"
  | nameTooLong => "File name too long (os error 36)"
  | tooManyLinks => "Too many levels of symbolic links (os error 40)"
  | nulInPath => "file name contained an unexpected NUL byte"
  | notText => "stream did not contain valid UTF-8"

namespace FileNode

def isDirectory : FileNode → Bool
  | directory _ => true
  | _ => false

def child? : FileNode → String → Option FileNode
  | directory entries, name => (entries.find? fun e => e.1 == name).map Prod.snd
  | _, _ => none

/-- The node below by these names, links not followed. -/
def at? : FileNode → List String → Option FileNode
  | node, [] => some node
  | node, name :: rest => (node.child? name).bind fun child => child.at? rest

/-- Entries with the one of that name replaced, added or, without a node, taken away. -/
def setEntry (name : String) (node : Option FileNode) :
    List (String × FileNode) → List (String × FileNode)
  | [] => node.toList.map fun n => (name, n)
  | e :: rest =>
    if e.1 == name then (node.toList.map fun n => (name, n)) ++ rest
    else e :: setEntry name node rest

def entries : FileNode → List (String × FileNode)
  | directory es => es
  | _ => []

/-- Puts a node at these names, or takes the one there away. Directories on the way are made where
they are missing. -/
def put (node : Option FileNode) : List String → FileNode → FileNode
  | [], old => node.getD old
  | name :: rest, parent =>
    match rest, node with
    | [], none => directory (setEntry name none parent.entries)
    | _, _ =>
      let child := (parent.child? name).getD (directory [])
      directory (setEntry name (some (put node rest child)) parent.entries)

end FileNode

/-- The whole tree, and the names of the current directory. -/
structure FileTree where
  root : FileNode
  current : List String

namespace FileTree

/-- Pieces of a path between slashes. -/
def pathPieces (path : String) : List String :=
  (Text.splitOn ['/'] path.toList).map String.ofList

def isAbsolute (path : String) : Bool := path.toList.head? = some '/'

/-- Follows pieces from a directory or file. At most `links` symbolic links are followed. The last
piece of all may be missing if it is to be created. -/
def follow (root : FileNode) (create : Bool) (links : Nat) (place : List String) :
    List String → Except FileError (List String)
  | [] => .ok place
  | piece :: rest =>
    match root.at? place with
    | some (.directory _) =>
      if piece = "" ∨ piece = "." then follow root create links place rest
      else if piece = ".." then follow root create links place.dropLast rest
      else if 255 < piece.utf8ByteSize then .error .nameTooLong
      else match root.at? (place ++ [piece]) with
        | none => if create ∧ rest = [] then .ok (place ++ [piece]) else .error .notFound
        | some (.symlink target) =>
          match links with
          | 0 => .error .tooManyLinks
          | left + 1 =>
            follow root create left (if isAbsolute target then [] else place)
              (pathPieces target ++ rest)
        | some _ => follow root create links (place ++ [piece]) rest
    | _ => .error .notADirectory
termination_by pieces => (links, pieces.length)

/-- Symbolic links that may be followed on one path. -/
def maxLinks : Nat := 40

/-- Names of the file or directory that a path means, or of the one that it is to create. -/
def locate (t : FileTree) (create : Bool) (path : String) : Except FileError (List String) :=
  if path.toList.contains '\x00' then .error .nulInPath
  else if path = "" then .error .notFound
  else follow t.root create maxLinks (if isAbsolute path then [] else t.current) (pathPieces path)

/-- Names of the file or directory that a path means. -/
def resolve (t : FileTree) (path : String) : Except FileError (List String) := t.locate false path

theorem locate_eq_follow {t : FileTree} {path : String}
    (hnul : path.toList.contains '\x00' = false) (hne : path ≠ "") (create : Bool) :
    t.locate create path =
      follow t.root create maxLinks (if isAbsolute path then [] else t.current)
        (pathPieces path) := by
  rw [locate, hnul, if_neg (by simp), if_neg hne]

theorem resolve_eq_follow {t : FileTree} {path : String}
    (hnul : path.toList.contains '\x00' = false) (hne : path ≠ "") :
    t.resolve path =
      follow t.root false maxLinks (if isAbsolute path then [] else t.current)
        (pathPieces path) :=
  locate_eq_follow hnul hne false

def nodeAt? (t : FileTree) (path : String) : Option FileNode :=
  match t.resolve path with
  | .ok names => t.root.at? names
  | .error _ => none

def pathExists (t : FileTree) (path : String) : Bool := (t.nodeAt? path).isSome

def read (t : FileTree) (path : String) : Except FileError FileContent :=
  match t.resolve path with
  | .error e => .error e
  | .ok names =>
    match t.root.at? names with
    | some (.file content) => .ok content
    | some (.directory _) => .error .isADirectory
    | _ => .error .notFound

def readText (t : FileTree) (path : String) : Except FileError String :=
  match t.read path with
  | .error e => .error e
  | .ok (.database _) => .error .notText
  | .ok (.bytes data) =>
    match Text.ofUtf8? data with
    | some text => .ok text
    | none => .error .notText

/-- Splits the last piece off a path; the first part keeps its slash. -/
def splitLast (path : String) : String × String :=
  let reversed := path.toList.reverse
  let last := reversed.takeWhile (· != '/')
  (String.ofList (reversed.drop last.length).reverse, String.ofList last.reverse)

/-- Puts content into the file that a path means, making it if its directory exists. Links to files
are followed, also to one that is to be made. -/
def write (t : FileTree) (path : String) (content : FileContent) : Except FileError FileTree :=
  match t.locate true path with
  | .error e => .error e
  | .ok names =>
    match t.root.at? names with
    | some (.directory _) => .error .isADirectory
    | _ => .ok { t with root := t.root.put (some (.file content)) names }

/-- What is written is at the names that the path leads to. -/
theorem exists_of_write {t t' : FileTree} {path : String} {content : FileContent}
    (h : t.write path content = .ok t') :
    ∃ names, t.locate true path = .ok names ∧
      (∀ entries, t.root.at? names ≠ some (.directory entries)) ∧
      t' = { t with root := t.root.put (some (.file content)) names } := by
  unfold write at h
  split at h
  · cases h
  · rename_i names hnames
    split at h
    · cases h
    · rename_i hleaf
      cases h
      exact ⟨names, hnames, hleaf, rfl⟩

/-- Makes the directory of a path if its parent is one and nothing is in its place. -/
def makeDirectory (t : FileTree) (path : String) : FileTree :=
  let (parent, last) := splitLast path
  match t.resolve path, t.resolve (if parent = "" then "." else parent) with
  | .error .notFound, .ok names =>
    if last = "" ∨ (t.root.at? (names ++ [last])).isSome then t
    else { t with root := t.root.put (some (.directory [])) (names ++ [last]) }
  | _, _ => t

/-- Makes the directories on a path that are missing, as far as nothing is in the way. -/
def makeDirectories (t : FileTree) (path : String) : FileTree :=
  let pieces := pathPieces path
  (List.range pieces.length).foldl
    (fun t i => t.makeDirectory (String.intercalate "/" (pieces.take (i + 1)))) t

end FileTree

end CodeSearch
