import CodeSearch.Files.Tree
import CodeSearch.Glob.Reader
import CodeSearch.Text.WhiteSpace

/-!
Ignore files. Each line holds a glob for paths below the file's directory. There are four kinds of
ignore file; for each kind the deepest directory with a say decides, and in a directory the last
line that matches. An earlier kind outweighs a later one. Lists that a user keeps elsewhere have no
say here.
-/

set_option autoImplicit false

namespace CodeSearch

/-- What the ignore files say of a path. -/
inductive Verdict where
  | silent
  | ignored
  | kept
deriving DecidableEq, Repr

/-- The first verdict that says something. -/
def Verdict.orElse (a b : Verdict) : Verdict := if a = .silent then b else a

structure IgnoreLine where
  pattern : Glob.Pattern
  /-- The line keeps what it matches. -/
  keeps : Bool
  directoriesOnly : Bool

namespace IgnoreLine

/-- Text without white space at its end, unless an escaped blank stands there. -/
def trimEnd (line : List Char) : List Char :=
  if "\\ ".toList.isSuffixOf line then line
  else (line.reverse.dropWhile Text.isWhite).reverse

/-- The marks in front of the glob: whether it keeps, whether it is bound to the directory of the
file, and the glob. A mark behind a backslash is no mark. -/
def readMarks (line : List Char) : Bool × Bool × List Char :=
  match line with
  | '\\' :: '!' :: rest => (false, false, '!' :: rest)
  | '\\' :: '#' :: rest => (false, false, '#' :: rest)
  | '!' :: '/' :: rest => (true, true, rest)
  | '!' :: rest => (true, false, rest)
  | '/' :: rest => (false, true, rest)
  | _ => (false, false, line)

/-- A slash at the end binds to directories; it and a backslash before it are dropped. -/
def readEnd (glob : List Char) : Bool × List Char :=
  if glob.getLast? = some '/' then
    let rest := glob.dropLast
    (true, if rest.getLast? = some '\\' then rest.dropLast else rest)
  else (false, glob)

/-- A glob without a slash matches at any depth, and one that ends in all of a directory's content
does not match the directory. -/
def complete (bound : Bool) (glob : List Char) : List Char :=
  let deep := "**/".toList.isPrefixOf glob || glob = "**".toList
  let glob := if !bound && !glob.contains '/' && !deep then "**/".toList ++ glob else glob
  if "/**".toList.isSuffixOf glob then glob ++ "/*".toList else glob

/-- The rule of a line; none for comments, empty lines and globs that are wrong. -/
def ofText? (line : List Char) : Option IgnoreLine :=
  if line.head? = some '#' then none
  else
    let line := trimEnd line
    if line.isEmpty then none
    else
      let (keeps, bound, glob) := readMarks line
      let (directoriesOnly, glob) := readEnd glob
      match Glob.parseLine (String.ofList (complete bound glob)) with
      | .ok pattern => some { pattern, keeps, directoriesOnly }
      | .error _ => none

def applies (r : IgnoreLine) (path : String) (isDirectory : Bool) : Bool :=
  (isDirectory || !r.directoriesOnly) && r.pattern.matches path

/-- What lines say of a path below their directory: the last that applies decides. -/
def verdict (lines : List IgnoreLine) (path : String) (isDirectory : Bool) : Verdict :=
  match lines.reverse.find? fun r => r.applies path isDirectory with
  | none => .silent
  | some r => if r.keeps then .kept else .ignored

end IgnoreLine

namespace IgnoreFiles

/-- The kinds of ignore file, from the one that outweighs all others; files of one kind in one
directory count as one, the later behind the earlier. -/
def kinds : List (List String) :=
  [[".dockerignore", ".eslintignore", ".prettierignore", ".npmignore", ".vercelignore"],
    [".ignore"], [".gitignore"], [".git/info/exclude"]]

/-- Lines of bytes, without the line ends; nothing follows a line end at the end. -/
def byteLines (data : List UInt8) (line : List UInt8) : List (List UInt8) :=
  match data with
  | [] => if line.isEmpty then [] else [line.reverse]
  | b :: rest =>
    if b == 10 then
      (match line with
        | 13 :: kept => kept.reverse
        | _ => line.reverse) :: byteLines rest []
    else byteLines rest (b :: line)

/-- Lines up to the first that is no text. -/
def textLines : List (List UInt8) → List (List Char)
  | [] => []
  | line :: rest =>
    match Text.ofUtf8? line with
    | some text => text.toList :: textLines rest
    | none => []

/-- Drops byte order marks in front of the first line. -/
def dropMark : List (List Char) → List (List Char)
  | [] => []
  | line :: rest => line.dropWhile (· == '\ufeff') :: rest

/-- Rules of a file; a file that cannot be read has none. -/
def rulesOf (t : FileTree) (path : String) : List IgnoreLine :=
  match t.read path with
  | .ok (.bytes data) => (dropMark (textLines (byteLines data []))).filterMap IgnoreLine.ofText?
  | _ => []

/-- Rules of one kind of ignore file in a directory. -/
def rulesIn (t : FileTree) (directory : List String) (kind : List String) : List IgnoreLine :=
  kind.flatMap fun name => rulesOf t (Path.ofNames (directory ++ [name]))

/-- What one kind of ignore file says of a path: the names of a directory, and those from it to the
path. Directories further up are asked in turn; `up` holds their names, deepest first. -/
def verdictOfKind (t : FileTree) (kind : List String) (isDirectory : Bool) :
    List String → List String → Verdict
  | [], below => IgnoreLine.verdict (rulesIn t [] kind) (String.intercalate "/" below) isDirectory
  | name :: up, below =>
    let directory := (name :: up).reverse
    let path := String.intercalate "/" below
    (IgnoreLine.verdict (rulesIn t directory kind) path isDirectory).orElse
      (verdictOfKind t kind isDirectory up (name :: below))

/-- What the ignore files say of a path by its names. -/
def verdict (t : FileTree) (names : List String) (isDirectory : Bool) : Verdict :=
  match names.reverse with
  | [] => .silent
  | last :: up =>
    (kinds.map fun kind => verdictOfKind t kind isDirectory up [last]).foldr Verdict.orElse .silent

def ignores (t : FileTree) (names : List String) (isDirectory : Bool) : Bool :=
  verdict t names isDirectory = .ignored

end IgnoreFiles

end CodeSearch
