import CodeSearch.Path

/-!
Which files are indexed, as far as their paths tell: those with a supported extension that no
ignore pattern matches.
-/

set_option autoImplicit false

namespace CodeSearch

/-- A library of globs: what single globs match, and what sets of them do. Either may be refused,
with a complaint. -/
structure Globs where
  read : String → Except String (String → Bool)
  build : List (String → Bool) → Except String (String → Bool)

structure PatternError where
  detail : String
deriving DecidableEq, Repr

def PatternError.message (e : PatternError) : String := "invalid ignore pattern: " ++ e.detail

structure Selection where
  /-- In lower case, without dots in front. -/
  extensions : List String
  /-- Whether some pattern leaves a path below the root out. -/
  ignores : String → Bool

namespace Selection

/-- Text without the repetitions of `./` at its front. -/
def dropHere : List Char → List Char
  | '.' :: '/' :: cs => dropHere cs
  | cs => cs

/-- The globs of an ignore pattern: at the root and at any depth. What ends in all of a directory's
content is joined by the directory itself. -/
def variants (pattern : String) : List String :=
  let cs := dropHere pattern.toList
  let anywhere (cs : List Char) := [String.ofList cs, String.ofList ("**/".toList ++ cs)]
  if "/**".toList.isSuffixOf cs then anywhere cs ++ anywhere (cs.take (cs.length - 3))
  else anywhere cs

/-- Reads globs up to the first that is refused. -/
def readGlobs (globs : Globs) : List String → Except String (List (String → Bool))
  | [] => .ok []
  | glob :: rest =>
    match globs.read glob with
    | .error detail => .error detail
    | .ok m =>
      match readGlobs globs rest with
      | .error detail => .error detail
      | .ok ms => .ok (m :: ms)

/-- What the set of the globs of all patterns matches. -/
def patternSet (globs : Globs) (patterns : List String) : Except String (String → Bool) :=
  match readGlobs globs (patterns.flatMap variants) with
  | .error detail => .error detail
  | .ok ms => globs.build ms

def normalizeExtension (ext : String) : String :=
  Path.asciiLower (String.ofList (ext.toList.dropWhile (· == '.')))

def make (globs : Globs) (extensions patterns : List String) : Except PatternError Selection :=
  match patternSet globs patterns with
  | .error detail => .error { detail }
  | .ok ignores => .ok { extensions := extensions.map normalizeExtension, ignores }

def defaultExtensions : List String :=
  ["js", "jsx", "ts", "tsx", "mjs", "cjs", "json", "md", "yaml", "yml", "toml", "graphql", "gql",
    "sql", "html", "css", "scss", "sass", "less", "vue", "svelte", "py", "rs", "go"]

def defaultPatterns : List String :=
  ["node_modules/**", "dist/**", ".git/**", "*.log", "*.lock", "package-lock.json",
    "pnpm-lock.yaml", "yarn.lock", "bun.lockb"]

/-- The selection for the extensions and patterns that hold where none are given. -/
def standard (globs : Globs) : Selection :=
  match make globs defaultExtensions defaultPatterns with
  | .ok s => s
  | .error _ => { extensions := defaultExtensions, ignores := fun _ => false }

def supports (s : Selection) (path : String) : Bool :=
  match Path.extension? path with
  | some ext => s.extensions.contains (Path.asciiLower ext)
  | none => false

end Selection

end CodeSearch
