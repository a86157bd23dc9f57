import CodeSearch.CommandLine
import CodeSearch.Discovery.IgnoreFiles
import CodeSearch.Files.Saved
import CodeSearch.Tools.Exchange

/-!
The program on a real system. The files that a run may need are read beforehand, and what the run
changes is written afterwards. No grammar and no embedding service is at hand, so files with a
language are cut as plain text and requests to a service fail.
-/

set_option autoImplicit false

namespace CodeSearch.Main

/-- A file, link or directory with all below it; what cannot be read counts as an empty file. -/
partial def readNode (entry : IO.FS.DirEntry) : IO FileNode := do
  let path := entry.path
  try
    match (← path.symlinkMetadata).type with
    | .symlink => return .symlink (← IO.FS.realPath path).toString
    | .dir =>
      let entries ← (← path.readDir).toList.mapM fun e => do return (e.fileName, ← readNode e)
      return .directory entries
    | _ => return .file (.ofBytes (← IO.FS.readBinFile path).toList)
  catch _ => return .file (.bytes [])

/-- Names on an absolute path. -/
def namesOf (path : String) : List String := (FileTree.pathPieces path).filter (· != "")

/-- Puts the directory at a real path, with all below it, into the tree. -/
def addPlace (t : FileTree) (path : String) : IO FileTree := do
  let real := (← IO.FS.realPath path).toString
  let node ← readNode { root := real, fileName := "" }
  return { t with root := t.root.put (some node) (namesOf real) }

/-- Puts the ignore files of the directories above a place into the tree. -/
def addIgnoreFiles (t : FileTree) (names : List String) : IO FileTree := do
  let mut t := t
  for depth in [0:names.length] do
    for file in IgnoreFiles.kinds.flatten do
      let place := names.take depth ++ namesOf file
      let path := Path.ofNames place
      if ← (System.mkFilePath [path]).pathExists then
        let node ← readNode { root := path, fileName := "" }
        t := { t with root := t.root.put (some node) place }
  return t

/-- The current directory and what the arguments name. -/
def readTree (arguments : List String) : IO FileTree := do
  let here := (← IO.currentDir).toString
  let mut t : FileTree := ⟨.directory [], namesOf here⟩
  for path in here :: arguments do
    if path != "" && (← (System.mkFilePath [path]).pathExists) then
      t ← addPlace t path
      t ← addIgnoreFiles t (namesOf (← IO.FS.realPath path).toString)
  return t

def writeChanges (before after : FileTree) : IO Unit := do
  for (place, data) in before.changes after do
    IO.FS.createDirAll (Path.ofNames place.dropLast)
    IO.FS.writeBinFile (Path.ofNames place) ⟨data.toArray⟩

/-- The variables that settings ask for. -/
def readEnvironment : IO Settings.Environment := do
  let values ← Settings.variableNames.mapM fun name => do return (name, ← IO.getEnv name)
  return fun name => (values.lookup name).join

/-- Answers line after line until the input ends. -/
partial def answerLines (t : FileTree) (x : Session) : IO Session := do
  let line ← (← IO.getStdin).getLine
  if line.isEmpty then return x
  let (x, reply) := Exchange.answerLine x t line
  if let some text := reply then
    IO.println text
    (← IO.getStdout).flush
  answerLines t x

def serve (ctx : CommandContext) (t : FileTree) (settingsPath : String) : IO UInt32 := do
  match CommandLine.startSession ctx t settingsPath with
  | .error chain =>
    IO.eprint (CommandLine.errorText chain)
    return 1
  | .ok (opened, x) =>
    let x ← answerLines opened x
    writeChanges t (x.close opened)
    return 0

end CodeSearch.Main

open CodeSearch in
def main (arguments : List String) : IO UInt32 := do
  let t ← Main.readTree arguments
  let ctx : CommandContext :=
    { out :=
        { parse := fun language _ => .error (.noGrammar language "no grammar is at hand")
          globs := Glob.reader
          ignored := IgnoreFiles.ignores
          send := fun _ => .unreachable }
      environment := ← Main.readEnvironment
      updated := "unknown" }
  match Arguments.read arguments with
  | .ok { command := .serve, settingsPath } => Main.serve ctx t settingsPath
  | _ =>
    let r := CommandLine.run ctx t arguments
    Main.writeChanges t r.files
    IO.print r.output
    IO.eprint r.errors
    return UInt32.ofNat r.code
