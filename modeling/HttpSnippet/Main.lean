import HttpSnippet.CommandLine.Run

/-!
# The program

Shows the command the files that its words name, runs it, and does what it answers: prints, writes
the files that have changed, and ends with its code.
-/
namespace HttpSnippet

/-- The file or directory with a name, if there is one that can be read. -/
def look? (name : String) : IO (Option FileEntry) := do
  match ← (IO.FS.readBinFile name).toBaseIO with
  | .ok bytes => return some (.file bytes.toList)
  | .error (.inappropriateType ..) => return some .directory
  | .error _ => return none

/-- The files on the way to a path, added to those that are known. -/
def observe (files : FileTree) (p : Path) : IO FileTree := do
  let mut files := files
  let mut place := p.start
  for part in p.parts do
    place := place.follow part
    if let some entry ← look? (String.ofList place.text) then files := files.insert place entry
  return files

/-- The paths that a command names. -/
def CommandLine.Command.paths : CommandLine.Command → List Path
  | .generate a => ([a.request] ++ a.optionsFile.toList ++ a.out.toList).filterMap (·.value?)
  | .listTargets | .listOptions _ => []

/-- Writes the files that differ from those there were. -/
def FileTree.save (files after : FileTree) : IO Unit := do
  for (place, bytes) in files.changes after do
    IO.FS.writeBinFile (String.ofList place.text) ⟨bytes.toArray⟩

attribute [local instance] Host.usual

/-- Runs a command line on this computer and gives back its code. -/
def runHere (words : List Text) : IO UInt32 := do
  let paths := match CommandLine.parse words with
    | .ok command => command.paths
    | .error _ => []
  let files ← paths.foldlM observe {}
  match CommandLine.run files words with
  | .error failure =>
    if let .unencodable _ after := failure then files.save after
    IO.eprintln (String.ofList failure.message)
    return 1
  | .ok outcome =>
    IO.print (String.ofList outcome.out)
    for message in outcome.messages do IO.eprintln (String.ofList message)
    files.save outcome.files
    return outcome.code.toUInt32

end HttpSnippet

def main (args : List String) : IO UInt32 := HttpSnippet.runHere (args.map String.toList)
