/-
HouseStyle.Main — the program.

The paths that the arguments name are looked up on disk, directories with all files below them;
`Command.run` does the rest. Symbolic links to directories are not followed below a directory.
-/
import HouseStyle.Command

namespace HouseStyle.Main

/-- The files below a directory, at all levels, by the names that lead to them. -/
partial def filesBelow (directory : String) (names : List String) : IO (List (List String)) := do
  let here := (← IO.currentDir) / "/".intercalate (directory :: names)
  let mut found := []
  for entry in ← here.readDir do
    let inside := names ++ [entry.fileName]
    match (← entry.path.symlinkMetadata).type with
    | .dir => found := found ++ (← filesBelow directory inside)
    | _ => if !(← entry.path.isDir) then found := found ++ [inside]
  return found

def look (p : Path) : IO Found := do
  let full := (← IO.currentDir) / p.text
  try
    if ← full.isDir then return .directory (← filesBelow p.text [])
    return .file (← IO.FS.readBinFile full).toList
  catch
    | .inappropriateType .. => return .notDirectory
    | .invalidArgument .. => return .nameTooLong
    | _ => return .missing

def namedPaths : Command.Request → List Path
  | .check a => (a.config.toList ++ a.paths).map Path.ofString
  | _ => []

/-- What is found under the named paths, and under the files below those that are directories. -/
def survey (paths : List Path) : IO Disk := do
  let mut seen : List (Path × Found) := []
  for p in paths do
    let found ← look p
    seen := seen ++ [(p, found)]
    if let .directory files := found then
      for q in Disk.sourcesBelow p files do
        seen := seen ++ [(q, ← look q)]
  let all := seen
  return fun p => (all.lookup p).getD .missing

end HouseStyle.Main

def main (arguments : List String) : IO UInt32 := do
  let request := HouseStyle.Command.Request.ofArguments arguments
  let disk ← HouseStyle.Main.survey (HouseStyle.Main.namedPaths request)
  let outcome := HouseStyle.Command.run disk arguments
  IO.print outcome.output
  IO.eprint outcome.errors
  return UInt32.ofNat outcome.exitCode
