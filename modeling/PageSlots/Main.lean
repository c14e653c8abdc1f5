import PageSlots.Command.Render
import Std.Time.Format

/-!
# The program

The library runs on a file tree that is a value (`Command.run`). The
program takes the part of the disk that a run can look at into such a
tree, lets the library run on it, and then makes the disk look like the
tree that the run leaves behind.
-/

namespace PageSlots.Program

open PageSlots.Command PageSlots.Files PageSlots.Settings

/-- The path of a location. -/
def pathOf (l : Location) : String :=
  "/" ++ "/".intercalate l

/-- Take what stands at a location of the disk into a tree. -/
def takeEntry (t : FileTree) (l : Location) : IO FileTree := do
  let path := (← IO.currentDir) / pathOf l
  if ← path.isDir then
    return t.put l .directory
  else if ← path.pathExists then
    return t.put l (.file (← IO.FS.readBinFile path))
  else
    return t

/-- Take everything on the way to a path into a workspace. -/
def takePath (w : Workspace) (path : String) : IO Workspace := do
  let mut l := if isRooted path then [] else w.cwd
  let mut tree := w.tree
  for segment in segments path.toList do
    if segment = ['.', '.'] then
      l := l.dropLast
    else if !isIdle segment then
      l := l ++ [String.ofList segment]
      tree ← takeEntry tree l
  return { w with tree }

/-- Take everything on the way to some paths into a workspace. -/
def takePaths (w : Workspace) (paths : List String) : IO Workspace :=
  paths.foldlM takePath w

/-- The workspace with everything that a run with arguments can look at. -/
def workspaceOf (env : Environment) (args : List String) : IO Workspace := do
  let current := toString (← IO.currentDir)
  let cwd := ((segments current.toList).filter (!isIdle ·)).map String.ofList
  let w ← takePath { tree := {}, cwd } current
  match requestOf? args with
  | some (.render r) =>
    let candidates := (ancestors w.cwdPath).map (join · fileName)
    let w ← takePaths w (candidates ++ r.config.toList ++ r.files)
    match load w env r.config { outputDir := r.outDir } with
    | .error _ => return w
    | .ok settings =>
      takePaths w (settings.outputDir :: r.files.map (destination settings.outputDir))
  | _ => return w

/-- Make the disk look like a tree where the tree differs from another. -/
def putTree (before after : FileTree) : IO Unit := do
  let entries := after.entries.mergeSort fun a b => a.1.length ≤ b.1.length
  for (l, entry) in entries do
    match entry, before.get? l with
    | .directory, none => IO.FS.createDir (pathOf l)
    | .file content, some (.file old) =>
      if content != old then
        IO.FS.writeBinFile (pathOf l) content
    | .file content, none => IO.FS.writeBinFile (pathOf l) content
    | _, _ => pure ()

/-- The environment of the program. -/
def environment : IO Environment := do
  let bytes ← IO.FS.readBinFile "/proc/self/environ"
  let text := (String.fromUTF8? bytes).getD ""
  return (text.toList.splitOnP (· == '\x00')).map String.ofList

/-- The time, as it stands before an entry of the log. -/
def timeText : IO String := do
  let now ← Std.Time.Timestamp.now
  return (Std.Time.DateTime.ofTimestamp now .UTC).format "uuuu-MM-dd'T'HH:mm:ss.SSSSSS'Z'"

/-- Run the program with arguments: the number by which it tells how the
run ended. -/
def runOnDisk (args : List String) : IO UInt32 := do
  let env ← environment
  let w ← workspaceOf env args
  let o := run w env args
  putTree w.tree o.workspace.tree
  IO.print o.output
  IO.eprint (o.told (← timeText))
  return o.status.code.toUInt32

end PageSlots.Program

/-- The program. -/
def main (args : List String) : IO UInt32 :=
  PageSlots.Program.runOnDisk args
