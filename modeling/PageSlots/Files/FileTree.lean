import PageSlots.Files.Path

/-!
# File trees

A file tree maps locations to files and directories. A location is the
list of names from the root down; a path is followed to a location from a
current directory, one segment after the other, and every segment must be
looked up in a directory that is there.

Reading, writing and creating fail for the reasons a file system gives.
Writing a file and creating a directory change the tree at one location
only (`FileTree.get?_put`).
-/

namespace PageSlots.Files

/-- A place in a file tree: the names from the root down. -/
abbrev Location := List String

/-- What stands at a location. -/
inductive Entry where
  /-- A file with its bytes. -/
  | file (content : ByteArray)
  | directory

/-- Why a file cannot be used. -/
inductive FileFault where
  /-- Nothing stands there. -/
  | missing
  /-- Something stands there already. -/
  | alreadyThere
  /-- A file stands where a directory is needed. -/
  | notDirectory
  /-- A directory stands where a file is needed. -/
  | isDirectory
  /-- A name is longer than a name can be. -/
  | nameTooLong
  /-- A path has a character that none can have. -/
  | nulInPath
  /-- The content of a file is not text. -/
  | notText
  deriving DecidableEq, Repr

/-- What a fault says. -/
def FileFault.message : FileFault → String
  | .missing => "No such file or directory (os error 2)"
  | .alreadyThere => "File exists (os error 17)"
  | .notDirectory => "Not a directory (os error 20)"
  | .isDirectory => "Is a directory (os error 21)"
  | .nameTooLong => "File name too long (os error 36)"
  | .nulInPath => "file name contained an unexpected NUL byte"
  | .notText => "stream did not contain valid UTF-8"

/-- **A file tree.** The root is a directory in every tree. -/
structure FileTree where
  /-- What stands below the root. -/
  entries : List (Location × Entry) := []

namespace FileTree

/-- What stands at a location. -/
def get? (t : FileTree) (l : Location) : Option Entry :=
  if l = [] then some .directory else t.entries.lookup l

/-- Put something at a location. -/
def put (t : FileTree) (l : Location) (e : Entry) : FileTree where
  entries := (l, e) :: t.entries.filter (·.1 ≠ l)

/-- Looking up another key than the one that is taken out. -/
theorem lookup_filter_ne {l m : Location} (h : m ≠ l) :
    ∀ entries : List (Location × Entry),
      (entries.filter (·.1 ≠ l)).lookup m = entries.lookup m
  | [] => rfl
  | (k, e) :: entries => by
    have ih := lookup_filter_ne h entries
    by_cases hk : k = l
    · have hb : (m == k) = false := by simpa [hk] using h
      rw [List.lookup_cons, hb, ← ih]
      simp [hk]
    · rw [List.filter_cons_of_pos (by simpa using hk), List.lookup_cons, List.lookup_cons, ih]

/-- **Putting something at a location changes that location only.** -/
theorem get?_put (t : FileTree) (l m : Location) (e : Entry) :
    (t.put l e).get? m = if m = [] then some .directory else if m = l then some e else t.get? m := by
  unfold get? put
  split
  · rfl
  · by_cases h : m = l
    · simp [h]
    · have hb : (m == l) = false := by simpa using h
      rw [List.lookup_cons, hb, lookup_filter_ne h]
      simp [h]

/-- Whether a location holds a directory. -/
def isDirectoryAt (t : FileTree) (l : Location) : Bool :=
  match t.get? l with
  | some .directory => true
  | _ => false

/-- **Follow segments** from a location. What the last one names need not
be there. -/
def follow (t : FileTree) (l : Location) : List (List Char) → Except FileFault Location
  | [] => .ok l
  | s :: rest =>
    match t.get? l with
    | none => .error .missing
    | some (.file _) => .error .notDirectory
    | some .directory =>
      if isIdle s then t.follow l rest
      else if s = ['.', '.'] then t.follow l.dropLast rest
      else
        let name := String.ofList s
        if 255 < name.utf8ByteSize then .error .nameTooLong
        else t.follow (l ++ [name]) rest

end FileTree

/-- **A file tree with a current directory.** -/
structure Workspace where
  /-- The files. -/
  tree : FileTree
  /-- The current directory. -/
  cwd : Location

namespace Workspace

/-- The path of the current directory. -/
def cwdPath (w : Workspace) : String :=
  "/" ++ "/".intercalate w.cwd

/-- Follow a path given by its segments. -/
def followPath (w : Workspace) (path : String) (ss : List (List Char)) :
    Except FileFault Location :=
  if path.toList.contains '\x00' then .error .nulInPath
  else if path.isEmpty then .error .missing
  else w.tree.follow (if isRooted path then [] else w.cwd) ss

/-- **The location that a path names.** -/
def locate (w : Workspace) (path : String) : Except FileFault Location :=
  w.followPath path (segments path.toList)

/-- What a path names. -/
def find? (w : Workspace) (path : String) : Option Entry :=
  match w.locate path with
  | .ok l => w.tree.get? l
  | .error _ => none

/-- Whether a path names something. -/
def isThere (w : Workspace) (path : String) : Bool :=
  (w.find? path).isSome

/-- Whether a path names a file. -/
def isFile (w : Workspace) (path : String) : Bool :=
  match w.find? path with
  | some (.file _) => true
  | _ => false

/-- Whether a path names a directory. -/
def isDirectory (w : Workspace) (path : String) : Bool :=
  match w.find? path with
  | some .directory => true
  | _ => false

/-- **Read a file as text.** -/
def readText (w : Workspace) (path : String) : Except FileFault String := do
  let l ← w.locate path
  match w.tree.get? l with
  | none => .error .missing
  | some .directory => .error .isDirectory
  | some (.file content) =>
    match String.fromUTF8? content with
    | none => .error .notText
    | some text => .ok text

/-- **Write a text to a file**, in place of what it held. -/
def writeText (w : Workspace) (path text : String) : Except FileFault Workspace := do
  let l ← w.locate path
  match w.tree.get? l with
  | some .directory => .error .isDirectory
  | _ => .ok { w with tree := w.tree.put l (.file text.toUTF8) }

/-- **Create a directory** in one that is there. -/
def makeDirectory (w : Workspace) (path : String) : Except FileFault Workspace := do
  let ss := (segments path.toList).reverse.dropWhile (· = [])
  let l ← w.followPath path ss.reverse
  match w.tree.get? l with
  | some _ => .error .alreadyThere
  | none => .ok { w with tree := w.tree.put l .directory }

/-- Create the first of some directories, of which each stands in the
next, and those around it that are missing. Directories stay created if a
later one cannot be. -/
def makeChain (w : Workspace) : List String → Option FileFault × Workspace
  | [] => (none, w)
  | path :: outer =>
    if path.isEmpty || (parent? path).isNone then (none, w)
    else
      match w.makeDirectory path with
      | .ok w => (none, w)
      | .error .missing =>
        match w.makeChain outer with
        | (some fault, w) => (some fault, w)
        | (none, w) =>
          match w.makeDirectory path with
          | .ok w => (none, w)
          | .error fault =>
            if fault = .alreadyThere && w.isDirectory path then (none, w) else (some fault, w)
      | .error fault =>
        if fault = .alreadyThere && w.isDirectory path then (none, w) else (some fault, w)

/-- **Create a directory and those around it that are missing.** -/
def makeDirectories (w : Workspace) (path : String) : Option FileFault × Workspace :=
  w.makeChain (ancestors path)

end Workspace

end PageSlots.Files
