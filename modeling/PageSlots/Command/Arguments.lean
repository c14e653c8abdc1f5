/-!
# Arguments

The command line asks either for the version or for pages to be rendered.
An option with a value takes it from the same argument, directly or behind
an equals sign, or else from the next one; a value in the next argument
does not look like an option. Short options can share one argument. No
option is given twice, no name is empty, and behind `--` every argument is
the name of a file.

Arguments that break one of these rules ask for nothing (`Request.read?`).
-/

namespace PageSlots.Command

/-- **What is asked for when pages are to be rendered.** -/
structure RenderRequest where
  /-- The files with the pages, in order. -/
  files : List String := []
  /-- The settings file. -/
  config : Option String := none
  /-- The directory for the pages. -/
  outDir : Option String := none
  /-- Whether the extensions of markdown are turned off. -/
  noGfm : Bool := false
  /-- Whether progress is told. -/
  verbose : Bool := false
  deriving DecidableEq, Repr

/-- **What a command line asks for.** -/
inductive Request where
  | version
  | render (request : RenderRequest)
  deriving DecidableEq, Repr

/-- An option that takes a value. -/
inductive ValueOption where
  | config
  | outDir
  deriving DecidableEq, Repr

/-- Whether an argument looks like an option. A lone hyphen does not. -/
def looksLikeOption (arg : String) : Bool :=
  arg.toList.head? = some '-' && arg != "-"

namespace RenderRequest

/-- Add a file. -/
def addFile? (r : RenderRequest) (file : String) : Option RenderRequest :=
  if file.isEmpty then none else some { r with files := r.files ++ [file] }

/-- Set the value of an option that has none yet. -/
def setValue? (r : RenderRequest) (o : ValueOption) (value : String) : Option RenderRequest :=
  if value.isEmpty then none
  else
    match o with
    | .config => if r.config.isSome then none else some { r with config := some value }
    | .outDir => if r.outDir.isSome then none else some { r with outDir := some value }

/-- Turn the extensions of markdown off. -/
def setNoGfm? (r : RenderRequest) : Option RenderRequest :=
  if r.noGfm then none else some { r with noGfm := true }

/-- Ask for progress to be told. -/
def setVerbose? (r : RenderRequest) : Option RenderRequest :=
  if r.verbose then none else some { r with verbose := true }

/-- Read short options: the request, and the option that waits for its
value. -/
def readShort? (r : RenderRequest) : List Char → Option (RenderRequest × Option ValueOption)
  | [] => some (r, none)
  | 'v' :: rest => r.setVerbose?.bind (·.readShort? rest)
  | c :: rest => do
    let o ←
      match c with
      | 'c' => some ValueOption.config
      | 'o' => some ValueOption.outDir
      | _ => none
    match rest with
    | [] => some (r, some o)
    | '=' :: value => (r.setValue? o (String.ofList value)).map (·, none)
    | value => (r.setValue? o (String.ofList value)).map (·, none)

/-- Read a long option, without its hyphens. -/
def readLong? (r : RenderRequest) (text : List Char) :
    Option (RenderRequest × Option ValueOption) :=
  let name := String.ofList (text.takeWhile (· != '='))
  let value :=
    match text.dropWhile (· != '=') with
    | _ :: value => some (String.ofList value)
    | [] => none
  let valued (o : ValueOption) :=
    match value with
    | none => some (r, some o)
    | some value => (r.setValue? o value).map (·, none)
  match name, value with
  | "config", _ => valued .config
  | "out-dir", _ => valued .outDir
  | "no-gfm", none => r.setNoGfm?.map (·, none)
  | "verbose", none => r.setVerbose?.map (·, none)
  | _, _ => none

/-- Read one argument: the request, and the option that waits for its
value. -/
def readArgument? (r : RenderRequest) (arg : String) :
    Option (RenderRequest × Option ValueOption) :=
  if looksLikeOption arg then
    match arg.toList with
    | '-' :: '-' :: text => r.readLong? text
    | _ :: text => r.readShort? text
    | [] => none
  else (r.addFile? arg).map (·, none)

/-- A request is complete if it names a file. -/
def complete? (r : RenderRequest) : Option RenderRequest :=
  if r.files.isEmpty then none else some r

/-- Read the arguments behind the command, while an option may wait for its
value. -/
def read? (r : RenderRequest) : Option ValueOption → List String → Option RenderRequest
  | none, [] => r.complete?
  | some _, [] => none
  | some o, value :: rest =>
    if looksLikeOption value then none
    else (r.setValue? o value).bind (·.read? none rest)
  | none, arg :: rest =>
    if arg = "--" then (rest.foldlM addFile? r).bind complete?
    else
      match r.readArgument? arg with
      | none => none
      | some (r, waiting) => r.read? waiting rest

end RenderRequest

/-- Read the short options before the command: whether progress is to be
told, or nothing if the version is asked for. -/
def readLeading? (verbose : Bool) : List Char → Option (Option Bool)
  | [] => some (some verbose)
  | 'v' :: rest => if verbose then none else readLeading? true rest
  | 'V' :: _ => some none
  | _ => none

/-- **Read a command line**: what it asks for, if it asks for anything.
`verbose` tells whether progress has been asked for already. -/
def Request.read? (verbose : Bool) : List String → Option Request
  | [] => none
  | arg :: rest =>
    if arg = "render" then
      (({} : RenderRequest).read? none rest).map fun r =>
        .render { r with verbose := r.verbose || verbose }
    else if arg = "--version" then some .version
    else if arg = "--verbose" then if verbose then none else Request.read? true rest
    else
      match arg.toList with
      | '-' :: '-' :: _ => none
      | '-' :: c :: text =>
        match readLeading? verbose (c :: text) with
        | none => none
        | some none => some .version
        | some (some verbose) => Request.read? verbose rest
      | _ => none

/-- **What a command line asks for**, if it asks for anything. -/
def requestOf? (args : List String) : Option Request :=
  Request.read? false args

end PageSlots.Command
