import PageSlots.Text.Alphanumeric
import PageSlots.Text.Search

/-!
# References to the environment

A setting may refer to variables of the environment: `${NAME}` stands for
the value of a variable, and `${NAME:-other}` for its value or, if it is
unset, for another text. A value without `${` is taken as it is. In any
other value `$NAME` is a reference too, and `$$` stands for a dollar sign;
a `$` that begins nothing, and a `${` that no brace closes, stay as they
are. What a reference stands for is not looked through again.
-/

namespace PageSlots.Settings

open PageSlots.Text

/-- **An environment**: one line `NAME=value` for each variable. -/
abbrev Environment := List String

/-- The value of a variable, if it is set. -/
def Environment.get? (env : Environment) (name : String) : Option String :=
  if name.isEmpty then none
  else
    let start := name.toList ++ ['=']
    List.findSome? (fun line : String =>
      if start.isPrefixOf line.toList then
        some (String.ofList (line.toList.drop start.length))
      else none) env

/-- A reference to a variable that is not set. -/
structure UnsetVariable where
  /-- The name of the variable. -/
  name : String
  deriving DecidableEq, Repr

/-- Whether a character may stand in the name of a variable that has no
braces around it. -/
def isNameChar (c : Char) : Bool :=
  isAlphanumeric c || c == '_'

/-- The value of a variable that must be set. -/
def requireVariable (env : Environment) (name : List Char) :
    Except UnsetVariable (List Char) :=
  match env.get? (String.ofList name) with
  | some value => .ok value.toList
  | none => .error ⟨String.ofList name⟩

/-- What a reference stands for, given what is between its braces. -/
def bracedValue (env : Environment) (inside : List Char) : Except UnsetVariable (List Char) :=
  match breakOn? [':', '-'] inside with
  | some (c :: name, other) =>
    match env.get? (String.ofList (c :: name)) with
    | some value => .ok value.toList
    | none => .ok other
  | _ => requireVariable env inside

theorem length_lt_of_breakOn? {c : Char} {pattern text before after : List Char}
    (h : breakOn? (c :: pattern) text = some (before, after)) : after.length < text.length := by
  rw [eq_append_of_breakOn? h]
  simp
  omega

/-- The text with its references replaced. -/
def expandReferences (env : Environment) (text : List Char) :
    Except UnsetVariable (List Char) :=
  match text with
  | [] => .ok []
  | '$' :: '{' :: rest =>
    match _h : breakOn? ['}'] rest with
    | none => do
      let rest ← expandReferences env rest
      return '$' :: '{' :: rest
    | some (inside, after) => do
      let value ← bracedValue env inside
      let rest ← expandReferences env after
      return value ++ rest
  | '$' :: '$' :: rest => do
    let rest ← expandReferences env rest
    return '$' :: rest
  | '$' :: c :: rest =>
    if isNameChar c then do
      let value ← requireVariable env (c :: rest.takeWhile isNameChar)
      let rest ← expandReferences env (rest.dropWhile isNameChar)
      return value ++ rest
    else do
      let rest ← expandReferences env (c :: rest)
      return '$' :: rest
  | c :: rest => do
    let rest ← expandReferences env rest
    return c :: rest
termination_by text.length
decreasing_by
  · simp only [List.length_cons]; omega
  · have := length_lt_of_breakOn? _h
    simp only [List.length_cons]
    omega
  · simp only [List.length_cons]; omega
  · have := (List.dropWhile_sublist isNameChar (l := rest)).length_le
    simp only [List.length_cons]
    omega
  · simp only [List.length_cons]; omega
  · simp only [List.length_cons]; omega

/-- Whether a text holds a reference in braces. -/
def hasBraced (text : List Char) : Bool :=
  (breakOn? ['$', '{'] text).isSome

/-- **A setting with its references replaced.** -/
def expand (env : Environment) (value : String) : Except UnsetVariable String :=
  if hasBraced value.toList then
    (expandReferences env value.toList).map String.ofList
  else .ok value

end PageSlots.Settings
