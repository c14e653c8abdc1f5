import PageSlots.Markup.Fault
import PageSlots.Markup.Tree
import PageSlots.Text.Blank
import PageSlots.Text.Search

/-!
# Attribute lists

What follows the name in a start tag is a list of attributes. A key runs
to the next blank or `=`, though a `=` may begin one. A value follows a
`=`, with blanks allowed around it; it stands between quotes or runs to
the next blank. A key without `=` is an attribute with an empty value.
Two attributes need no blank between them when the first one's value is
quoted.
-/

namespace PageSlots.Markup

open PageSlots.Text

/-- Whether a character can continue a key. -/
def isKeyChar (c : Char) : Bool :=
  !isTagBlank c && c != '='

/-- The value after a `=`, and what follows it. -/
def readValue (text : List Char) : Except AttributeFault (List Char × List Char) :=
  match text.dropWhile isTagBlank with
  | [] => .error .missingValue
  | c :: rest =>
    if c = '"' || c = '\'' then
      match rest.dropWhile (· != c) with
      | [] => .error (.unclosedQuote c)
      | _ :: after => .ok (rest.takeWhile (· != c), after)
    else .ok ((c :: rest).takeWhile (!isTagBlank ·), (c :: rest).dropWhile (!isTagBlank ·))

/-- The attribute that a text begins with, key and value, and what
follows it. There is none if the text is blank. -/
def readAttribute (text : List Char) :
    Option (Except AttributeFault ((List Char × List Char) × List Char)) :=
  match text.dropWhile isTagBlank with
  | [] => none
  | c :: rest =>
    let key := c :: rest.takeWhile isKeyChar
    match (rest.dropWhile isKeyChar).dropWhile isTagBlank with
    | '=' :: after => some ((readValue after).map fun (value, after) => ((key, value), after))
    | after => some (.ok ((key, []), after))

/-- What is left after dropping is no longer. -/
theorem length_dropWhile_le (p : Char → Bool) (text : List Char) :
    (text.dropWhile p).length ≤ text.length :=
  (List.dropWhile_sublist p).length_le

/-- What is left after a value is no longer. -/
theorem length_le_of_readValue {text value after : List Char}
    (h : readValue text = .ok (value, after)) : after.length ≤ text.length := by
  unfold readValue at h
  have hb := length_dropWhile_le isTagBlank text
  split at h
  · simp at h
  · rename_i c rest heq
    rw [heq] at hb
    split at h
    · split at h
      · simp at h
      · rename_i d after' heq'
        have hq := length_dropWhile_le (· != c) rest
        rw [heq'] at hq
        simp only [Except.ok.injEq, Prod.mk.injEq] at h
        rw [← h.2]
        simp only [List.length_cons] at hb hq
        omega
    · have hq := length_dropWhile_le (!isTagBlank ·) (c :: rest)
      simp only [Except.ok.injEq, Prod.mk.injEq] at h
      rw [← h.2]
      omega

/-- **What is left after an attribute is shorter**, so reading a list of
them ends. -/
theorem length_lt_of_readAttribute {text after : List Char} {a : List Char × List Char}
    (h : readAttribute text = some (.ok (a, after))) : after.length < text.length := by
  unfold readAttribute at h
  have hb := length_dropWhile_le isTagBlank text
  split at h
  · simp at h
  · rename_i c rest heq
    rw [heq] at hb
    simp only [List.length_cons] at hb
    have hk := length_dropWhile_le isKeyChar rest
    have hd := length_dropWhile_le isTagBlank (rest.dropWhile isKeyChar)
    dsimp only at h
    split at h
    · rename_i after' heq'
      rw [heq'] at hd
      simp only [List.length_cons] at hd
      cases hv : readValue after' with
      | error e => simp [hv, Except.map] at h
      | ok va =>
        have := @length_le_of_readValue _ va.1 va.2 hv
        simp only [hv, Except.map, Option.some.injEq, Except.ok.injEq, Prod.mk.injEq] at h
        rw [← h.2]
        omega
    · simp only [Option.some.injEq, Except.ok.injEq, Prod.mk.injEq] at h
      rw [← h.2]
      omega

/-- The attributes of a list up to the first fault, and the fault. -/
def readAttributes (text : List Char) : List (List Char × List Char) × Option AttributeFault :=
  match _h : readAttribute text with
  | none => ([], none)
  | some (.error fault) => ([], some fault)
  | some (.ok (a, after)) =>
    let (attrs, fault) := readAttributes after
    (a :: attrs, fault)
termination_by text.length
decreasing_by exact length_lt_of_readAttribute _h

end PageSlots.Markup
