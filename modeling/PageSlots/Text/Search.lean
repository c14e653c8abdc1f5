/-!
# Finding and measuring text

`breakOn?` cuts a text at the first place where a pattern stands. It is
the one search that the reading of comments, of declarations and of
default values shares.

Positions in markup are told in bytes, so `byteLength` measures a text in
the bytes it takes. It is the size of the string with these characters
(`byteLength_toList`).
-/

namespace PageSlots.Text

/-- **Cut a text at the first occurrence of a pattern**: what stands
before it and what stands after it. -/
def breakOn? (pattern : List Char) : List Char → Option (List Char × List Char)
  | [] => if pattern.isEmpty then some ([], []) else none
  | c :: text =>
    if pattern.isPrefixOf (c :: text) then some ([], (c :: text).drop pattern.length)
    else (breakOn? pattern text).map fun (before, after) => (c :: before, after)

/-- **The two pieces and the pattern make up the text.** -/
theorem eq_append_of_breakOn? {pattern : List Char} :
    ∀ {text before after : List Char}, breakOn? pattern text = some (before, after) →
      text = before ++ pattern ++ after
  | [], before, after, h => by
    unfold breakOn? at h
    split at h
    · simp only [Option.some.injEq, Prod.mk.injEq] at h
      obtain ⟨rfl, rfl⟩ := h
      simp_all
    · simp at h
  | c :: text, before, after, h => by
    unfold breakOn? at h
    split at h
    · rename_i hp
      simp only [Option.some.injEq, Prod.mk.injEq] at h
      obtain ⟨rfl, rfl⟩ := h
      obtain ⟨t, ht⟩ := List.isPrefixOf_iff_prefix.1 hp
      rw [← ht]
      simp
    · obtain ⟨⟨b, a⟩, hb, he⟩ := Option.map_eq_some_iff.1 h
      simp only [Prod.mk.injEq] at he
      obtain ⟨rfl, rfl⟩ := he
      rw [eq_append_of_breakOn? hb]
      simp

/-- The number of bytes a text takes in UTF-8. -/
def byteLength (text : List Char) : Nat :=
  text.foldr (fun c n => c.utf8Size + n) 0

@[simp] theorem byteLength_nil : byteLength [] = 0 := rfl

@[simp] theorem byteLength_cons (c : Char) (text : List Char) :
    byteLength (c :: text) = c.utf8Size + byteLength text := rfl

@[simp] theorem byteLength_append (s t : List Char) :
    byteLength (s ++ t) = byteLength s + byteLength t := by
  induction s with
  | nil => simp
  | cons c s ih => simp [ih, Nat.add_assoc]

/-- **The bytes of a string are the bytes of its characters.** -/
theorem byteLength_toList (s : String) : byteLength s.toList = s.utf8ByteSize := by
  suffices h : ∀ text : List Char, byteLength text = (String.ofList text).utf8ByteSize by
    rw [h, String.ofList_toList]
  intro text
  induction text with
  | nil => simp
  | cons c text ih =>
    rw [← List.singleton_append, String.ofList_append, String.utf8ByteSize_append,
      byteLength_append, ih, ← String.singleton_eq_ofList, String.utf8ByteSize_singleton]
    simp

/-- A text with its ASCII letters in lower case and all else as it is. -/
def asciiLower (text : List Char) : List Char :=
  text.map Char.toLower

end PageSlots.Text
