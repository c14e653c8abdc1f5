import Mathlib.Data.List.DropRight
import PageSlots.Proofs.Content.Fragment

/-!
# Pieces of markup that are read as they were written

The tag of an element, an attribute, a text, a comment and the body of a
raw text element are each written without regard to what follows. For each
of them this module names the characters that may stand in it – a tag may
hold no blank, a value no double quote, a text nothing that opens a
construct – and shows that the piece ends, when it is read, where it ended
when it was written, whatever the rest of the markup is.
-/

namespace PageSlots.Markup

open PageSlots.Text

/-! ## Clean pieces -/

/-- A character of a name that is read as it is written: no capital letter
of ASCII, no blank, and none of those that end a tag or open a value. -/
def IsCleanChar (c : Char) : Prop :=
  c.isUpper = false ∧ isTagBlank c = false ∧ c ∉ ['>', '"', '\'']

instance (c : Char) : Decidable (IsCleanChar c) :=
  inferInstanceAs (Decidable (_ ∧ _ ∧ _))

theorem IsCleanChar.ne {c : Char} (h : IsCleanChar c) : c ≠ '>' ∧ c ≠ '"' ∧ c ≠ '\'' := by
  obtain ⟨-, -, hout⟩ := h
  simp only [List.mem_cons, List.not_mem_nil, or_false, not_or] at hout
  exact hout

/-- **A tag that is read as it is written.** It begins with a letter. -/
def IsCleanTag (tag : String) : Prop :=
  ∃ c cs, tag.toList = c :: cs ∧ c.isLower = true ∧ ∀ d ∈ cs, IsCleanChar d

/-- **An attribute that is read as it is written.** Its value may hold
anything but a double quote. -/
structure Attribute.IsClean (a : Attribute) : Prop where
  /-- There is a name. -/
  name_ne : a.name ≠ ""
  /-- Its characters stand for themselves. -/
  name_char : ∀ c ∈ a.name.toList, IsCleanChar c ∧ c ≠ '='
  /-- The value does not end before its end. -/
  value_char : '"' ∉ a.value.toList

/-- The attributes of a tag as they are written. -/
def writtenAttributes (attrs : List Attribute) : List Char :=
  attrs.flatMap (·.written.toList)

/-- **A start tag that is read as it is written.** -/
structure IsCleanStart (tag : String) (attrs : List Attribute) : Prop where
  /-- The tag stands for itself. -/
  isClean_tag : IsCleanTag tag
  /-- So does each attribute. -/
  isClean_attrs : ∀ a ∈ attrs, a.IsClean
  /-- No attribute is there twice. -/
  nodup : (attributeNames attrs).Nodup
  /-- No slash before the `>` makes the element an empty one. -/
  no_slash : (tag.toList ++ writtenAttributes attrs).getLast? ≠ some '/'

/-! ## Plain pieces

Most markup is made of less: small letters, digits and dashes in a tag,
and names without the signs of markup. -/

/-- A plain character of a tag: a small letter, a digit or a dash. -/
def IsTagChar (c : Char) : Prop :=
  c.isLower = true ∨ c.isDigit = true ∨ c = '-'

instance (c : Char) : Decidable (IsTagChar c) :=
  inferInstanceAs (Decidable (_ ∨ _))

/-- **A plain tag.** It begins with a letter. -/
def IsPlainTag (tag : String) : Prop :=
  ∃ c cs, tag.toList = c :: cs ∧ c.isLower = true ∧ ∀ d ∈ cs, IsTagChar d

/-- A plain character of an attribute name: no capital letter of ASCII, no
blank, and none of those that end a name, a tag or a value. -/
def IsNameChar (c : Char) : Prop :=
  c.isUpper = false ∧ isTagBlank c = false ∧ c ∉ ['=', '>', '/', '<', '"', '\'']

instance (c : Char) : Decidable (IsNameChar c) :=
  inferInstanceAs (Decidable (_ ∧ _ ∧ _))

/-- **A plain attribute.** Its value may hold anything but a double
quote. -/
structure Attribute.IsPlain (a : Attribute) : Prop where
  /-- There is a name. -/
  name_ne : a.name ≠ ""
  /-- Its characters stand for themselves. -/
  name_char : ∀ c ∈ a.name.toList, IsNameChar c
  /-- The value does not end before its end. -/
  value_char : '"' ∉ a.value.toList

/-- **A text in which nothing opens a construct.** -/
def IsPlainText (text : List Char) : Prop :=
  ∀ before after, text = before ++ '<' :: after → opensConstruct after = false

theorem isPlainText_nil : IsPlainText [] := fun before after h => by
  simp at h

/-- A comment that is read as it is written: it does not end early. -/
structure IsPlainComment (text : List Char) : Prop where
  /-- The end does not stand in it. -/
  not_end : ¬ ['-', '-', '>'] <:+: text
  /-- It does not begin with what would end an empty comment. -/
  not_start : ¬ ['>'] <+: text ∧ ¬ ['-', '>'] <+: text

/-! ## Tags -/

/-- What is mapped to a result was one. -/
theorem exists_of_map_eq_ok {ε α β : Type} {f : α → β} {r : Except ε α} {b : β}
    (h : r.map f = .ok b) : ∃ a, r = .ok a ∧ f a = b := by
  cases r with
  | error e => cases h
  | ok a => exact ⟨a, rfl, Except.ok.inj h⟩

/-- What is read of a tag, with characters before its content. -/
def withBefore (s : List Char) (r : Except ConstructFault (List Char × List Char)) :
    Except ConstructFault (List Char × List Char) :=
  r.map fun (content, rest) => (s ++ content, rest)

@[simp] theorem withBefore_nil (r : Except ConstructFault (List Char × List Char)) :
    withBefore [] r = r := by
  cases r <;> rfl

@[simp] theorem withBefore_withBefore (s s' : List Char)
    (r : Except ConstructFault (List Char × List Char)) :
    withBefore s (withBefore s' r) = withBefore (s ++ s') r := by
  cases r <;> simp [withBefore, Except.map]

/-- One more character of a tag. -/
theorem readTag_cons {quote : Option Char} {c : Char} (h : ¬ (quote = none ∧ c = '>'))
    (text : List Char) :
    readTag quote (c :: text) = withBefore [c] (readTag (quoteAfter quote c) text) := by
  rw [readTag, if_neg h]
  rfl

/-- A part of a tag without quotes and without a `>` is read as it is. -/
theorem readTag_append {s : List Char} (hs : ∀ c ∈ s, c ≠ '>' ∧ c ≠ '"' ∧ c ≠ '\'')
    (text : List Char) : readTag none (s ++ text) = withBefore s (readTag none text) := by
  induction s with
  | nil => simp
  | cons c s ih =>
    obtain ⟨hgt, hdq, hsq⟩ := hs c List.mem_cons_self
    rw [List.cons_append, readTag_cons (by simp [hgt]), quoteAfter, if_neg (by simp [hdq, hsq]),
      ih fun d hd => hs d (List.mem_cons_of_mem _ hd)]
    simp

/-- A value without double quotes is read up to the quote that ends
it. -/
theorem readTag_value {v : List Char} (hv : '"' ∉ v) (text : List Char) :
    readTag (some '"') (v ++ '"' :: text) = withBefore (v ++ ['"']) (readTag none text) := by
  induction v with
  | nil => rw [List.nil_append, readTag_cons (by simp), quoteAfter, if_pos rfl, List.nil_append]
  | cons c v ih =>
    rw [List.mem_cons, not_or] at hv
    rw [List.cons_append, readTag_cons (by simp), quoteAfter, if_neg (Ne.symm hv.1), ih hv.2]
    simp

/-- A `=` and a value between double quotes are read over as they are. -/
theorem readTag_quoted {v : List Char} (hv : '"' ∉ v) (text : List Char) :
    readTag none ('=' :: '"' :: (v ++ ['"']) ++ text)
      = withBefore ('=' :: '"' :: (v ++ ['"'])) (readTag none text) := by
  rw [List.cons_append, List.cons_append, List.append_assoc, readTag_cons (by simp),
    quoteAfter, if_neg (by simp), readTag_cons (by simp), quoteAfter, if_pos (by simp),
    List.cons_append, List.nil_append, readTag_value hv text]
  simp

/-- What stands after the name of a written attribute. -/
def Attribute.assigned (a : Attribute) : List Char :=
  if a.value = "" then [] else '=' :: '"' :: (a.value.toList ++ ['"'])

/-- The characters of a value between double quotes. -/
theorem toList_quoteValue (value : String) :
    (quoteValue value).toList
      = value.toList.flatMap fun c => (if c = '"' then "&quot;" else c.toString).toList := by
  rw [quoteValue, String.toList_join, List.flatMap_map]

/-- A value without double quotes is written as it is. -/
theorem quoteValue_eq_self {value : String} (h : '"' ∉ value.toList) : quoteValue value = value := by
  rw [← String.toList_inj, toList_quoteValue]
  have hall : ∀ l : List Char, '"' ∉ l →
      l.flatMap (fun c => (if c = '"' then "&quot;" else c.toString).toList) = l := by
    intro l hl
    induction l with
    | nil => rfl
    | cons c l ih =>
      rw [List.mem_cons, not_or] at hl
      rw [List.flatMap_cons, if_neg (Ne.symm hl.1), ih hl.2]
      simp
  exact hall _ h

/-- **A written attribute**, as characters. -/
theorem Attribute.toList_written {a : Attribute} (h : '"' ∉ a.value.toList) :
    a.written.toList = ' ' :: (a.name.toList ++ a.assigned) := by
  unfold Attribute.written Attribute.assigned
  by_cases hv : a.value = ""
  · simp [hv]
  · simp [hv, quoteValue_eq_self h, String.toList_append]

theorem writtenAttributes_cons {a : Attribute} (ha : a.IsClean) (attrs : List Attribute) :
    writtenAttributes (a :: attrs)
      = ' ' :: (a.name.toList ++ (a.assigned ++ writtenAttributes attrs)) := by
  rw [writtenAttributes, List.flatMap_cons, Attribute.toList_written ha.value_char]
  simp [writtenAttributes]

/-- The attributes of a tag are read over as they are. -/
theorem readTag_writtenAttributes {attrs : List Attribute} (h : ∀ a ∈ attrs, a.IsClean)
    (text : List Char) :
    readTag none (writtenAttributes attrs ++ text)
      = withBefore (writtenAttributes attrs) (readTag none text) := by
  induction attrs with
  | nil => simp [writtenAttributes]
  | cons a attrs ih =>
    have ha := h a List.mem_cons_self
    have hname : ∀ c ∈ ' ' :: a.name.toList, c ≠ '>' ∧ c ≠ '"' ∧ c ≠ '\'' := by
      intro c hc
      rcases List.mem_cons.1 hc with rfl | hc
      · decide
      · exact (ha.name_char c hc).1.ne
    have hvalue : ∀ text, readTag none (a.assigned ++ text)
        = withBefore a.assigned (readTag none text) := by
      intro text
      unfold Attribute.assigned
      split
      · simp
      · exact readTag_quoted ha.value_char text
    rw [writtenAttributes_cons ha, ← List.cons_append, List.append_assoc, readTag_append hname,
      List.append_assoc, hvalue, ih fun b hb => h b (List.mem_cons_of_mem _ hb)]
    simp

/-! ## Attributes -/

/-- Blanks before an attribute do not count. -/
theorem readAttribute_dropWhile (text : List Char) :
    readAttribute (text.dropWhile isTagBlank) = readAttribute text := by
  unfold readAttribute
  rw [List.dropWhile_idempotent]

theorem readAttributes_dropWhile (text : List Char) :
    readAttributes (text.dropWhile isTagBlank) = readAttributes text := by
  rw [readAttributes, readAttribute_dropWhile]
  conv => rhs; rw [readAttributes]

/-- A name is not empty, so it has a first character. -/
theorem Attribute.IsClean.exists_cons {a : Attribute} (h : a.IsClean) :
    ∃ c cs, a.name.toList = c :: cs ∧ isTagBlank c = false ∧ c ≠ '='
      ∧ ∀ d ∈ cs, isKeyChar d = true := by
  obtain ⟨c, cs, hc⟩ := List.exists_cons_of_ne_nil
    (fun hn => h.name_ne (String.toList_inj.1 hn) : a.name.toList ≠ [])
  have hsign : ∀ d ∈ a.name.toList, isTagBlank d = false ∧ d ≠ '=' := fun d hd =>
    ⟨(h.name_char d hd).1.2.1, (h.name_char d hd).2⟩
  refine ⟨c, cs, hc, (hsign c (hc ▸ List.mem_cons_self)).1,
    (hsign c (hc ▸ List.mem_cons_self)).2, fun d hd => ?_⟩
  obtain ⟨hblank, heq⟩ := hsign d (hc ▸ List.mem_cons_of_mem _ hd)
  simp [isKeyChar, hblank, heq]

/-- What follows an attribute begins with a blank. -/
theorem eq_of_mem_head?_writtenAttributes {attrs : List Attribute} (h : ∀ a ∈ attrs, a.IsClean)
    {c : Char} (hc : c ∈ (writtenAttributes attrs).head?) : c = ' ' := by
  cases attrs with
  | nil => cases hc
  | cons a attrs =>
    rw [writtenAttributes_cons (h a List.mem_cons_self)] at hc
    exact (Option.some.inj hc).symm

/-- What follows an attribute gives it no value. -/
theorem head?_dropWhile_writtenAttributes {attrs : List Attribute} (h : ∀ a ∈ attrs, a.IsClean) :
    ((writtenAttributes attrs).dropWhile isTagBlank).head? ≠ some '=' := by
  cases attrs with
  | nil => simp [writtenAttributes]
  | cons a attrs =>
    obtain ⟨c, cs, hc, hblank, heq, -⟩ := (h a List.mem_cons_self).exists_cons
    rw [writtenAttributes_cons (h a List.mem_cons_self), hc, List.cons_append,
      List.dropWhile_cons_of_pos (by decide), List.dropWhile_cons_of_neg (by simp [hblank])]
    exact fun hd => heq (Option.some.inj hd)

/-- A stretch of characters of a kind in front of one that is not. -/
theorem takeWhile_append {p : Char → Bool} {s text : List Char} (hs : ∀ c ∈ s, p c = true)
    (ht : ∀ c ∈ text.head?, p c = false) : (s ++ text).takeWhile p = s := by
  rw [List.takeWhile_append_of_pos hs]
  cases text with
  | nil => simp
  | cons c text => rw [List.takeWhile_cons_of_neg (by simp [ht c rfl]), List.append_nil]

/-- What stands after a stretch of characters of a kind. -/
theorem dropWhile_append {p : Char → Bool} {s text : List Char} (hs : ∀ c ∈ s, p c = true)
    (ht : ∀ c ∈ text.head?, p c = false) : (s ++ text).dropWhile p = text := by
  rw [List.dropWhile_append_of_pos hs]
  cases text with
  | nil => rfl
  | cons c text => rw [List.dropWhile_cons_of_neg (by simp [ht c rfl])]

/-- A value between double quotes is read up to the second one. -/
theorem readValue_quoted {v : List Char} (hv : '"' ∉ v) (text : List Char) :
    readValue ('"' :: (v ++ '"' :: text)) = .ok (v, text) := by
  have hin : ∀ c ∈ v, (c != '"') = true := fun c hc => by
    have : c ≠ '"' := fun he => hv (he ▸ hc)
    simp [this]
  have hout : ∀ c ∈ ('"' :: text).head?, (c != '"') = false := fun c hc => by
    rw [← Option.some.inj hc]
    decide
  unfold readValue
  rw [List.dropWhile_cons_of_neg (by decide)]
  dsimp only
  rw [if_pos (by decide), takeWhile_append hin hout, dropWhile_append hin hout]

/-- **An attribute with a value between double quotes is read as it was
written**, whatever the rest is and even if the value is empty. -/
theorem readAttribute_quoted {a : Attribute} (ha : a.IsClean) (rest : List Char) :
    readAttribute (' ' :: (a.name.toList ++ ('=' :: '"' :: (a.value.toList ++ ['"']) ++ rest)))
      = some (.ok ((a.name.toList, a.value.toList), rest)) := by
  obtain ⟨c, cs, hc, hblank, -, hkey⟩ := ha.exists_cons
  have heq : ∀ d ∈ ('=' :: '"' :: (a.value.toList ++ ['"']) ++ rest).head?,
      isKeyChar d = false := fun d hd => by
    rw [← Option.some.inj hd]
    decide
  rw [hc]
  unfold readAttribute
  rw [List.cons_append, List.dropWhile_cons_of_pos (by decide),
    List.dropWhile_cons_of_neg (by simp [hblank])]
  dsimp only
  rw [takeWhile_append hkey heq, dropWhile_append hkey heq,
    List.cons_append, List.dropWhile_cons_of_neg (by decide), List.cons_append,
    List.append_assoc, List.singleton_append]
  show some ((readValue ('"' :: (a.value.toList ++ '"' :: rest))).map _) = _
  rw [readValue_quoted ha.value_char]
  rfl

/-- **An attribute is read as it was written.** Blanks after a name without
value are read with it. -/
theorem readAttribute_written {a : Attribute} {attrs : List Attribute} (ha : a.IsClean)
    (h : ∀ b ∈ attrs, b.IsClean) :
    readAttribute (writtenAttributes (a :: attrs))
      = some (.ok ((a.name.toList, a.value.toList),
          if a.value = "" then (writtenAttributes attrs).dropWhile isTagBlank
          else writtenAttributes attrs)) := by
  rw [writtenAttributes_cons ha, Attribute.assigned]
  by_cases hv : a.value = ""
  · obtain ⟨c, cs, hc, hblank, -, hkey⟩ := ha.exists_cons
    have hhead : ∀ d ∈ (writtenAttributes attrs).head?, isKeyChar d = false := fun d hd => by
      rw [eq_of_mem_head?_writtenAttributes h hd]
      decide
    rw [if_pos hv, if_pos hv, List.nil_append, hc]
    unfold readAttribute
    rw [List.cons_append, List.dropWhile_cons_of_pos (by decide),
      List.dropWhile_cons_of_neg (by simp [hblank])]
    dsimp only
    rw [takeWhile_append hkey hhead, dropWhile_append hkey hhead, hv]
    split
    · rename_i after heq
      exact absurd (by rw [heq]; rfl) (head?_dropWhile_writtenAttributes h)
    · rfl
  · rw [if_neg hv, if_neg hv]
    exact readAttribute_quoted ha (writtenAttributes attrs)

/-- **The attributes of a tag are read as they were written.** -/
theorem readAttributes_written {attrs : List Attribute} (h : ∀ a ∈ attrs, a.IsClean) :
    readAttributes (writtenAttributes attrs)
      = (attrs.map fun a => (a.name.toList, a.value.toList), none) := by
  induction attrs with
  | nil => rw [readAttributes]; rfl
  | cons a attrs ih =>
    have htail : ∀ b ∈ attrs, b.IsClean := fun b hb => h b (List.mem_cons_of_mem _ hb)
    have hstep := readAttribute_written (h a List.mem_cons_self) htail
    rw [readAttributes]
    grind [readAttributes_dropWhile]

/-! ## Elements -/

/-- Characters without capital letters of ASCII are in lower case. -/
theorem asciiLower_eq_self {text : List Char} (h : ∀ c ∈ text, c.isUpper = false) :
    asciiLower text = text := by
  refine (List.map_congr_left fun c hc => ?_).trans (List.map_id _)
  have hu : ¬ ('A'.val ≤ c.val ∧ c.val ≤ 'Z'.val) := of_decide_eq_false (h c hc)
  exact dif_neg hu

theorem IsTagChar.isUpper_eq {c : Char} (h : IsTagChar c) : c.isUpper = false := by
  refine decide_eq_false fun ⟨hge, hle⟩ => ?_
  rcases h with h | h | rfl
  · have hlow : 'a'.val ≤ c.val := of_decide_eq_true (Bool.and_eq_true_iff.1 h).1
    exact absurd (UInt32.le_trans hlow hle) (by decide)
  · have hdigit : c.val ≤ '9'.val := of_decide_eq_true (Bool.and_eq_true_iff.1 h).2
    exact absurd (UInt32.le_trans hge hdigit) (by decide)
  · exact absurd hge (by decide)

/-- A character of a tag is none of those that are not. -/
theorem IsTagChar.ne {c d : Char} (h : IsTagChar c) (hd : ¬ IsTagChar d) : c ≠ d := by
  rintro rfl
  exact hd h

theorem IsTagChar.isClean {c : Char} (h : IsTagChar c) : IsCleanChar c := by
  have h₁ := h.ne (d := ' ') (by decide)
  have h₂ := h.ne (d := '\t') (by decide)
  have h₃ := h.ne (d := '\n') (by decide)
  have h₄ := h.ne (d := '\r') (by decide)
  have h₅ := h.ne (d := '>') (by decide)
  have h₆ := h.ne (d := '"') (by decide)
  have h₇ := h.ne (d := '\'') (by decide)
  exact ⟨h.isUpper_eq, by simp [isTagBlank, h₁, h₂, h₃, h₄], by simp [h₅, h₆, h₇]⟩

theorem IsCleanTag.isCleanChar {tag : String} (h : IsCleanTag tag) :
    ∀ c ∈ tag.toList, IsCleanChar c := by
  obtain ⟨c, cs, ht, hc, hcs⟩ := h
  intro d hd
  rw [ht] at hd
  rcases List.mem_cons.1 hd with rfl | hd
  · exact IsTagChar.isClean (.inl hc)
  · exact hcs d hd

theorem IsCleanTag.asciiLower_eq {tag : String} (h : IsCleanTag tag) :
    asciiLower tag.toList = tag.toList :=
  asciiLower_eq_self fun c hc => (h.isCleanChar c hc).1

/-- **Clean attributes with distinct names are added one by one**, each
after those that are there. -/
theorem Own.foldl_addAttribute {o : Own} {attrs : List Attribute} (h : ∀ a ∈ attrs, a.IsClean)
    (hn : (attributeNames (o.attrs ++ attrs)).Nodup) :
    (attrs.map fun a => (a.name.toList, a.value.toList)).foldl Own.addAttribute o
      = { o with attrs := o.attrs ++ attrs } := by
  induction attrs generalizing o with
  | nil => rw [List.append_nil]; rfl
  | cons a attrs ih =>
    have hname : asciiLower a.name.toList = a.name.toList :=
      asciiLower_eq_self fun c hc => ((h a List.mem_cons_self).name_char c hc).1.1
    have hnot : a.name ∉ attributeNames o.attrs := by
      rw [attributeNames_append, attributeNames_cons] at hn
      exact fun hm => (List.nodup_append.1 hn).2.2 _ hm _ List.mem_cons_self rfl
    have hstep : o.addAttribute (a.name.toList, a.value.toList)
        = { o with attrs := o.attrs ++ [a] } := by
      unfold Own.addAttribute Own.setAttr
      dsimp only
      rw [hname, String.ofList_toList, String.ofList_toList,
        if_neg fun hh => hnot (Own.hasAttr_iff.1 hh), setAttribute_of_notMem hnot]
    rw [List.map_cons, List.foldl_cons, hstep,
      ih (fun b hb => h b (List.mem_cons_of_mem _ hb)) (by rw [List.append_assoc]; exact hn),
      List.append_assoc]
    rfl

namespace IsCleanStart

variable {tag : String} {attrs : List Attribute} (h : IsCleanStart tag attrs)
include h

/-- The name of a tag ends where the attributes begin. -/
theorem tagName_written :
    tagName (tag.toList ++ writtenAttributes attrs) = tag.toList
      ∧ tagAttributes (tag.toList ++ writtenAttributes attrs) = writtenAttributes attrs := by
  have hin : ∀ c ∈ tag.toList, (!isTagBlank c) = true := fun c hc => by
    simp [(h.isClean_tag.isCleanChar c hc).2.1]
  have hout : ∀ c ∈ (writtenAttributes attrs).head?, (!isTagBlank c) = false := fun c hc => by
    rw [eq_of_mem_head?_writtenAttributes h.isClean_attrs hc]
    decide
  exact ⟨takeWhile_append hin hout, dropWhile_append hin hout⟩

/-- **The element of a written tag** is the one that was written. -/
theorem ofTag?_written :
    Own.ofTag? (tag.toList ++ writtenAttributes attrs) = .ok { kind := .element, tag, attrs } := by
  obtain ⟨hname, hattrs⟩ := h.tagName_written
  unfold Own.ofTag? Own.ofTag
  rw [hname, hattrs, readAttributes_written h.isClean_attrs, h.isClean_tag.asciiLower_eq, String.ofList_toList]
  exact congrArg Except.ok (Own.foldl_addAttribute h.isClean_attrs h.nodup)

end IsCleanStart

/-- **A plain tag is clean.** -/
theorem IsPlainTag.isClean {tag : String} (h : IsPlainTag tag) : IsCleanTag tag := by
  obtain ⟨c, cs, ht, hc, hcs⟩ := h
  exact ⟨c, cs, ht, hc, fun d hd => (hcs d hd).isClean⟩

theorem IsPlainTag.isTagChar {tag : String} (h : IsPlainTag tag) :
    ∀ c ∈ tag.toList, IsTagChar c := by
  obtain ⟨c, cs, ht, hc, hcs⟩ := h
  intro d hd
  rw [ht] at hd
  rcases List.mem_cons.1 hd with rfl | hd
  · exact Or.inl hc
  · exact hcs d hd

/-- **A plain attribute is clean.** -/
theorem Attribute.IsPlain.isClean {a : Attribute} (h : a.IsPlain) : a.IsClean where
  name_ne := h.name_ne
  name_char c hc := by
    obtain ⟨hu, hb, hout⟩ := h.name_char c hc
    simp only [List.mem_cons, List.not_mem_nil, or_false, not_or] at hout
    exact ⟨⟨hu, hb, by simp [hout]⟩, hout.1⟩
  value_char := h.value_char

/-- Plain attributes do not end a tag with a slash. -/
theorem getLast?_append_writtenAttributes {attrs : List Attribute} (ha : ∀ a ∈ attrs, a.IsPlain)
    {l : List Char} (hl : l.getLast? ≠ some '/') :
    (l ++ writtenAttributes attrs).getLast? ≠ some '/' := by
  induction attrs generalizing l with
  | nil => rwa [writtenAttributes, List.flatMap_nil, List.append_nil]
  | cons a attrs ih =>
    have hplain := ha a List.mem_cons_self
    rw [writtenAttributes_cons hplain.isClean, ← List.append_assoc a.name.toList,
      ← List.cons_append, ← List.append_assoc]
    refine ih (fun b hb => ha b (List.mem_cons_of_mem _ hb)) fun he => ?_
    unfold Attribute.assigned at he
    split at he
    · rw [List.append_nil, List.getLast?_append] at he
      have hname : ('/' : Char) ∈ ' ' :: a.name.toList := by
        cases hlast : (' ' :: a.name.toList).getLast? with
        | none => exact absurd (List.getLast?_eq_none_iff.1 hlast) (List.cons_ne_nil _ _)
        | some d =>
          rw [hlast, Option.some_or] at he
          exact Option.some.inj he ▸ List.mem_of_getLast? hlast
      rcases List.mem_cons.1 hname with hc | hc
      · exact absurd hc (by decide)
      · exact (hplain.name_char _ hc).2.2 (by decide)
    · rw [← List.cons_append, ← List.cons_append, ← List.append_assoc, ← List.cons_append,
        ← List.append_assoc, List.getLast?_concat] at he
      exact absurd (Option.some.inj he) (by decide)

/-- A plain tag does not end with a slash. -/
theorem IsPlainTag.getLast?_ne {tag : String} (h : IsPlainTag tag) :
    tag.toList.getLast? ≠ some '/' := fun he =>
  (h.isTagChar _ (List.mem_of_getLast? he)).ne (by decide) rfl

/-- **A start tag of plain pieces is clean**: it does not end with a
slash. -/
theorem IsPlainTag.isCleanStart {tag : String} {attrs : List Attribute} (h : IsPlainTag tag)
    (ha : ∀ a ∈ attrs, a.IsPlain) (hn : (attributeNames attrs).Nodup) :
    IsCleanStart tag attrs where
  isClean_tag := h.isClean
  isClean_attrs a hm := (ha a hm).isClean
  nodup := hn
  no_slash := getLast?_append_writtenAttributes ha h.getLast?_ne

/-! ## Constructs -/

section Constructs

variable {tag : String} {attrs : List Attribute}

/-- A tag's own characters are read over as they are. -/
theorem readTag_tag (h : IsCleanTag tag) (text : List Char) :
    readTag none (tag.toList ++ text) = withBefore tag.toList (readTag none text) :=
  readTag_append (fun c hc => (h.isCleanChar c hc).ne) text

/-- The `>` ends a tag. -/
theorem readTag_end (rest : List Char) : readTag none ('>' :: rest) = .ok ([], rest) := by
  rw [readTag, if_pos ⟨rfl, rfl⟩]

/-- What begins with a letter is a start tag. -/
theorem readConstruct_of_isAlpha {c : Char} (hc : c.isAlpha = true) {text content rest : List Char}
    (hr : readTag none (c :: text) = .ok (content, rest)) :
    readConstruct (c :: text) = .ok (startOrEmpty content, rest) := by
  unfold readConstruct
  split
  all_goals try
    rename_i heq
    have := (List.cons.inj heq).1
    subst this
    exact absurd hc (by decide)
  rw [hr]

theorem readConstruct_tag (h : IsCleanTag tag) {text content rest : List Char}
    (hr : readTag none (tag.toList ++ text) = .ok (content, rest)) :
    readConstruct (tag.toList ++ text) = .ok (startOrEmpty content, rest) := by
  obtain ⟨c, cs, hc, hlow, -⟩ := h
  rw [hc] at hr ⊢
  exact readConstruct_of_isAlpha (Bool.or_eq_true_iff.2 (.inr hlow)) hr

/-- **A start tag is read as it was written.** -/
theorem readConstruct_startTag (h : IsCleanStart tag attrs) (rest : List Char) :
    readConstruct (tag.toList ++ (writtenAttributes attrs ++ '>' :: rest))
      = .ok (.startTag (tag.toList ++ writtenAttributes attrs), rest) := by
  have hread : readTag none (tag.toList ++ (writtenAttributes attrs ++ '>' :: rest))
      = .ok (tag.toList ++ writtenAttributes attrs, rest) := by
    rw [readTag_tag h.isClean_tag, readTag_writtenAttributes h.isClean_attrs, readTag_end]
    simp [withBefore, Except.map]
  rw [readConstruct_tag h.isClean_tag hread, startOrEmpty, if_neg h.no_slash]

/-- A character that is clean in lower case is none of those that a name
ends with. -/
theorem ne_of_isCleanChar_toLower {c : Char} (h : IsCleanChar c.toLower) :
    isTagBlank c = false ∧ c ≠ '>' ∧ c ≠ '"' ∧ c ≠ '\'' := by
  have hne : ∀ d : Char, ¬ IsCleanChar d.toLower → c ≠ d := fun d hd he => hd (he ▸ h)
  have h₁ := hne ' ' (by decide)
  have h₂ := hne '\t' (by decide)
  have h₃ := hne '\n' (by decide)
  have h₄ := hne '\r' (by decide)
  exact ⟨by simp [isTagBlank, h₁, h₂, h₃, h₄], hne _ (by decide), hne _ (by decide),
    hne _ (by decide)⟩

/-- A name that is a clean tag in lower case holds none of them. -/
theorem ne_of_asciiLower_eq (h : IsCleanTag tag) {name : List Char}
    (hname : asciiLower name = tag.toList) :
    ∀ c ∈ name, isTagBlank c = false ∧ c ≠ '>' ∧ c ≠ '"' ∧ c ≠ '\'' := fun _ hc =>
  ne_of_isCleanChar_toLower (h.isCleanChar _ (hname ▸ List.mem_map_of_mem hc))

/-- A blank ends no tag and opens no value. -/
theorem ne_of_isAsciiBlank {c : Char} (h : isAsciiBlank c = true) :
    c ≠ '>' ∧ c ≠ '"' ∧ c ≠ '\'' := by
  refine ⟨?_, ?_, ?_⟩ <;> rintro rfl <;> cases h

/-- Blanks after a name do not belong to it. -/
theorem dropRightWhile_name {p : Char → Bool} {name blanks : List Char}
    (hn : ∀ c ∈ name, p c = false) (hb : ∀ c ∈ blanks, p c = true) :
    dropRightWhile p (name ++ blanks) = name := by
  unfold dropRightWhile
  rw [List.reverse_append, dropWhile_append (fun c hc => hb c (List.mem_reverse.1 hc))
    fun c hc => hn c (List.mem_reverse.1 (List.mem_of_head? hc)), List.reverse_reverse]

/-- What stands in an end tag is read over up to the `>`. -/
theorem readConstruct_slash {content : List Char}
    (h : ∀ c ∈ content, c ≠ '>' ∧ c ≠ '"' ∧ c ≠ '\'') (rest : List Char) :
    readConstruct ('/' :: (content ++ '>' :: rest))
      = .ok (.endTag (dropRightWhile isTagBlank content), rest) := by
  rw [readConstruct, readTag_append h, readTag_end]
  simp [withBefore, Except.map]

/-- **An end tag is read by its name**, in either case and with blanks
behind it. -/
theorem readConstruct_closing (h : IsCleanTag tag) {name blanks : List Char}
    (hname : asciiLower name = tag.toList) (hblanks : ∀ c ∈ blanks, isTagBlank c = true)
    (rest : List Char) :
    readConstruct ('/' :: (name ++ (blanks ++ '>' :: rest))) = .ok (.endTag name, rest) := by
  have hinside : ∀ c ∈ name ++ blanks, c ≠ '>' ∧ c ≠ '"' ∧ c ≠ '\'' := by
    intro c hc
    rcases List.mem_append.1 hc with hc | hc
    · exact (ne_of_asciiLower_eq h hname c hc).2
    · exact ne_of_isAsciiBlank (Bool.or_eq_true_iff.2 (.inl (hblanks c hc)))
  rw [← List.append_assoc, readConstruct_slash hinside,
    dropRightWhile_name (fun c hc => (ne_of_asciiLower_eq h hname c hc).1) hblanks]

/-- **An end tag is read as it was written.** -/
theorem readConstruct_endTag (h : IsCleanTag tag) (rest : List Char) :
    readConstruct ('/' :: (tag.toList ++ '>' :: rest)) = .ok (.endTag tag.toList, rest) :=
  @readConstruct_closing tag h _ [] h.asciiLower_eq nofun rest

/-- A text in front of an end like that of a comment is cut there, unless
it holds the end. -/
theorem breakOn?_append {a b : Char} (hab : a ≠ b) {text : List Char}
    (h : ¬ [a, a, b] <:+: text) (rest : List Char) :
    breakOn? [a, a, b] (text ++ [a, a, b] ++ rest) = some (text, rest) := by
  induction text with
  | nil => simp [breakOn?]
  | cons c text ih =>
    have hstart : ¬ [a, a, b] <+: c :: (text ++ [a, a, b] ++ rest) := by
      intro hp
      rcases text with _ | ⟨d, _ | ⟨e, text⟩⟩
      · simp [hab.symm] at hp
      · simp [hab.symm] at hp
      · refine h (List.IsPrefix.isInfix ?_)
        simpa using hp
    rw [List.cons_append, List.cons_append, breakOn?,
      if_neg (fun hp => hstart (List.isPrefixOf_iff_prefix.1 hp)),
      ih fun hi => h (hi.trans (List.suffix_cons c text).isInfix)]
    rfl

/-- A comment ends where its end is first found. -/
theorem readBang_comment {text comment rest : List Char}
    (h : breakOn? ['-', '-', '>'] text = some (comment, rest)) :
    readBang ('-' :: '-' :: text) = .ok (.comment comment, rest) := by
  rw [readBang, h]

/-- So does a section of character data. -/
theorem readBang_characterData {text data rest : List Char}
    (h : breakOn? [']', ']', '>'] text = some (data, rest)) :
    readBang ('[' :: ("CDATA[".toList ++ text)) = .ok (.characterData data, rest) := by
  have hdrop : ("CDATA[".toList ++ text).drop 6 = text := rfl
  rw [readBang, if_pos (List.isPrefixOf_iff_prefix.2 (List.prefix_append _ _)), hdrop, h]

/-- **A comment is read as it was written**, unless it holds its end. -/
theorem readConstruct_comment {text : List Char} (h : ¬ ['-', '-', '>'] <:+: text)
    (rest : List Char) :
    readConstruct ('!' :: '-' :: '-' :: (text ++ ['-', '-', '>'] ++ rest))
      = .ok (.comment text, rest) :=
  readBang_comment (breakOn?_append (by decide) h rest)

/-- **A section of character data is read as it was written**, unless it
holds its end. -/
theorem readConstruct_characterData {data : List Char} (h : ¬ [']', ']', '>'] <:+: data)
    (rest : List Char) :
    readConstruct ("![CDATA[".toList ++ (data ++ [']', ']', '>'] ++ rest))
      = .ok (.characterData data, rest) :=
  readBang_characterData (breakOn?_append (by decide) h rest)

end Constructs

/-! ## Texts -/

/-- **What can follow a text**: nothing, or a construct. -/
def IsBoundary (rest : List Char) : Prop :=
  rest = [] ∨ ∃ after, rest = '<' :: after ∧ opensConstruct after = true

theorem opensConstruct_cons {c : Char} (hc : c ≠ '/') (text : List Char) :
    opensConstruct (c :: text) = (c.isAlpha || c == '!' || c == '?') := by
  unfold opensConstruct
  split
  · rename_i heq
    exact absurd (List.cons.inj heq).1 hc
  · rename_i heq
    rw [(List.cons.inj heq).1]
  · rename_i heq
    cases heq

/-- What follows a text does not decide whether a `<` in it opens a
construct. -/
theorem IsBoundary.opensConstruct_append {rest : List Char} (h : IsBoundary rest)
    (text : List Char) : opensConstruct (text ++ rest) = opensConstruct text := by
  rcases h with rfl | ⟨after, rfl, -⟩
  · rw [List.append_nil]
  · cases text with
    | nil => rfl
    | cons c text =>
      by_cases hc : c = '/'
      · subst hc
        cases text <;> rfl
      · rw [List.cons_append, opensConstruct_cons hc, opensConstruct_cons hc]

/-- **A plain text ends where the next construct begins.** -/
theorem breakAtConstruct_append_of_plain {text rest : List Char} (h : IsPlainText text)
    (hr : IsBoundary rest) : breakAtConstruct (text ++ rest) = (text, rest) := by
  induction text with
  | nil =>
    rcases hr with rfl | ⟨after, rfl, ho⟩
    · rfl
    · rw [List.nil_append, breakAtConstruct, if_pos (by simp [ho])]
  | cons c text ih =>
    have hopen : ¬ ((c == '<' && opensConstruct (text ++ rest)) = true) := by
      rw [Bool.and_eq_true, beq_iff_eq]
      rintro ⟨rfl, ho⟩
      rw [hr.opensConstruct_append, h [] text rfl] at ho
      cases ho
    rw [List.cons_append, breakAtConstruct, if_neg hopen,
      ih fun before after he => h (c :: before) after (by rw [he]; rfl)]

/-- **What stands behind the text before a construct** is nothing, or the
construct. -/
theorem isBoundary_of_breakAtConstruct {text before rest : List Char}
    (h : breakAtConstruct text = (before, rest)) : IsBoundary rest := by
  induction text generalizing before with
  | nil =>
    cases h
    exact .inl rfl
  | cons c text ih =>
    rw [breakAtConstruct] at h
    split at h
    · rename_i ho
      rw [Bool.and_eq_true, beq_iff_eq] at ho
      obtain ⟨rfl, ho⟩ := ho
      cases h
      exact .inr ⟨text, rfl, ho⟩
    · cases h
      exact ih rfl

theorem eq_of_breakAtConstruct {text before after : List Char} {c : Char}
    (h : breakAtConstruct text = (before, c :: after)) :
    c = '<' ∧ opensConstruct after = true := by
  obtain he | ⟨_, he, ho⟩ := isBoundary_of_breakAtConstruct h
  · cases he
  · cases he
    exact ⟨rfl, ho⟩

/-- A text that is not cut anywhere is plain. -/
theorem isPlainText_of_breakAtConstruct {text : List Char} (h : (breakAtConstruct text).2 = []) :
    IsPlainText text := by
  induction text with
  | nil => exact isPlainText_nil
  | cons c text ih =>
    rw [breakAtConstruct] at h
    split at h
    · cases h
    · rename_i hopen
      intro before after he
      cases before with
      | nil =>
        obtain ⟨rfl, rfl⟩ := List.cons.inj he
        exact Bool.eq_false_iff.2 fun ho => hopen (Bool.and_eq_true_iff.2 ⟨rfl, ho⟩)
      | cons d before => exact ih h before after (List.cons.inj he).2

/-- A character that is not the first of a raw text's end stays so whatever
is written after the text. -/
theorem endsRawText_append {tag : List Char} (ht : ∀ c ∈ tag, IsTagChar c) {c : Char}
    {text rest : List Char} (h : endsRawText tag (c :: text) = false) :
    endsRawText tag (c :: (text ++ '<' :: rest)) = false := by
  by_cases hc : c = '<'
  · subst hc
    cases text with
    | nil => rfl
    | cons d text =>
      by_cases hd : d = '/'
      · subst hd
        show (decide (asciiLower ((text ++ '<' :: rest).take tag.length) = tag)
          && decide ((((text ++ '<' :: rest).drop tag.length).dropWhile isAsciiBlank).head?
            = some '>')) = false
        replace h : (decide (asciiLower (text.take tag.length) = tag)
          && decide (((text.drop tag.length).dropWhile isAsciiBlank).head? = some '>')) = false := h
        by_cases hlen : tag.length ≤ text.length
        · rw [List.take_append_of_le_length hlen, List.drop_append_of_le_length hlen]
          rw [Bool.and_eq_false_iff] at h ⊢
          refine h.imp_right fun h => ?_
          rw [List.dropWhile_append]
          split
          · rfl
          · rename_i hne
            cases hdrop : (text.drop tag.length).dropWhile isAsciiBlank with
            | nil => simp [hdrop] at hne
            | cons e l =>
              rw [hdrop] at h
              exact h
        · rw [Bool.and_eq_false_iff]
          refine Or.inl (decide_eq_false fun he => ?_)
          have hmem : '<' ∈ (text ++ '<' :: rest).take tag.length := by
            rw [List.take_append, List.mem_append]
            refine Or.inr ?_
            obtain ⟨n, hn⟩ := Nat.exists_eq_succ_of_ne_zero
              (Nat.sub_ne_zero_of_lt (Nat.lt_of_not_le hlen))
            rw [hn, List.take_succ_cons]
            exact List.mem_cons_self
          have := ht '<' (he ▸ List.mem_map.2 ⟨'<', hmem, rfl⟩)
          exact absurd this (by decide)
      · simp [endsRawText, hd]
  · simp [endsRawText, hc]

/-- **A raw text ends where its end tag was written.** -/
theorem breakRawText_append_endTag {tag : String} (ht : IsPlainTag tag) {text : List Char}
    (h : (breakRawText tag.toList text).2 = []) (rest : List Char) :
    breakRawText tag.toList (text ++ '<' :: '/' :: (tag.toList ++ '>' :: rest))
      = (text, '<' :: '/' :: (tag.toList ++ '>' :: rest)) := by
  induction text with
  | nil =>
    have hend : endsRawText tag.toList ('<' :: '/' :: (tag.toList ++ '>' :: rest)) = true := by
      show (decide (asciiLower ((tag.toList ++ '>' :: rest).take tag.toList.length) = tag.toList)
        && _) = true
      rw [List.take_left, List.drop_left, ht.isClean.asciiLower_eq]
      simp [List.dropWhile_cons_of_neg (p := isAsciiBlank) (a := '>') (l := rest) (by decide)]
    rw [List.nil_append, breakRawText, if_pos hend]
  | cons c text ih =>
    rw [breakRawText] at h
    split at h
    · cases h
    · rename_i hend
      rw [List.cons_append, breakRawText,
        if_neg (by rw [endsRawText_append ht.isTagChar (Bool.eq_false_iff.2 hend)]; simp), ih h]

end PageSlots.Markup
