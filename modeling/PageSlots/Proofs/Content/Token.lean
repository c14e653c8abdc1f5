import PageSlots.Markup.Escape
import PageSlots.Proofs.Content.Clean

/-!
# Markup that is made of tokens

What a writer puts out that never copies markup is a sequence of tokens:
escaped text, start tags with their values between double quotes, and end
tags. Nothing is said about their order. Tags need not match, texts may
stand side by side, an end tag may close nothing.

A sequence of tokens is still read token by token (`Draft.read_tokens`),
in front of any rest, because each of them ends where it was written to
end: no `<` stands in an escaped text, and no `"` in an escaped value. So
what reading does is a fold over the tokens (`Draft.take`), and a property
of drafts that each token keeps is one of everything that is read.
-/

namespace PageSlots.Markup

open PageSlots.Text

/-! ## Escaped text -/

/-- Escaped text has none of the characters that markup gives a meaning
to, except for the `&` of references. -/
theorem notMem_escapeChars {d : Char} (hd : d ∈ ['<', '>', '"', '\'']) (text : List Char) :
    d ∉ escapeChars text := by
  have hchar : ∀ c, d ∉ escapeChar c := by
    intro c
    unfold escapeChar
    simp only [List.mem_cons, List.not_mem_nil, or_false] at hd
    rcases hd with rfl | rfl | rfl | rfl
    all_goals
      repeat' split
      all_goals simp_all [eq_comm]
  intro hm
  obtain ⟨c, -, hc⟩ := List.mem_flatMap.1 hm
  exact hchar c hc

/-! ## Tokens -/

/-- **A token of markup.** -/
inductive Token where
  /-- Text, which is written escaped. -/
  | text (text : List Char)
  /-- A start tag: attributes with values, then names alone. -/
  | opening (tag : String) (attrs : List Attribute) (flags : List String)
  /-- An end tag. -/
  | closing (tag : String)

/-- An attribute with its value between double quotes, empty or not. -/
def Attribute.inQuotes (a : Attribute) : List Char :=
  ' ' :: (a.name.toList ++ '=' :: '"' :: (a.value.toList ++ ['"']))

/-- Names alone, as the attributes they are read as. -/
def flagAttributes (flags : List String) : List Attribute :=
  flags.map fun name => ⟨name, ""⟩

namespace Token

/-- **A token as markup.** -/
def written : Token → List Char
  | .text s => escapeChars s
  | .opening tag attrs flags =>
    '<' :: (tag.toList ++ (attrs.flatMap Attribute.inQuotes
      ++ (writtenAttributes (flagAttributes flags) ++ ['>'])))
  | .closing tag => '<' :: '/' :: (tag.toList ++ ['>'])

/-- The text of a token. -/
def payload : Token → List Char
  | .text s => s
  | .opening _ _ _ | .closing _ => []

@[simp] theorem payload_text (s : List Char) : (text s).payload = s := rfl

@[simp] theorem payload_opening (tag : String) (attrs : List Attribute) (flags : List String) :
    (opening tag attrs flags).payload = [] := rfl

@[simp] theorem payload_closing (tag : String) : (closing tag).payload = [] := rfl

/-- **A token that is read as it was written**, if its tag is plain, its
attributes are and no body of raw text follows. -/
inductive IsPlain : Token → Prop where
  /-- Any text. -/
  | text {text : List Char} : IsPlain (.text text)
  /-- A plain start tag. -/
  | opening {tag : String} {attrs : List Attribute} {flags : List String} : IsPlainTag tag →
      isRawTextTag tag = false → (∀ a ∈ attrs ++ flagAttributes flags, a.IsPlain) →
      (attributeNames (attrs ++ flagAttributes flags)).Nodup → IsPlain (.opening tag attrs flags)
  /-- A plain end tag. -/
  | closing {tag : String} : IsPlainTag tag → IsPlain (.closing tag)

end Token

/-- **What a token does** to what has been read. -/
def Draft.take (z : Draft) : Token → Draft
  | .text text => z.addText (escapeChars text)
  | .opening tag attrs flags =>
    let o : Own := { kind := .element, tag, attrs := attrs ++ flagAttributes flags }
    if isVoidTag tag then z.push (.node o []) else z.enter o
  | .closing tag => z.close tag

/-! ## Start tags -/

section Opening

variable {tag : String} {attrs : List Attribute} {flags : List String}

/-- Attributes with quoted values are read over as they are. -/
theorem readTag_flatMap_inQuotes (h : ∀ a ∈ attrs, a.IsClean) (text : List Char) :
    readTag none (attrs.flatMap Attribute.inQuotes ++ text)
      = withBefore (attrs.flatMap Attribute.inQuotes) (readTag none text) := by
  induction attrs with
  | nil => simp
  | cons a attrs ih =>
    have ha := h a List.mem_cons_self
    have hname : ∀ c ∈ ' ' :: a.name.toList, c ≠ '>' ∧ c ≠ '"' ∧ c ≠ '\'' := by
      intro c hc
      rcases List.mem_cons.1 hc with rfl | hc
      · decide
      · exact (ha.name_char c hc).1.ne
    rw [List.flatMap_cons, Attribute.inQuotes, List.append_assoc, ← List.cons_append,
      List.append_assoc, readTag_append hname, readTag_quoted ha.value_char,
      ih fun b hb => h b (List.mem_cons_of_mem a hb)]
    simp

/-- **Attributes with quoted values are read as they were written**, in
front of any others. -/
theorem readAttributes_flatMap_inQuotes (h : ∀ a ∈ attrs, a.IsClean) (rest : List Char) :
    readAttributes (attrs.flatMap Attribute.inQuotes ++ rest)
      = (attrs.map (fun a => (a.name.toList, a.value.toList)) ++ (readAttributes rest).1,
          (readAttributes rest).2) := by
  induction attrs with
  | nil => rfl
  | cons a attrs ih =>
    have hstep := readAttribute_quoted (h a List.mem_cons_self)
      (attrs.flatMap Attribute.inQuotes ++ rest)
    have htext : (a :: attrs).flatMap Attribute.inQuotes ++ rest
        = ' ' :: (a.name.toList ++ ('=' :: '"' :: (a.value.toList ++ ['"'])
            ++ (attrs.flatMap Attribute.inQuotes ++ rest))) := by
      simp [Attribute.inQuotes]
    rw [htext, readAttributes]
    grind

/-- A tag with quoted values does not end with a slash. -/
theorem getLast?_append_inQuotes {l : List Char} (hl : l.getLast? ≠ some '/') :
    (l ++ attrs.flatMap Attribute.inQuotes).getLast? ≠ some '/' := by
  rcases List.eq_nil_or_concat attrs with rfl | ⟨before, a, rfl⟩
  · simpa using hl
  · have hlast : l ++ (before ++ [a]).flatMap Attribute.inQuotes
        = (l ++ before.flatMap Attribute.inQuotes ++ ' ' :: (a.name.toList ++ '=' :: '"' ::
            a.value.toList)) ++ ['"'] := by
      simp [Attribute.inQuotes]
    rw [List.concat_eq_append, hlast, List.getLast?_concat]
    decide

variable (h : (Token.opening tag attrs flags).IsPlain)
include h

/-- **A start tag is read as it was written.** -/
theorem readConstruct_opening (rest : List Char) :
    readConstruct (tag.toList ++ (attrs.flatMap Attribute.inQuotes
        ++ (writtenAttributes (flagAttributes flags) ++ '>' :: rest)))
      = .ok (.startTag (tag.toList ++ (attrs.flatMap Attribute.inQuotes
          ++ writtenAttributes (flagAttributes flags))), rest) := by
  cases h with
  | opening ht _ ha _ =>
    have hattrs : ∀ a ∈ attrs, a.IsClean := fun a hm =>
      (ha a (List.mem_append_left _ hm)).isClean
    have hflags : ∀ a ∈ flagAttributes flags, a.IsPlain := fun a hm =>
      ha a (List.mem_append_right _ hm)
    have hread : readTag none (tag.toList ++ (attrs.flatMap Attribute.inQuotes
          ++ (writtenAttributes (flagAttributes flags) ++ '>' :: rest)))
        = .ok (tag.toList ++ (attrs.flatMap Attribute.inQuotes
            ++ writtenAttributes (flagAttributes flags)), rest) := by
      rw [readTag_tag ht.isClean, readTag_flatMap_inQuotes hattrs,
        readTag_writtenAttributes fun a hm => (hflags a hm).isClean, readTag_end]
      simp [withBefore, Except.map]
    rw [readConstruct_tag ht.isClean hread, startOrEmpty, if_neg]
    rw [← List.append_assoc]
    exact getLast?_append_writtenAttributes hflags (getLast?_append_inQuotes ht.getLast?_ne)

/-- **The element of a start tag** has the attributes that were written. -/
theorem ofTag?_opening :
    Own.ofTag? (tag.toList ++ (attrs.flatMap Attribute.inQuotes
        ++ writtenAttributes (flagAttributes flags)))
      = .ok { kind := .element, tag, attrs := attrs ++ flagAttributes flags } := by
  cases h with
  | opening ht _ ha hn =>
    have hclean : ∀ a ∈ attrs ++ flagAttributes flags, a.IsClean := fun a hm => (ha a hm).isClean
    have hflags : ∀ a ∈ flagAttributes flags, a.IsClean := fun a hm =>
      hclean a (List.mem_append_right _ hm)
    have hin : ∀ c ∈ tag.toList, (!isTagBlank c) = true := fun c hc => by
      simp [(ht.isClean.isCleanChar c hc).2.1]
    have hout : ∀ c ∈ (attrs.flatMap Attribute.inQuotes
        ++ writtenAttributes (flagAttributes flags)).head?, (!isTagBlank c) = false := by
      intro c hc
      cases attrs with
      | nil =>
        rw [eq_of_mem_head?_writtenAttributes hflags hc]
        decide
      | cons a attrs =>
        cases hc
        decide
    have hname : tagName (tag.toList ++ (attrs.flatMap Attribute.inQuotes
        ++ writtenAttributes (flagAttributes flags))) = tag.toList := takeWhile_append hin hout
    have hattrs : tagAttributes (tag.toList ++ (attrs.flatMap Attribute.inQuotes
          ++ writtenAttributes (flagAttributes flags)))
        = attrs.flatMap Attribute.inQuotes ++ writtenAttributes (flagAttributes flags) :=
      dropWhile_append hin hout
    have hread : readAttributes (attrs.flatMap Attribute.inQuotes
          ++ writtenAttributes (flagAttributes flags))
        = ((attrs ++ flagAttributes flags).map fun a => (a.name.toList, a.value.toList), none) := by
      rw [readAttributes_flatMap_inQuotes fun a hm => hclean a (List.mem_append_left _ hm),
        readAttributes_written hflags, List.map_append]
    unfold Own.ofTag? Own.ofTag
    rw [hname, hattrs, hread, ht.isClean.asciiLower_eq, String.ofList_toList]
    exact congrArg Except.ok (Own.foldl_addAttribute hclean hn)

end Opening

/-! ## Reading tokens -/

/-- A text without `<` goes on in front of whatever text follows. -/
theorem breakAtConstruct_append_of_notMem {s : List Char} (hs : '<' ∉ s) (rest : List Char) :
    breakAtConstruct (s ++ rest) = (s ++ (breakAtConstruct rest).1, (breakAtConstruct rest).2) := by
  induction s with
  | nil => rfl
  | cons c s ih =>
    rw [List.mem_cons, not_or] at hs
    rw [List.cons_append, breakAtConstruct, if_neg (by simp [Ne.symm hs.1]), ih hs.2]
    rfl

namespace Draft

variable {s : List Char} {k : Token} {tokens : List Token}

/-- **A text without `<` is added as a whole**, whatever follows. What
follows may be more text: it is joined to this one. -/
theorem read_of_notMem (hs : '<' ∉ s) (z : Draft) (total : Nat) (rest : List Char) :
    z.read total (s ++ rest) = (z.addText s).read total rest := by
  have happend := breakAtConstruct_append_of_notMem hs rest
  rcases hb : breakAtConstruct rest with ⟨before, _ | ⟨c, after⟩⟩
  all_goals rw [hb] at happend
  · rw [read_of_end happend, read_of_end hb, addText_addText]
  · cases hr : readConstruct after with
    | error e => rw [read_of_error happend hr, read_of_error hb hr, addText_addText]
    | ok r => rw [read_of_ok happend hr, read_of_ok hb hr, addText_addText]

/-- **A token is read as it was written.** -/
theorem read_token (hk : k.IsPlain) (z : Draft) (total : Nat) (rest : List Char) :
    z.read total (k.written ++ rest) = (z.take k).read total rest := by
  cases k with
  | text text => exact read_of_notMem (notMem_escapeChars (by decide) text) z total rest
  | opening tag attrs flags =>
    have hread := readConstruct_opening hk rest
    have hown := ofTag?_opening hk
    cases hk with
    | opening ht hraw _ _ =>
      have hwritten : (Token.opening tag attrs flags).written ++ rest
          = '<' :: (tag.toList ++ (attrs.flatMap Attribute.inQuotes
              ++ (writtenAttributes (flagAttributes flags) ++ '>' :: rest))) := by
        simp [Token.written]
      rw [hwritten, read_construct (Content.opensConstruct_tag ht.isClean _).1 hread, add, hown]
      dsimp only [take]
      rw [if_neg (by simp [hraw])]
      by_cases hv : isVoidTag tag = true
      · rw [if_pos hv, if_pos hv]
      · rw [if_neg hv, if_neg hv]
  | closing tag =>
    cases hk with
    | closing ht =>
      have hwritten : (Token.closing tag).written ++ rest
          = '<' :: '/' :: (tag.toList ++ '>' :: rest) := by
        simp [Token.written]
      rw [hwritten, read_construct (Content.opensConstruct_tag ht.isClean _).2
        (readConstruct_endTag ht.isClean rest), add]
      dsimp only [take]
      rw [ht.isClean.asciiLower_eq, String.ofList_toList]

/-- **Tokens are read one after the other.** -/
theorem read_tokens (hk : ∀ k ∈ tokens, k.IsPlain) (z : Draft) (total : Nat) (rest : List Char) :
    z.read total (tokens.flatMap Token.written ++ rest)
      = (tokens.foldl take z).read total rest := by
  induction tokens generalizing z with
  | nil => rfl
  | cons k tokens ih =>
    rw [List.flatMap_cons, List.append_assoc, read_token (hk k List.mem_cons_self),
      ih fun k' hk' => hk k' (List.mem_cons_of_mem k hk')]
    rfl

end Draft

/-- **What tokens are read as.** There is no fault in them. -/
theorem Content.parse_tokens {tokens : List Token} (hk : ∀ k ∈ tokens, k.IsPlain) {markup : String}
    (hm : markup.toList = tokens.flatMap Token.written) :
    (Content.parse markup).1 = .ok (tokens.foldl Draft.take {}).contents := by
  have hread := Draft.read_tokens hk {} (byteLength markup.toList) []
  rw [List.append_nil, ← hm,
    Draft.read_of_end (show breakAtConstruct [] = ([], []) from rfl)] at hread
  unfold Content.parse
  rw [hread]
  exact congrArg Except.ok (Draft.contents_finish _)

end PageSlots.Markup
