import PageSlots.Proofs.Content.Parsed

/-!
# Writing what was read

One would like a fragment that is read, written and read again to come out
the same. It need not. Reading drops constructs that mean nothing to a
page – an end tag that closes nothing, a document type, a processing
instruction – and joins the texts on both sides, so that a `<` may come to
stand before a letter. It keeps a slash at the end of a name that a blank
separated from the `>`. And it keeps quotes in names, which are paired when
they are read and need not be when they are written.

`Content.Legible` says that none of this has happened. All else that can be
read is written so that it is read again, whatever the markup was: what is
legible comes out of a second reading as it came out of the first, and is
written the same (`readsAs_innerHtml`). The one difference is in a value
with double quotes, which are references after the second reading
(`Content.quoted`).
-/

namespace PageSlots.Markup

open PageSlots.Text

/-! ## Quoted values -/

/-- An attribute with a value that is written as it is. -/
def Attribute.quoted (a : Attribute) : Attribute :=
  { a with value := quoteValue a.value }

/-- Own data with values that are written as they are. -/
def Own.quoted (o : Own) : Own :=
  { o with attrs := o.attrs.map Attribute.quoted }

/-- **A content with values that are written as they are**: a double quote
in a value has become a reference. -/
def Content.quoted : Content → Content
  | node o cs => .node o.quoted (cs.map quoted)

theorem Content.quoted_node (o : Own) (cs : List Content) :
    (node o cs).quoted = .node o.quoted (cs.map quoted) := by
  rw [quoted]

theorem notMem_quoteValue (value : String) : '"' ∉ (quoteValue value).toList := by
  rw [toList_quoteValue, List.mem_flatMap]
  rintro ⟨c, -, hc⟩
  split at hc
  · exact absurd hc (by decide)
  · rename_i hne
    rw [Char.toString_eq_singleton, String.toList_singleton, List.mem_singleton] at hc
    exact hne hc.symm

theorem quoteValue_eq_empty_iff {value : String} : quoteValue value = "" ↔ value = "" := by
  rw [← String.toList_eq_nil_iff, toList_quoteValue, List.flatMap_eq_nil_iff,
    ← String.toList_eq_nil_iff]
  refine ⟨fun h => List.eq_nil_iff_forall_not_mem.2 fun c hc => ?_, fun h c hc => ?_⟩
  · have := h c hc
    split at this
    · cases this
    · rw [Char.toString_eq_singleton, String.toList_singleton] at this
      cases this
  · rw [h] at hc
    cases hc

/-- A value is quoted once. -/
theorem Attribute.written_quoted (a : Attribute) : a.quoted.written = a.written := by
  have hquoted : quoteValue (quoteValue a.value) = quoteValue a.value :=
    quoteValue_eq_self (notMem_quoteValue a.value)
  have hempty : (quoteValue a.value).isEmpty = a.value.isEmpty := by
    rw [Bool.eq_iff_iff, String.isEmpty_iff, String.isEmpty_iff, quoteValue_eq_empty_iff]
  unfold written quoted
  dsimp only
  rw [hempty, hquoted]

theorem writtenAttributes_map_quoted (attrs : List Attribute) :
    writtenAttributes (attrs.map Attribute.quoted) = writtenAttributes attrs := by
  unfold writtenAttributes
  rw [List.flatMap_map]
  exact congrArg (List.flatMap · attrs) (funext fun a => by rw [a.written_quoted])

theorem attributeNames_map_quoted (attrs : List Attribute) :
    attributeNames (attrs.map Attribute.quoted) = attributeNames attrs := by
  unfold attributeNames
  rw [List.map_map]
  rfl

namespace Content

/-- **Quoting changes nothing that is written.** -/
theorem written_quoted (c : Content) : c.quoted.written = c.written := by
  induction c with
  | node o cs ih =>
    have hstart : o.quoted.startTag = o.startTag := by
      unfold Own.startTag
      exact congrArg (fun l => '<' :: (o.tag.toList ++ l ++ ['>'])) (writtenAttributes_map_quoted o.attrs)
    have hinner : (cs.map quoted).flatMap written = cs.flatMap written := by
      rw [List.flatMap_map, List.flatMap_congr ih]
    rw [quoted_node, written_node, written_node, hinner]
    unfold Own.enclose
    rw [hstart]
    rfl

theorem flatMap_written_map_quoted (cs : List Content) :
    (cs.map quoted).flatMap written = cs.flatMap written := by
  rw [List.flatMap_map, List.flatMap_congr fun c _ => c.written_quoted]

theorem isText_quoted {c : Content} : c.quoted.IsText ↔ c.IsText := by
  obtain ⟨o, cs⟩ := c
  rw [quoted_node]
  exact Iff.rfl

theorem NoTextsMeet.map_quoted {cs : List Content} (h : NoTextsMeet cs) :
    NoTextsMeet (cs.map quoted) := by
  refine List.isChain_map_of_isChain _ (fun c d hcd => ?_) h
  rwa [isText_quoted, isText_quoted]

end Content

/-! ## Legible contents -/

/-- **A start tag that is tidy**: no sign in its names ends it or opens a
quotation, and it does not end with a slash. -/
structure Own.IsTidy (o : Own) : Prop where
  /-- The tag holds no such sign. -/
  tag_char : ∀ c ∈ o.tag.toList, c ∉ ['>', '"', '\'']
  /-- Neither does a name, nor a sign that opens a value. -/
  name_char : ∀ name ∈ o.names, ∀ c ∈ name.toList, c ∉ ['>', '"', '\'', '=']
  /-- What is written before the `>` does not end with a slash. -/
  no_slash : (o.tag.toList ++ writtenAttributes o.attrs).getLast? ≠ some '/'

instance (o : Own) : Decidable o.IsTidy :=
  decidable_of_iff ((o.tag.toList.all fun c => decide (c ∉ ['>', '"', '\''])) = true
      ∧ (∀ name ∈ o.names, (name.toList.all fun c => decide (c ∉ ['>', '"', '\'', '='])) = true)
      ∧ (o.tag.toList ++ writtenAttributes o.attrs).getLast? ≠ some '/')
    ⟨fun ⟨htag, hname, hslash⟩ => ⟨List.all_iff_forall_prop.1 htag,
        fun name hm => List.all_iff_forall_prop.1 (hname name hm), hslash⟩,
      fun h => ⟨List.all_iff_forall_prop.2 h.tag_char,
        fun name hm => List.all_iff_forall_prop.2 (h.name_char name hm), h.no_slash⟩⟩

namespace Content

/-- **What is written so that it can be told apart again**: texts are read
as texts, start tags are tidy and a raw text element holds one text at
most. -/
inductive Legible : Content → Prop where
  /-- A text in which nothing opens a construct that is not character
  data. -/
  | text {o : Own} {cs : List Content} : o.kind = .text → IsCharacters o.text.toList →
      Legible (.node o cs)
  /-- A comment. -/
  | comment {o : Own} {cs : List Content} : o.kind = .comment → Legible (.node o cs)
  /-- A raw text element. -/
  | raw {o : Own} {cs : List Content} : o.kind = .element → o.IsTidy →
      isRawTextTag o.tag = true → IsRawBody o.tag cs → Legible (.node o cs)
  /-- Any other element. -/
  | element {o : Own} {cs : List Content} : o.kind = .element → o.IsTidy →
      isRawTextTag o.tag = false → (∀ c ∈ cs, Legible c) → Legible (.node o cs)

variable {c : Content} {cs : List Content}

/-- A tidy start tag that has been read is clean once its values are
quoted. -/
theorem isCleanStart_quoted {tag : String} {attrs : List Attribute} (h : IsReadStart tag attrs)
    (ht : Own.IsTidy { kind := .element, tag, attrs }) :
    IsCleanStart tag (attrs.map Attribute.quoted) where
  isClean_tag := by
    obtain ⟨c, cs, hc, hlow, hcs⟩ := h.tag
    refine ⟨c, cs, hc, hlow, fun d hd => ⟨(hcs d hd).1, (hcs d hd).2, ht.tag_char d ?_⟩⟩
    show d ∈ tag.toList
    rw [hc]
    exact List.mem_cons_of_mem c hd
  isClean_attrs a ha := by
    obtain ⟨b, hb, rfl⟩ := List.mem_map.1 ha
    have hmem : b.name ∈ attributeNames attrs := mem_attributeNames.2 ⟨b, hb, rfl⟩
    have hname := h.name b.name hmem
    refine ⟨hname.ne, fun c hc => ?_, notMem_quoteValue b.value⟩
    have hsign := ht.name_char b.name hmem c hc
    simp only [List.mem_cons, List.not_mem_nil, or_false, not_or] at hsign
    exact ⟨⟨(hname.char c hc).1, (hname.char c hc).2, by simp [hsign]⟩, hsign.2.2.2⟩
  nodup := by
    rw [attributeNames_map_quoted]
    exact h.nodup
  no_slash := by
    rw [writtenAttributes_map_quoted]
    exact ht.no_slash

theorem IsRawBody.map_quoted {tag : String} (h : IsRawBody tag cs) : cs.map quoted = cs := by
  cases h with
  | empty => rfl
  | text _ _ =>
    rw [List.map_singleton, quoted_node]
    rfl

/-- **What has been read and is legible is clean** once its values are
quoted. -/
theorem Legible.clean_quoted (h : c.Legible) (hr : c.IsRead) : c.quoted.Clean := by
  induction c with
  | node o cs ih =>
    rw [quoted_node]
    cases hr with
    | text hne =>
      cases h with
      | text _ hchars => exact .text hne hchars
      | comment hk => cases hk
      | raw hk _ _ _ => cases hk
      | element hk _ _ _ => cases hk
    | comment hend => exact .comment hend
    | @element tag attrs _ hstart hvoid hm hcs =>
      cases h with
      | text hk _ => cases hk
      | comment hk => cases hk
      | raw _ ht hraw hbody =>
        rw [hbody.map_quoted]
        exact .raw (isCleanStart_quoted hstart ht) hraw hbody
      | element _ ht hraw hlegible =>
        have hclean := isCleanStart_quoted hstart ht
        by_cases hv : isVoidTag tag = true
        · rw [hvoid hv]
          exact .void hclean hv
        · refine .element hclean (Bool.eq_false_iff.2 hv) hraw hm.map_quoted fun d hd => ?_
          obtain ⟨e, he, rfl⟩ := List.mem_map.1 hd
          exact ih e he (hlegible e he) (hcs e he)

/-- The same of contents side by side. -/
theorem IsReadRow.clean_quoted (h : IsReadRow cs) (hl : ∀ c ∈ cs, c.Legible) :
    ∀ c ∈ cs.map quoted, c.Clean := fun c hc => by
  obtain ⟨d, hd, rfl⟩ := List.mem_map.1 hc
  exact (hl d hd).clean_quoted (h.isRead d hd)

end Content

/-! ## Fragments -/

/-- **What is written of a legible fragment is read as the fragment was**,
and written the same again: if a markup reads as legible contents, then
what is written of them reads as the same contents with quoted values. -/
theorem readsAs_innerHtml {markup : String} {cs : List Content} (h : ReadsAs markup cs)
    (hl : ∀ c ∈ cs, c.Legible) :
    let written := (readFragment markup).tree.innerHtml 0
    ReadsAs written (cs.map Content.quoted) ∧ (readFragment written).tree.innerHtml 0 = written := by
  intro written
  have hparse := h.parse_eq
  have hrow := Content.isReadRow_of_parse hparse
  have hwritten : written.toList = (cs.map Content.quoted).flatMap Content.written := by
    have hread := readFragment_eq markup
    rw [hparse] at hread
    rw [hread.2.1.toList_innerHtml h.2.children, Content.children_node,
      Content.flatMap_written_map_quoted]
  have hagain := readFragment_eq written
  rw [Content.parse_written (hrow.clean_quoted hl) hrow.noTextsMeet.map_quoted hwritten] at hagain
  obtain ⟨hok, hwf, -, hshows⟩ := hagain
  refine ⟨⟨hok, hshows⟩, String.toList_inj.1 ?_⟩
  rw [hwf.toList_innerHtml hshows.children, Content.children_node, hwritten]

open PageSlots.Markup.Tree PageSlots.Markup.Content in
/-- A paragraph with a quote in a value and a `<` in its text. -/
theorem readsAs_innerHtml_paragraph :
    let markup := "<p title='\"'>a < b</p>"
    let text : Content := .node { kind := .text, text := "a < b" } []
    let written := (readFragment markup).tree.innerHtml 0
    ReadsAs markup [.node { kind := .element, tag := "p", attrs := [⟨"title", "\""⟩] } [text]]
      ∧ ReadsAs written
        [.node { kind := .element, tag := "p", attrs := [⟨"title", "&quot;"⟩] } [text]]
      ∧ (readFragment written).tree.innerHtml 0 = written := by
  intro markup text written
  have h₀ : (readFragment markup).tree.children 0 = [2] := by decide +kernel
  have h₂ : (readFragment markup).tree.children 2 = [3] := by decide +kernel
  have h₃ : (readFragment markup).tree.children 3 = [] := by decide +kernel
  have hs₃ : (readFragment markup).tree.Shows 3 text :=
    shows_node.2 ⟨by decide +kernel, h₃ ▸ .nil⟩
  have hs₂ : (readFragment markup).tree.Shows 2
      (.node { kind := .element, tag := "p", attrs := [⟨"title", "\""⟩] } [text]) :=
    shows_node.2 ⟨by decide +kernel, h₂ ▸ .cons hs₃ .nil⟩
  have hread : ReadsAs markup
      [.node { kind := .element, tag := "p", attrs := [⟨"title", "\""⟩] } [text]] :=
    ⟨⟨[2], by decide +kernel⟩, shows_node.2 ⟨by decide +kernel, h₀ ▸ .cons hs₂ .nil⟩⟩
  have hplain : IsPlainText "a < b".toList := isPlainText_of_breakAtConstruct (by decide)
  have htidy : Own.IsTidy { kind := .element, tag := "p", attrs := [⟨"title", "\""⟩] } := by
    decide
  obtain ⟨hback, hsame⟩ := readsAs_innerHtml hread fun c hc => by
    rw [List.mem_singleton.1 hc]
    refine .element rfl htidy (by decide) fun d hd => ?_
    rw [List.mem_singleton.1 hd]
    exact .text rfl (.plain hplain)
  have hquoted : quoteValue "\"" = "&quot;" := by decide
  rw [List.map_singleton, quoted_node, List.map_singleton, quoted_node, Own.quoted, Own.quoted,
    List.map_singleton, Attribute.quoted, hquoted] at hback
  exact ⟨hread, hback, hsame⟩

/-- **A text may become an element**: an end tag that closes nothing
stands between a `<` and a letter, and is dropped. -/
theorem exists_innerHtml_readFragment_ne :
    let written := (readFragment "a <</x>b>").tree.innerHtml 0
    (readFragment "a <</x>b>").nodes = .ok [2] ∧ written = "a <b>"
      ∧ (readFragment written).nodes = .ok [2, 3]
      ∧ (readFragment written).tree.innerHtml 0 = "a <b></b>" := by
  decide +kernel

end PageSlots.Markup
