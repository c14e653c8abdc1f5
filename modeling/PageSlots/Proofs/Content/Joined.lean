import PageSlots.Proofs.Content.Legible

/-!
# Texts that meet, and blanks at the ends

A page that has been resolved is not quite what would be read from it. Two
texts may stand side by side, because a child between them has been
dropped; they are read as one. And the page is written without the blanks
at its ends, so the text that stands first or last may be shorter or gone.

`Content.joined` joins the texts that meet, and changes nothing that is
written (`written_joined`). Without the blanks at the ends clean contents
are what is written of some other clean contents (`exists_trims`). Neither
of the two touches anything but texts, so whatever is looked for in
elements is found as before.
-/

namespace PageSlots.Markup

open PageSlots.Text

namespace Content

variable {c d : Content} {cs ds : List Content}

/-! ## Texts that meet -/

/-- Two texts as one. -/
def append (c d : Content) : Content :=
  .node { c.own with text := c.own.text ++ d.own.text } []

/-- Contents with one more in front, which is joined to the first one if
both are texts. -/
def joinText (c : Content) : List Content → List Content
  | [] => [c]
  | d :: ds => if c.own.kind = .text ∧ d.own.kind = .text then c.append d :: ds else c :: d :: ds

/-- Contents with the texts joined that stand side by side. -/
def joinTexts : List Content → List Content
  | [] => []
  | c :: cs => joinText c (joinTexts cs)

/-- **A content in which no texts meet**: wherever they did, they are
joined. -/
def joined : Content → Content
  | node o cs => .node o (joinTexts (cs.map joined))

theorem joined_node (o : Own) (cs : List Content) :
    (node o cs).joined = .node o (joinTexts (cs.map joined)) := by
  rw [joined]

/-- One more content is put in front, or joined to the text in front. -/
theorem joinText_cases (c : Content) (ds : List Content) :
    joinText c ds = c :: ds ∧ (∀ d ∈ ds.head?, ¬ (c.IsText ∧ d.IsText))
      ∨ ∃ d ds', ds = d :: ds' ∧ c.IsText ∧ d.IsText ∧ joinText c ds = c.append d :: ds' := by
  cases ds with
  | nil => exact .inl ⟨rfl, nofun⟩
  | cons d ds =>
    by_cases ht : c.own.kind = .text ∧ d.own.kind = .text
    · exact .inr ⟨d, ds, rfl, ht.1, ht.2, if_pos ht⟩
    · refine .inl ⟨if_neg ht, fun e he => ?_⟩
      cases he
      exact ht

/-- A text is written as it is. -/
theorem written_of_isText (h : c.IsText) : c.written = c.own.text.toList := by
  obtain ⟨o, cs⟩ := c
  rw [written_node, Own.enclose, show o.kind = .text from h]
  rfl

theorem written_append (hc : c.IsText) (hd : d.IsText) :
    (c.append d).written = c.written ++ d.written := by
  rw [written_of_isText hc, written_of_isText hd, ← String.toList_append]
  exact written_of_isText (c := c.append d) hc

theorem flatMap_written_joinTexts (cs : List Content) :
    (joinTexts cs).flatMap written = cs.flatMap written := by
  induction cs with
  | nil => rfl
  | cons c cs ih =>
    rw [joinTexts, List.flatMap_cons, ← ih]
    rcases joinText_cases c (joinTexts cs) with ⟨he, -⟩ | ⟨d, ds, hds, hc, hd, he⟩
    · rw [he, List.flatMap_cons]
    · rw [he, hds, List.flatMap_cons, List.flatMap_cons, written_append hc hd, List.append_assoc]

/-- **Joining texts changes nothing that is written.** -/
theorem written_joined (c : Content) : c.joined.written = c.written := by
  induction c with
  | node o cs ih =>
    rw [joined_node, written_node, written_node, flatMap_written_joinTexts, List.flatMap_map,
      List.flatMap_congr ih]

/-- **Contents that have been read one by one** have been read side by side
once their texts are joined. -/
theorem isReadRow_joinTexts (h : ∀ c ∈ cs, c.IsRead) : IsReadRow (joinTexts cs) := by
  induction cs with
  | nil => exact .nil
  | cons c cs ih =>
    obtain ⟨hread, hmeet⟩ := ih fun d hd => h d (List.mem_cons_of_mem c hd)
    have hc := h c List.mem_cons_self
    rw [joinTexts]
    rcases joinText_cases c (joinTexts cs) with ⟨he, hfirst⟩ | ⟨d, ds, hds, hct, hdt, he⟩
    · rw [he]
      exact ⟨List.forall_mem_cons.2 ⟨hc, hread⟩, List.isChain_cons.2 ⟨hfirst, hmeet⟩⟩
    · rw [hds] at hread hmeet
      have hnew : (c.append d).IsRead := by
        cases hc with
        | @text text hne => exact .text fun he => hne (String.append_eq_empty_iff.1 he).1
        | comment _ => cases hct
        | element _ _ _ _ => cases hct
      rw [he]
      -- what follows the second text is no text
      obtain ⟨hfirst, hmeet⟩ := List.isChain_cons.1 hmeet
      exact ⟨List.forall_mem_cons.2 ⟨hnew, (List.forall_mem_cons.1 hread).2⟩,
        List.isChain_cons.2 ⟨fun e he hboth => hfirst e he ⟨hdt, hboth.2⟩, hmeet⟩⟩

/-! ## What is looked for -/

section FilterMap

variable {β : Type} {f : Own → Option β} (hf : ∀ o : Own, o.kind = .text → f o = none)

/-- Texts have no children. -/
def TextsAreLeaves (c : Content) : Prop :=
  c.Everywhere fun o cs => o.kind = .text → cs = []

/-- **What is found in a content**, in document order. -/
def found (f : Own → Option β) (c : Content) : List β :=
  c.inOrder.filterMap f

theorem found_node (f : Own → Option β) (o : Own) (cs : List Content) :
    (node o cs).found f = (f o).toList ++ cs.flatMap (found f) := by
  rw [found, inOrder_node, List.filterMap_cons, List.filterMap_flatMap]
  cases f o <;> rfl

/-- Nothing is found in the topmost node itself. -/
theorem found_of_none {o : Own} (h : f o = none) :
    (node o cs).found f = cs.flatMap (found f) := by
  rw [found_node, h]
  rfl

include hf

/-- Nothing is found in a text. -/
theorem found_of_isText (h : c.TextsAreLeaves) (ht : c.IsText) : c.found f = [] := by
  obtain ⟨o, cs⟩ := c
  rw [found_node, (everywhere_node.1 h).1 ht, hf o ht]
  rfl

/-- Joining texts leaves what is found in elements. -/
theorem found_joinTexts (h : ∀ c ∈ cs, c.TextsAreLeaves) :
    (∀ c ∈ joinTexts cs, c.TextsAreLeaves)
      ∧ (joinTexts cs).flatMap (found f) = cs.flatMap (found f) := by
  induction cs with
  | nil => exact ⟨nofun, rfl⟩
  | cons c cs ih =>
    obtain ⟨hleaf, hfound⟩ := ih fun d hd => h d (List.mem_cons_of_mem c hd)
    have hc := h c List.mem_cons_self
    rw [joinTexts, List.flatMap_cons, ← hfound]
    rcases joinText_cases c (joinTexts cs) with ⟨he, -⟩ | ⟨d, ds, hds, hct, hdt, he⟩
    · rw [he]
      exact ⟨List.forall_mem_cons.2 ⟨hc, hleaf⟩, List.flatMap_cons⟩
    · have hnew : (c.append d).TextsAreLeaves := .node (fun _ => rfl) nofun
      rw [hds] at hleaf
      obtain ⟨hd, hleaf⟩ := List.forall_mem_cons.1 hleaf
      rw [he, hds, List.flatMap_cons, List.flatMap_cons, found_of_isText hf hnew hct,
        found_of_isText hf hc hct, found_of_isText hf hd hdt]
      exact ⟨List.forall_mem_cons.2 ⟨hnew, hleaf⟩, rfl⟩

/-- **What is looked for in elements is found in a joined content as
before.** -/
theorem found_joined (h : c.TextsAreLeaves) :
    c.joined.TextsAreLeaves ∧ c.joined.found f = c.found f := by
  induction c with
  | node o cs ih =>
    obtain ⟨ho, hcs⟩ := everywhere_node.1 h
    have hjoined : ∀ d ∈ cs.map joined, d.TextsAreLeaves := fun d hd => by
      obtain ⟨e, he, rfl⟩ := List.mem_map.1 hd
      exact (ih e he (hcs e he)).1
    obtain ⟨hleaf, hfound⟩ := found_joinTexts hf hjoined
    rw [joined_node, found_node, found_node, hfound, List.flatMap_map,
      List.flatMap_congr fun d hd => (ih d hd (hcs d hd)).2]
    refine ⟨.node (fun ht => ?_) hleaf, rfl⟩
    rw [ho ht]
    rfl

end FilterMap

end Content

/-! ## Blanks at the ends -/

/-- A plain text without its beginning is plain. -/
theorem IsPlainText.of_append {s text : List Char} (h : IsPlainText (s ++ text)) :
    IsPlainText text := fun before after he =>
  h (s ++ before) after (by rw [he, List.append_assoc])

/-- A plain text without its end is plain. -/
theorem IsPlainText.of_append_right {s text : List Char} (h : IsPlainText (s ++ text)) :
    IsPlainText s := by
  rintro before after rfl
  have hopens := h before (after ++ text) (by simp)
  rw [Bool.eq_false_iff] at hopens ⊢
  refine fun ho => hopens ?_
  cases after with
  | nil => cases ho
  | cons c after =>
    by_cases hc : c = '/'
    · subst hc
      cases after with
      | nil => cases ho
      | cons d after => exact ho
    · rw [opensConstruct_cons hc] at ho
      rwa [List.cons_append, opensConstruct_cons hc]

theorem dropRightWhile_append {p : Char → Bool} (s text : List Char) :
    dropRightWhile p (s ++ text)
      = if dropRightWhile p text = [] then dropRightWhile p s else s ++ dropRightWhile p text := by
  unfold dropRightWhile
  rw [List.reverse_append, List.dropWhile_append]
  by_cases he : text.reverse.dropWhile p = []
  · rw [if_pos (by simp [he]), if_pos (by simp [he])]
  · rw [if_neg (by simpa using he), if_neg (by simpa using he), List.reverse_append,
      List.reverse_reverse]

namespace IsCharacters

variable {p : Char → Bool} {text : List Char}

/-- Characters without the blanks at their beginning. -/
theorem dropWhile (h : IsCharacters text) (hp : p '<' = false) : IsCharacters (text.dropWhile p) := by
  have hplain : ∀ s : List Char, IsPlainText s → IsPlainText (s.dropWhile p) := fun s hs =>
    IsPlainText.of_append (s := s.takeWhile p) (by rwa [List.takeWhile_append_dropWhile])
  cases h with
  | plain h => exact .plain (hplain _ h)
  | @data before data after hbefore hdata hafter =>
    have hcut : (before ++ ("<![CDATA[".toList ++ data ++ "]]>".toList) ++ after).dropWhile p
        = before.dropWhile p ++ ("<![CDATA[".toList ++ data ++ "]]>".toList) ++ after := by
      rw [List.append_assoc, List.dropWhile_append]
      split
      · rename_i he
        rw [List.isEmpty_iff.1 he, List.nil_append]
        exact List.dropWhile_cons_of_neg fun hopen => absurd (hp.symm.trans hopen) nofun
      · simp
    rw [hcut]
    exact .data (hplain _ hbefore) hdata hafter

/-- Characters without the blanks at their end. -/
theorem dropRightWhile (h : IsCharacters text) (hp : p '>' = false) :
    IsCharacters (Text.dropRightWhile p text) := by
  induction h with
  | @plain text h =>
    have hwhole : IsPlainText (Text.dropRightWhile p text ++ (text.reverse.takeWhile p).reverse) := by
      rwa [Text.dropRightWhile, ← List.reverse_append, List.takeWhile_append_dropWhile,
        List.reverse_reverse]
    exact .plain hwhole.of_append_right
  | @data before data after hbefore hdata hafter ih =>
    rw [dropRightWhile_append]
    split
    · have hend : Text.dropRightWhile p (before ++ ("<![CDATA[".toList ++ data ++ "]]>".toList))
          = before ++ ("<![CDATA[".toList ++ data ++ "]]>".toList) ++ [] := by
        unfold Text.dropRightWhile
        rw [show before ++ ("<![CDATA[".toList ++ data ++ "]]>".toList)
          = (before ++ "<![CDATA[".toList ++ data ++ [']', ']']) ++ ['>'] by simp,
          List.reverse_append, List.reverse_singleton, List.singleton_append,
          List.dropWhile_cons_of_neg (by simp [hp]), List.reverse_cons, List.reverse_reverse,
          List.append_nil]
      rw [hend]
      exact .data hbefore hdata (.plain isPlainText_nil)
    · exact .data hbefore hdata ih

end IsCharacters

namespace Content

variable {c : Content} {cs : List Content}

/-- What is no text is written up to a `>`. -/
theorem Clean.exists_written_concat (h : c.Clean) (hc : ¬ c.IsText) :
    ∃ before, c.written = before ++ ['>'] := by
  have helement : ∀ (tag : String) (attrs : List Attribute) (cs : List Content),
      ∃ before, (Content.node { kind := .element, tag, attrs } cs).written = before ++ ['>'] := by
    intro tag attrs cs
    rw [written_node, Own.enclose]
    dsimp only
    split
    · exact ⟨_, (List.cons_append ..).symm⟩
    · exact ⟨_, (List.append_assoc _ ('<' :: '/' :: tag.toList) ['>']).symm⟩
  cases h with
  | text _ _ => exact absurd rfl hc
  | @comment text _ =>
    rw [written_node]
    exact ⟨"<!--".toList ++ text.toList ++ ['-', '-'], by simp [Own.enclose]⟩
  | void _ _ => exact helement _ _ _
  | raw _ _ _ => exact helement _ _ _
  | element _ _ _ _ _ => exact helement _ _ _

/-- A clean text is a leaf and holds characters. -/
theorem Clean.isText_cases (h : c.Clean) (hc : c.IsText) :
    ∃ text, IsCharacters text.toList ∧ c = .node { kind := .text, text } [] := by
  cases h with
  | @text text _ hchars => exact ⟨text, hchars, rfl⟩
  | comment _ => cases hc
  | void _ _ => cases hc
  | raw _ _ _ => cases hc
  | element _ _ _ _ _ => cases hc

theorem Clean.isCharacters_of_isText (h : c.Clean) (hc : c.IsText) : IsCharacters c.written := by
  obtain ⟨text, hchars, rfl⟩ := h.isText_cases hc
  rwa [written_of_isText hc]

/-- Nothing is found in a clean text. -/
theorem Clean.found_of_isText {β : Type} {f : Own → Option β}
    (hf : ∀ o : Own, o.kind = .text → f o = none) (h : c.Clean) (hc : c.IsText) :
    c.found f = [] := by
  obtain ⟨text, -, rfl⟩ := h.isText_cases hc
  rw [found_node, hf { kind := .text, text } rfl]
  rfl

/-- **Contents without the blanks at one end**: they are clean, no texts
meet, and what is found in elements is found as before. -/
structure Trims (text : List Char) (cs ds : List Content) : Prop where
  /-- The contents are clean. -/
  clean : ∀ d ∈ ds, d.Clean
  /-- No two texts stand side by side. -/
  noTextsMeet : NoTextsMeet ds
  /-- The text is what is written of them. -/
  written_eq : ds.flatMap written = text
  /-- What is looked for in elements is found as before. -/
  found_eq : ∀ {β : Type} {f : Own → Option β}, (∀ o : Own, o.kind = .text → f o = none) →
    ds.flatMap (found f) = cs.flatMap (found f)

/-- The text that is left of a text. -/
theorem clean_ofText {text : List Char} (hne : text ≠ []) (h : IsCharacters text) :
    (ofText text).Clean :=
  .text (fun he => hne (String.ofList_eq_empty_iff.1 he)) (by rwa [String.toList_ofList])

theorem written_ofText (text : List Char) : (ofText text).written = text := by
  rw [written_of_isText (c := ofText text) rfl]
  exact String.toList_ofList

/-- What begins with no text begins with no blank. -/
theorem dropWhile_flatMap_written (hcs : ∀ c ∈ cs, c.Clean) (hhead : ∀ c ∈ cs.head?, ¬ c.IsText) :
    (cs.flatMap written).dropWhile isBlank = cs.flatMap written := by
  cases cs with
  | nil => rfl
  | cons c cs =>
    rw [List.flatMap_cons]
    rcases (hcs c List.mem_cons_self).isBoundary_written (hhead c rfl) (cs.flatMap written)
      with he | ⟨after, he, -⟩
    · rw [he]
      rfl
    · rw [he]
      exact List.dropWhile_cons_of_neg (by decide)

/-- What ends with no text ends with no blank. -/
theorem dropRightWhile_flatMap_written (hcs : ∀ c ∈ cs, c.Clean)
    (hlast : ∀ c ∈ cs.getLast?, ¬ c.IsText) :
    dropRightWhile isBlank (cs.flatMap written) = cs.flatMap written := by
  rcases List.eq_nil_or_concat cs with rfl | ⟨cs, c, rfl⟩
  · rfl
  · rw [List.concat_eq_append] at hcs hlast ⊢
    obtain ⟨before, he⟩ := (hcs c (List.mem_append_right _ List.mem_cons_self)).exists_written_concat
      (hlast c List.getLast?_concat)
    rw [List.flatMap_append, List.flatMap_singleton, he, ← List.append_assoc, dropRightWhile,
      List.reverse_append, List.reverse_singleton, List.singleton_append,
      List.dropWhile_cons_of_neg (by decide), List.reverse_cons, List.reverse_reverse]

/-- **Clean contents without the blanks in front** are clean contents. -/
theorem exists_trims_front (hcs : ∀ c ∈ cs, c.Clean) (hm : NoTextsMeet cs) :
    ∃ ds, Trims ((cs.flatMap written).dropWhile isBlank) cs ds := by
  cases cs with
  | nil => exact ⟨[], nofun, .nil, rfl, fun _ => rfl⟩
  | cons c cs =>
    obtain ⟨hc, hrest⟩ := List.forall_mem_cons.1 hcs
    obtain ⟨hfirst, hmeet⟩ := List.isChain_cons.1 hm
    by_cases ht : c.IsText
    · have hchars := hc.isCharacters_of_isText ht
      have hnext : ∀ d ∈ cs.head?, ¬ d.IsText := fun d hd hdt => hfirst d hd ⟨ht, hdt⟩
      rw [List.flatMap_cons, List.dropWhile_append]
      split
      · rw [dropWhile_flatMap_written hrest hnext]
        refine ⟨cs, hrest, hmeet, rfl, fun hf => ?_⟩
        rw [List.flatMap_cons, hc.found_of_isText hf ht, List.nil_append]
      · rename_i hne
        have hclean := clean_ofText (by simpa using hne) (hchars.dropWhile (p := isBlank) (by decide))
        refine ⟨.ofText (c.written.dropWhile isBlank) :: cs,
          List.forall_mem_cons.2 ⟨hclean, hrest⟩,
          List.isChain_cons.2 ⟨fun d hd hboth => hnext d hd hboth.2, hmeet⟩, ?_, fun hf => ?_⟩
        · rw [List.flatMap_cons, written_ofText]
        · rw [List.flatMap_cons, List.flatMap_cons, hclean.found_of_isText hf rfl,
            hc.found_of_isText hf ht]
    · refine ⟨c :: cs, hcs, hm, (dropWhile_flatMap_written hcs fun d hd => ?_).symm, fun _ => rfl⟩
      cases hd
      exact ht

/-- **Clean contents without the blanks at the end** are clean contents. -/
theorem exists_trims_back (hcs : ∀ c ∈ cs, c.Clean) (hm : NoTextsMeet cs) :
    ∃ ds, Trims (dropRightWhile isBlank (cs.flatMap written)) cs ds := by
  rcases List.eq_nil_or_concat cs with rfl | ⟨cs, c, rfl⟩
  · exact ⟨[], nofun, .nil, rfl, fun _ => rfl⟩
  · rw [List.concat_eq_append] at hcs hm ⊢
    have hc := hcs c (List.mem_append_right _ List.mem_cons_self)
    have hinit : ∀ d ∈ cs, d.Clean := fun d hd => hcs d (List.mem_append_left _ hd)
    obtain ⟨hmeet, -, hlast⟩ := List.isChain_append.1 hm
    by_cases ht : c.IsText
    · have hchars := hc.isCharacters_of_isText ht
      have hprev : ∀ d ∈ cs.getLast?, ¬ d.IsText := fun d hd hdt => hlast d hd c rfl ⟨hdt, ht⟩
      rw [List.flatMap_append, List.flatMap_singleton, dropRightWhile_append]
      split
      · rw [dropRightWhile_flatMap_written hinit hprev]
        refine ⟨cs, hinit, hmeet, rfl, fun hf => ?_⟩
        rw [List.flatMap_append, List.flatMap_singleton, hc.found_of_isText hf ht, List.append_nil]
      · rename_i hne
        have hclean := clean_ofText hne (hchars.dropRightWhile (p := isBlank) (by decide))
        refine ⟨cs ++ [.ofText (dropRightWhile isBlank c.written)], ?_, ?_, ?_, fun hf => ?_⟩
        · exact List.forall_mem_append.2 ⟨hinit, List.forall_mem_singleton.2 hclean⟩
        · exact List.isChain_append.2 ⟨hmeet, .singleton _, fun d hd e _ hboth =>
            hprev d hd hboth.1⟩
        · rw [List.flatMap_append, List.flatMap_singleton, written_ofText]
        · rw [List.flatMap_append, List.flatMap_append, List.flatMap_singleton,
            List.flatMap_singleton, hclean.found_of_isText hf rfl, hc.found_of_isText hf ht]
    · refine ⟨_, hcs, hm, (dropRightWhile_flatMap_written hcs fun d hd => ?_).symm, fun _ => rfl⟩
      rw [List.getLast?_concat] at hd
      cases hd
      exact ht

/-- **Clean contents without the blanks at both ends** are clean
contents. -/
theorem exists_trims (hcs : ∀ c ∈ cs, c.Clean) (hm : NoTextsMeet cs) :
    ∃ ds, Trims (trim (cs.flatMap written)) cs ds := by
  obtain ⟨ds, hd, hmd, hwd, hfd⟩ := exists_trims_front hcs hm
  obtain ⟨es, he, hme, hwe, hfe⟩ := exists_trims_back hd hmd
  rw [hwd] at hwe
  exact ⟨es, he, hme, hwe, fun hf => (hfe hf).trans (hfd hf)⟩

end Content

end PageSlots.Markup
