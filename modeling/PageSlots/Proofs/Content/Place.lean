import Mathlib.Data.List.Infix
import PageSlots.Proofs.Content.Clean
import PageSlots.Proofs.Content.Parsed

/-!
# Places in a text

Reading takes a text construct by construct. `Draft.ComesTo` says that it
comes from one draft to another, and what of the text is left then. It is
told of the whole text, for what is left may decide how far a construct
goes.

A construct decides nothing about what stands before it, unless it is the
end of a raw text. If reading comes to a place in front of one, it comes to
the same place if another one stands there, whatever follows, and also if
the text ends there (`ComesTo.replace`). A construct that is closed before
the place is determined by its own characters (`exists_of_readConstruct`),
and the two searches that look ahead – for the next construct, and for the
end of a raw text – see a `<` or the end of the text, and neither stops
there for the wrong reason nor goes on.
-/

namespace PageSlots.Markup

open PageSlots.Text

/-! ## Constructs are determined by their characters -/

section Constructs

variable {text rest before content : List Char} {construct : Construct}

/-- **A tag is determined by its characters**, of which there is at least
one. -/
theorem exists_of_readTag {quote : Option Char} (h : readTag quote text = .ok (content, rest)) :
    ∃ c taken, text = c :: (taken ++ rest)
      ∧ ∀ rest', readTag quote (c :: (taken ++ rest')) = .ok (content, rest') := by
  induction text generalizing quote content with
  | nil => cases quote <;> cases h
  | cons c text ih =>
    rw [readTag] at h
    split at h
    · rename_i hend
      cases h
      exact ⟨c, [], rfl, fun rest' => by rw [readTag, if_pos hend]; rfl⟩
    · rename_i hend
      obtain ⟨⟨content', rest'⟩, hr, he⟩ := exists_of_map_eq_ok h
      cases he
      obtain ⟨d, taken, rfl, htaken⟩ := ih hr
      refine ⟨c, d :: taken, rfl, fun rest' => ?_⟩
      rw [readTag, if_neg hend, List.cons_append, htaken]
      rfl

/-- A document type is determined by its characters. -/
theorem exists_of_readDoctype {scan : DoctypeScan}
    (h : readDoctype scan text = some (content, rest)) :
    ∃ c taken, text = c :: (taken ++ rest)
      ∧ ∀ rest', readDoctype scan (c :: (taken ++ rest')) = some (content, rest') := by
  induction text generalizing scan content with
  | nil => cases h
  | cons c text ih =>
    rw [readDoctype] at h
    split at h
    · rename_i hend
      cases h
      exact ⟨c, [], rfl, fun rest' => by rw [readDoctype, if_pos hend]; rfl⟩
    · rename_i hend
      obtain ⟨⟨content', rest'⟩, hr, he⟩ := Option.map_eq_some_iff.1 h
      cases he
      obtain ⟨d, taken, rfl, htaken⟩ := ih hr
      refine ⟨c, d :: taken, rfl, fun rest' => ?_⟩
      rw [readDoctype, if_neg hend, List.cons_append, htaken]
      rfl

/-- What stands before the end of a construct does not depend on what
follows the end. -/
theorem breakOn?_replace {pattern : List Char} (hp : pattern ≠ [])
    (h : breakOn? pattern text = some (before, rest)) (rest' : List Char) :
    breakOn? pattern (before ++ pattern ++ rest') = some (before, rest') := by
  induction text generalizing before with
  | nil =>
    rw [breakOn?, if_neg (by simpa using hp)] at h
    cases h
  | cons c text ih =>
    have hwhole := eq_append_of_breakOn? h
    rw [breakOn?] at h
    split at h
    · cases h
      obtain ⟨d, pattern, rfl⟩ := List.exists_cons_of_ne_nil hp
      rw [List.nil_append, List.cons_append, breakOn?,
        if_pos (List.isPrefixOf_iff_prefix.2 (by simp)), ← List.cons_append, List.drop_left]
    · rename_i hnot
      obtain ⟨⟨before', after⟩, hr, he⟩ := Option.map_eq_some_iff.1 h
      cases he
      have hstart : ¬ pattern.isPrefixOf (c :: (before' ++ pattern ++ rest')) = true := by
        intro hs
        refine hnot (List.isPrefixOf_iff_prefix.2 ?_)
        rw [List.isPrefixOf_iff_prefix] at hs
        -- the pattern would stand before the end, where both texts are the same
        have hshort : pattern <+: c :: (before' ++ pattern) :=
          List.prefix_of_prefix_length_le hs (List.prefix_append _ _ : _ <+: _ ++ rest') (by simp; omega)
        rw [hwhole]
        exact hshort.trans (by simp)
      rw [List.cons_append, List.cons_append, breakOn?, if_neg hstart, ih hr]
      rfl

/-- A document type that has a name is left out. -/
theorem readBang_doctype {c : Char} (hd : c = 'd' ∨ c = 'D')
    (hr : readDoctype (.outside none) (c :: text) = some (content, rest))
    (hname : asciiLower (content.take 7) = "doctype".toList)
    (hblank : ¬ (content.drop 7).all isTagBlank = true) :
    readBang (c :: text) = .ok (.skipped, rest) := by
  have hletter : (c = 'd' || c = 'D') = true := by simpa using hd
  have hdash : c ≠ '-' := by rcases hd with rfl | rfl <;> decide
  have hbracket : c ≠ '[' := by rcases hd with rfl | rfl <;> decide
  rw [readBang, if_pos hletter, hr]
  · dsimp only
    rw [if_pos hname, if_neg hblank]
  · exact fun _ h _ => hdash h
  · exact hdash
  · exact hbracket

/-- What `<!` opens is determined by its characters. -/
theorem exists_of_readBang (h : readBang text = .ok (construct, rest)) :
    ∃ taken, text = taken ++ rest
      ∧ ∀ rest', readBang (taken ++ rest') = .ok (construct, rest') := by
  obtain ⟨inner, comment, rfl, rfl, hb⟩ | ⟨inner, data, rfl, rfl, hb⟩ |
    ⟨c, inner, content, rfl, rfl, hd, hr, hname, hblank⟩ := readBang_cases h
  · refine ⟨'-' :: '-' :: (comment ++ ['-', '-', '>']), ?_, fun rest' => ?_⟩
    · rw [eq_append_of_breakOn? hb]
      rfl
    · exact readBang_comment (breakOn?_replace (by simp) hb rest')
  · refine ⟨'[' :: ("CDATA[".toList ++ (data ++ [']', ']', '>'])), ?_, fun rest' => ?_⟩
    · rw [eq_append_of_breakOn? hb]
      simp only [List.cons_append, List.append_assoc]
    · rw [List.cons_append, List.append_assoc]
      exact readBang_characterData (breakOn?_replace (by simp) hb rest')
  · obtain ⟨d, taken, htext, htaken⟩ := exists_of_readDoctype hr
    obtain ⟨rfl, rfl⟩ := List.cons.inj htext
    exact ⟨c :: taken, rfl, fun rest' => readBang_doctype hd (htaken rest') hname hblank⟩

/-- A processing instruction is determined by its characters. -/
theorem exists_of_readInstruction (h : readInstruction text = .ok (construct, rest)) :
    ∃ taken, text = taken ++ rest
      ∧ ∀ rest', readInstruction (taken ++ rest') = .ok (construct, rest') := by
  unfold readInstruction at h
  split at h
  · cases h
  · rename_i hend
    split at h
    · rename_i before rest hb
      cases h
      have htext := eq_append_of_breakOn? hb
      refine ⟨before ++ ['?', '>'], htext, fun rest' => ?_⟩
      unfold readInstruction
      split
      · rename_i heq
        -- the text would begin with the `>` that is none of an instruction
        rcases before with _ | ⟨c, before⟩
        · cases heq
        · obtain ⟨rfl, -⟩ := List.cons.inj heq
          exact absurd htext (hend _)
      · rw [breakOn?_replace (by simp) hb]
    · cases h

/-- **A construct is determined by its characters**, of which there is at
least one after the `<`. -/
theorem exists_of_readConstruct (h : readConstruct text = .ok (construct, rest)) :
    ∃ c taken, text = c :: (taken ++ rest)
      ∧ ∀ rest', readConstruct (c :: (taken ++ rest')) = .ok (construct, rest') := by
  unfold readConstruct at h
  split at h
  · obtain ⟨taken, rfl, htaken⟩ := exists_of_readBang h
    exact ⟨'!', taken, rfl, fun rest' => by rw [readConstruct, htaken]⟩
  · obtain ⟨taken, rfl, htaken⟩ := exists_of_readInstruction h
    exact ⟨'?', taken, rfl, fun rest' => by rw [readConstruct, htaken]⟩
  · split at h
    · rename_i content rest hr
      cases h
      obtain ⟨c, taken, rfl, htaken⟩ := exists_of_readTag hr
      refine ⟨'/', c :: taken, rfl, fun rest' => ?_⟩
      rw [readConstruct, List.cons_append, htaken]
    · cases h
  · rename_i hbang hmark hslash
    split at h
    · rename_i content rest hr
      cases h
      obtain ⟨c, taken, rfl, htaken⟩ := exists_of_readTag hr
      refine ⟨c, taken, rfl, fun rest' => ?_⟩
      unfold readConstruct
      split
      · rename_i heq
        exact absurd (by rw [(List.cons.inj heq).1]) (hbang (taken ++ rest))
      · rename_i heq
        exact absurd (by rw [(List.cons.inj heq).1]) (hmark (taken ++ rest))
      · rename_i heq
        exact absurd (by rw [(List.cons.inj heq).1]) (hslash (taken ++ rest))
      · rw [htaken]
    · cases h

end Constructs

/-! ## Searches that look ahead -/

/-- The end of a raw text stays its end whatever follows. -/
theorem endsRawText_append_of_true {tag text : List Char} {c : Char}
    (h : endsRawText tag (c :: text) = true) (rest : List Char) :
    endsRawText tag (c :: (text ++ rest)) = true := by
  unfold endsRawText at h
  split at h
  · rename_i text' heq
    obtain ⟨rfl, rfl⟩ := List.cons.inj heq
    rw [Bool.and_eq_true, decide_eq_true_iff, decide_eq_true_iff] at h
    obtain ⟨htag, hend⟩ := h
    have hle : tag.length ≤ text'.length := by
      have := congrArg List.length htag
      simp only [asciiLower, List.length_map, List.length_take] at this
      omega
    show (decide (asciiLower ((text' ++ rest).take tag.length) = tag)
      && decide ((((text' ++ rest).drop tag.length).dropWhile isAsciiBlank).head? = some '>')) = true
    rw [List.take_append_of_le_length hle, List.drop_append_of_le_length hle, htag,
      List.dropWhile_append]
    cases hdrop : (text'.drop tag.length).dropWhile isAsciiBlank with
    | nil =>
      rw [hdrop] at hend
      cases hend
    | cons d l =>
      rw [hdrop] at hend
      simpa using hend
  · cases h

/-- **Where reading can be broken off**: at the end of a text, or at a
construct that ends no raw text. -/
structure IsStop (tail : List Char) : Prop where
  /-- No text stands before the construct. -/
  boundary : IsBoundary tail
  /-- No raw text ends there. -/
  not_end : ∀ tag : String, IsPlainTag tag → endsRawText tag.toList tail = false

theorem isStop_nil : IsStop [] := ⟨.inl rfl, fun _ _ => rfl⟩

/-- **A text that begins with a start tag.** -/
def OpensTag (text : List Char) : Prop :=
  ∃ c rest, text = '<' :: c :: rest ∧ c.isAlpha = true

theorem OpensTag.ne_nil {tail : List Char} (h : OpensTag tail) : tail ≠ [] := by
  obtain ⟨c, rest, rfl, -⟩ := h
  exact List.cons_ne_nil _ _

/-- No raw text ends at a start tag. -/
theorem OpensTag.isStop {tail : List Char} (h : OpensTag tail) : IsStop tail := by
  obtain ⟨c, rest, rfl, hc⟩ := h
  have hne : c ≠ '/' := by
    rintro rfl
    exact absurd hc (by decide)
  refine ⟨.inr ⟨c :: rest, rfl, ?_⟩, fun tag _ => ?_⟩
  · rw [opensConstruct_cons hne, hc]
    rfl
  · simp [endsRawText, hne]

section Stops

variable {tail tail' x before rest : List Char}

/-- There is no text before a construct. -/
theorem IsBoundary.breakAtConstruct_eq (h : IsBoundary tail) :
    breakAtConstruct tail = ([], tail) :=
  breakAtConstruct_append_of_plain isPlainText_nil h

/-- **The next construct is found at the same place**, or it is the one
that follows. -/
theorem IsBoundary.exists_of_breakAtConstruct (h : IsBoundary tail)
    (hb : breakAtConstruct (x ++ tail) = (before, rest)) :
    ∃ y, rest = y ++ tail
      ∧ ∀ tail', IsBoundary tail' → breakAtConstruct (x ++ tail') = (before, y ++ tail') := by
  induction x generalizing before with
  | nil =>
    rw [List.nil_append, h.breakAtConstruct_eq] at hb
    cases hb
    exact ⟨[], rfl, fun _ h' => h'.breakAtConstruct_eq⟩
  | cons c x ih =>
    rw [List.cons_append, breakAtConstruct, h.opensConstruct_append] at hb
    split at hb
    · rename_i ho
      cases hb
      refine ⟨c :: x, rfl, fun tail' h' => ?_⟩
      rw [List.cons_append, breakAtConstruct, h'.opensConstruct_append, if_pos ho]
    · rename_i ho
      cases hb
      obtain ⟨y, hy, hrest⟩ := ih rfl
      refine ⟨y, hy, fun tail' h' => ?_⟩
      rw [List.cons_append, breakAtConstruct, h'.opensConstruct_append, if_neg ho, hrest tail' h']

/-- What follows a text does not decide whether a raw text ends in it. -/
theorem IsBoundary.endsRawText_append {tag : String} (ht : IsPlainTag tag) (h : IsBoundary tail)
    (c : Char) (x : List Char) :
    endsRawText tag.toList (c :: (x ++ tail)) = endsRawText tag.toList (c :: x) := by
  rcases h with rfl | ⟨after, rfl, -⟩
  · rw [List.append_nil]
  · cases he : endsRawText tag.toList (c :: x) with
    | true => exact endsRawText_append_of_true he _
    | false => exact Markup.endsRawText_append ht.isTagChar he

/-- **The end of a raw text** that is found before a construct is found
there whatever the construct is. -/
theorem IsStop.exists_of_breakRawText {tag : String} (ht : IsPlainTag tag) (h : IsStop tail)
    (hne : tail ≠ []) (hb : breakRawText tag.toList (x ++ tail) = (before, rest))
    (hle : tail.length ≤ rest.length) :
    ∃ y, rest = y ++ tail ∧ ∀ tail', IsStop tail' →
      breakRawText tag.toList (x ++ tail') = (before, y ++ tail') := by
  induction x generalizing before with
  | nil =>
    -- no raw text ends at the construct, so the search would go beyond it
    obtain ⟨c, after, rfl⟩ := List.exists_cons_of_ne_nil hne
    rw [List.nil_append, breakRawText, if_neg (by simp [h.not_end tag ht])] at hb
    generalize hbeyond : breakRawText tag.toList after = pieces at hb
    have hlt : pieces.2.length ≤ after.length := hbeyond ▸ length_breakRawText_le _ _
    cases hb
    exact absurd (Nat.le_trans hle hlt) (Nat.not_succ_le_self _)
  | cons c x ih =>
    rw [List.cons_append, breakRawText, h.boundary.endsRawText_append ht] at hb
    split at hb
    · rename_i he
      cases hb
      refine ⟨c :: x, rfl, fun tail' h' => ?_⟩
      rw [List.cons_append, breakRawText, h'.boundary.endsRawText_append ht, if_pos he]
    · rename_i he
      cases hb
      obtain ⟨y, hy, hrest⟩ := ih rfl
      refine ⟨y, hy, fun tail' h' => ?_⟩
      rw [List.cons_append, breakRawText, h'.boundary.endsRawText_append ht, if_neg he,
        hrest tail' h']

end Stops

/-! ## Coming to a place -/

/-- At a construct there is no text before one. -/
theorem breakAtConstruct_of_breakAtConstruct {text before left : List Char}
    (h : breakAtConstruct text = (before, left)) : breakAtConstruct left = ([], left) :=
  (isBoundary_of_breakAtConstruct h).breakAtConstruct_eq

namespace Draft

/-- **Reading comes to a place**: from a draft and a text it takes one
construct after the other, and the text before the next one, and has then
another draft, with the rest of the text still to read. -/
inductive ComesTo : Draft → List Char → Draft → List Char → Prop where
  /-- It is there once the text before a construct is read. -/
  | here {z : Draft} {text before left : List Char} : breakAtConstruct text = (before, left) →
      ComesTo z text (z.addText before) left
  /-- It reads the text before a construct, and the construct. -/
  | step {z z' z'' : Draft} {text before after rest next left : List Char} {c : Char}
      {construct : Construct} : breakAtConstruct text = (before, c :: after) →
      readConstruct after = .ok (construct, rest) →
      (z.addText before).add construct rest = (.ok next, z') → ComesTo z' next z'' left →
      ComesTo z text z'' left

variable {z z' : Draft} {x tail tail' text left rest next : List Char} {construct : Construct}

/-- From where it has come, reading goes on. -/
theorem ComesTo.read_eq (h : z.ComesTo text z' left) (total : Nat) :
    z.read total text = z'.read total left := by
  induction h with
  | @here z text before left hb =>
    have hnone : (z.addText before).addText [] = z.addText before := if_pos rfl
    have hleft := breakAtConstruct_of_breakAtConstruct hb
    cases left with
    | nil => rw [read_of_end hb, read_of_end hleft, hnone]
    | cons c after =>
      cases hr : readConstruct after with
      | error e =>
        obtain ⟨offset, fault⟩ := e
        rw [read_of_error hb hr, read_of_error hleft hr, hnone]
      | ok r =>
        obtain ⟨construct, rest⟩ := r
        rw [read_of_ok hb hr, read_of_ok hleft hr, hnone]
  | step hb hr ha _ ih => rw [read_of_ok hb hr, ha, ← ih]

/-- What is left is an end of the text. -/
theorem ComesTo.suffix (h : z.ComesTo text z' left) : left <:+ text := by
  induction h with
  | @here z text before left hb => exact ⟨before, by simpa only [hb] using breakAtConstruct_append text⟩
  | @step _ _ _ text before after rest _ _ c _ hb hr ha _ ih =>
    have hbreak : c :: after <:+ text := ⟨before, by simpa only [hb] using breakAtConstruct_append text⟩
    obtain ⟨d, taken, rfl, -⟩ := exists_of_readConstruct hr
    have hrest : rest <:+ c :: d :: (taken ++ rest) := ⟨c :: d :: taken, by simp⟩
    exact (ih.trans (suffix_of_add ha)).trans (hrest.trans hbreak)

theorem ComesTo.length_le (h : z.ComesTo text z' left) : left.length ≤ text.length :=
  h.suffix.length_le

/-- A construct in front of another one is added alike whatever follows
it. -/
theorem exists_of_add (h : IsStop tail) (hne : tail ≠ [])
    (ha : z.add construct (x ++ tail) = (.ok next, z')) (hle : tail.length ≤ next.length) :
    ∃ y, next = y ++ tail ∧ ∀ tail', IsStop tail' →
      z.add construct (x ++ tail') = (.ok (y ++ tail'), z') := by
  obtain ⟨rfl, hadd⟩ | ⟨content, o, rfl, ho, hraw, rfl, rfl⟩ := add_cases ha
  · exact ⟨x, rfl, fun tail' _ => hadd (x ++ tail')⟩
  · generalize hb : breakRawText o.tag.toList (x ++ tail) = pieces at hle
    obtain ⟨body, rest⟩ := pieces
    obtain ⟨y, hy, hrest⟩ := h.exists_of_breakRawText (isPlainTag_of_isRawTextTag hraw) hne hb hle
    refine ⟨y, hy, fun tail' h' => ?_⟩
    rw [add, ho]
    dsimp only
    rw [if_pos hraw, hrest tail' h']

/-- **Reading comes to the same place** whatever is read there, or if
nothing is. -/
theorem ComesTo.replace (ht : IsStop tail) (hne : tail ≠ []) (h : z.ComesTo (x ++ tail) z' tail)
    (ht' : IsStop tail') : z.ComesTo (x ++ tail') z' tail' := by
  generalize htext : x ++ tail = text at h
  generalize hleft : tail = left at h
  induction h generalizing x with
  | @here z text before left hb =>
    subst htext hleft
    obtain ⟨y, hy, hbreaks⟩ := ht.boundary.exists_of_breakAtConstruct hb
    obtain rfl : y = [] := List.append_left_eq_self.1 hy.symm
    exact .here (hbreaks tail' ht'.boundary)
  | @step z z' z'' text before after rest next left c construct hb hr ha hnext ih =>
    subst htext hleft
    have hnextle : tail.length ≤ next.length := hnext.length_le
    have hrestle : next.length ≤ rest.length := length_le_of_add ha
    obtain ⟨y, hy, hbreaks⟩ := ht.boundary.exists_of_breakAtConstruct hb
    obtain ⟨d, taken, rfl, htaken⟩ := exists_of_readConstruct hr
    -- the construct ends before the place, so what follows it holds the place
    obtain ⟨w, rfl⟩ : ∃ w, rest = w ++ tail := by
      have hsuffix : rest <:+ y ++ tail := hy ▸ ⟨c :: d :: taken, by simp⟩
      obtain ⟨w, hw⟩ := List.suffix_of_suffix_length_le (List.suffix_append y tail) hsuffix
        (by omega)
      exact ⟨w, hw.symm⟩
    obtain rfl : y = c :: d :: (taken ++ w) := by
      refine (List.append_left_inj tail).1 ?_
      rw [← hy]
      simp
    obtain ⟨v, rfl, hadds⟩ := exists_of_add ht hne ha hnextle
    have hb' := hbreaks tail' ht'.boundary
    rw [List.cons_append, List.cons_append, List.append_assoc] at hb'
    exact .step hb' (htaken (w ++ tail')) (hadds tail' ht') (ih rfl rfl)

end Draft

end PageSlots.Markup
