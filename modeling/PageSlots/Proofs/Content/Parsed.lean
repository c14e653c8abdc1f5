import Mathlib.Data.Bool.AllAny
import PageSlots.Proofs.Content.Clean

/-!
# What reading gives

Whatever the markup is, what has been read from it is made of pieces of
certain kinds: no two texts stand side by side and none is empty, a tag
begins with a small letter, names hold no blank and are there once, a void
element has no children and a comment does not hold its end. Each step of
reading keeps this of the draft (`Draft.IsRead`), so the contents of a
fragment have it (`Content.isReadRow_of_parse`).

This is most of what clean contents are. What is missing is of two kinds.
Pieces of text that stood apart in the markup may have been joined, and a
name may hold a sign that ends a tag, or end with a slash.
-/

namespace PageSlots.Markup

open PageSlots.Text

/-! ## Pieces -/

/-- A character of a name that has been read: neither a capital letter of
ASCII nor a blank. -/
def IsReadChar (c : Char) : Prop :=
  c.isUpper = false ∧ isTagBlank c = false

instance : DecidablePred IsReadChar := fun c =>
  inferInstanceAs (Decidable (c.isUpper = false ∧ isTagBlank c = false))

/-- **A name that has been read.** -/
structure IsReadName (name : String) : Prop where
  /-- There is a name. -/
  ne : name ≠ ""
  /-- It holds neither capital letters nor blanks. -/
  char : ∀ c ∈ name.toList, IsReadChar c

instance : DecidablePred IsReadName := fun name =>
  decidable_of_iff (name ≠ "" ∧ (name.toList.all fun c => decide (IsReadChar c)) = true)
    ⟨fun h => ⟨h.1, List.all_iff_forall_prop.1 h.2⟩,
      fun h => ⟨h.ne, List.all_iff_forall_prop.2 h.char⟩⟩

/-- **A start tag that has been read.** -/
structure IsReadStart (tag : String) (attrs : List Attribute) : Prop where
  /-- The tag begins with a small letter. -/
  tag : ∃ c cs, tag.toList = c :: cs ∧ c.isLower = true ∧ ∀ d ∈ cs, IsReadChar d
  /-- Each attribute has a name. -/
  name : ∀ name ∈ attributeNames attrs, IsReadName name
  /-- No attribute is there twice. -/
  nodup : (attributeNames attrs).Nodup

namespace Content

/-- **What has been read.** -/
inductive IsRead : Content → Prop where
  /-- A text that is not empty. -/
  | text {text : String} : text ≠ "" → IsRead (.node { kind := .text, text } [])
  /-- A comment that does not hold its end. -/
  | comment {text : String} : ¬ ['-', '-', '>'] <:+: text.toList →
      IsRead (.node { kind := .comment, text } [])
  /-- An element, void and without children or with children that have
  been read. -/
  | element {tag : String} {attrs : List Attribute} {cs : List Content} : IsReadStart tag attrs →
      (isVoidTag tag = true → cs = []) → NoTextsMeet cs → (∀ c ∈ cs, IsRead c) →
      IsRead (.node { kind := .element, tag, attrs } cs)

/-- **Contents side by side that have been read.** -/
structure IsReadRow (cs : List Content) : Prop where
  /-- Each of them has been read. -/
  isRead : ∀ c ∈ cs, c.IsRead
  /-- No two texts stand side by side. -/
  noTextsMeet : NoTextsMeet cs

namespace IsReadRow

variable {cs : List Content} {c : Content}

theorem nil : IsReadRow [] := ⟨nofun, .nil⟩

/-- One more content is read, which is no text or does not follow one. -/
theorem concat (h : IsReadRow cs) (hc : c.IsRead)
    (ht : c.IsText → ∀ d ∈ cs.getLast?, ¬ d.IsText) : IsReadRow (cs ++ [c]) where
  isRead d hd := by
    rcases List.mem_append.1 hd with hd | hd
    · exact h.isRead d hd
    · exact List.mem_singleton.1 hd ▸ hc
  noTextsMeet := List.isChain_append.2 ⟨h.noTextsMeet, .singleton c, fun d hd e he => by
    cases he
    exact fun ⟨hdt, hct⟩ => ht hct d hd hdt⟩

/-- The contents but the last one. -/
theorem dropLast (h : IsReadRow cs) : IsReadRow cs.dropLast where
  isRead c hc := h.isRead c (List.dropLast_subset cs hc)
  noTextsMeet := h.noTextsMeet.dropLast

end IsReadRow

end Content

/-! ## What is read of tags and comments -/

/-- What stands before the end does not hold it. -/
theorem not_infix_of_breakOn? {pattern text before after : List Char} (hp : pattern ≠ [])
    (h : breakOn? pattern text = some (before, after)) : ¬ pattern <:+: before := by
  induction text generalizing before with
  | nil =>
    rw [breakOn?, if_neg (by simpa using hp)] at h
    cases h
  | cons c text ih =>
    have hwhole := eq_append_of_breakOn? h
    rw [breakOn?] at h
    split at h
    · cases h
      exact fun hi => hp (List.infix_nil.1 hi)
    · rename_i hnot
      obtain ⟨⟨before', after'⟩, hb, he⟩ := Option.map_eq_some_iff.1 h
      cases he
      intro hi
      rcases List.infix_cons_iff.1 hi with hi | hi
      · refine hnot (List.isPrefixOf_iff_prefix.2 ?_)
        rw [hwhole, List.append_assoc]
        exact hi.trans (List.prefix_append _ _)
      · exact ih hb hi

/-- A character in lower case is as before, and no capital letter, or a
small letter. -/
theorem toLower_cases (c : Char) :
    c.isUpper = false ∧ c.toLower = c ∨ c.toLower.isLower = true := by
  unfold Char.toLower
  split
  · rename_i h
    have h₁ := UInt32.le_iff_toNat_le.1 h.1
    have h₂ := UInt32.le_iff_toNat_le.1 h.2
    have hsum : (c.val + ('a'.val - 'A'.val)).toNat = c.val.toNat + 32 := by
      rw [UInt32.toNat_add]
      exact Nat.mod_eq_of_lt (Nat.lt_of_le_of_lt (Nat.add_le_add_right h₂ 32) (by decide))
    refine .inr (Bool.and_eq_true_iff.2 ⟨decide_eq_true ?_, decide_eq_true ?_⟩)
    · exact UInt32.le_iff_toNat_le.2 (hsum ▸ Nat.add_le_add_right h₁ 32)
    · exact UInt32.le_iff_toNat_le.2 (hsum ▸ Nat.add_le_add_right h₂ 32)
  · rename_i h
    exact .inl ⟨decide_eq_false h, rfl⟩

theorem isReadChar_toLower {c : Char} (h : isTagBlank c = false) : IsReadChar c.toLower := by
  rcases toLower_cases c with ⟨hu, he⟩ | hl
  · rw [he]
    exact ⟨hu, h⟩
  · have hclean := IsTagChar.isClean (.inl hl)
    exact ⟨hclean.1, hclean.2.1⟩

theorem isLower_toLower {c : Char} (h : c.isAlpha = true) : c.toLower.isLower = true := by
  rcases toLower_cases c with ⟨hu, he⟩ | hl
  · rw [he]
    exact (Bool.or_eq_true_iff.1 h).resolve_left (Bool.eq_false_iff.1 hu)
  · exact hl

/-- What is left after dropping does not begin with what is dropped. -/
theorem eq_false_of_dropWhile_eq_cons {p : Char → Bool} {text rest : List Char} {c : Char}
    (h : text.dropWhile p = c :: rest) : p c = false := by
  have := List.head?_dropWhile_not p text
  rw [h] at this
  exact this

/-- **The key of an attribute that is read** is not empty and holds no
blank. -/
theorem key_of_readAttribute {text after : List Char} {attr : List Char × List Char}
    (h : readAttribute text = some (.ok (attr, after))) :
    attr.1 ≠ [] ∧ ∀ c ∈ attr.1, isTagBlank c = false := by
  unfold readAttribute at h
  split at h
  · cases h
  · rename_i c rest hd
    have hkey : attr.1 = c :: rest.takeWhile isKeyChar := by
      dsimp only at h
      split at h
      · obtain ⟨r, -, he⟩ := exists_of_map_eq_ok (Option.some.inj h)
        cases he
        rfl
      · cases h
        rfl
    rw [hkey]
    refine ⟨List.cons_ne_nil _ _, fun d hm => ?_⟩
    rcases List.mem_cons.1 hm with rfl | hm
    · exact eq_false_of_dropWhile_eq_cons hd
    · have hkeychar := List.mem_takeWhile_imp hm
      rw [isKeyChar, Bool.and_eq_true, Bool.not_eq_true'] at hkeychar
      exact hkeychar.1

theorem key_of_readAttributes (text : List Char) :
    ∀ attr ∈ (readAttributes text).1, attr.1 ≠ [] ∧ ∀ c ∈ attr.1, isTagBlank c = false := by
  induction text using readAttributes.induct with
  | case1 text h => grind [readAttributes]
  | case2 text fault h => grind [readAttributes]
  | case3 text attr after h _ _ _ ih =>
    intro b hb
    have hstep : (readAttributes text).1 = attr :: (readAttributes after).1 := by
      rw [readAttributes]
      grind
    rw [hstep] at hb
    rcases List.mem_cons.1 hb with rfl | hb
    · exact key_of_readAttribute h
    · exact ih b hb

/-- A name in lower case. -/
theorem isReadName_asciiLower {key : List Char} (hne : key ≠ [])
    (hkey : ∀ c ∈ key, isTagBlank c = false) : IsReadName (String.ofList (asciiLower key)) where
  ne he := hne (List.map_eq_nil_iff.1 (String.ofList_eq_empty_iff.1 he))
  char c hc := by
    rw [String.toList_ofList] at hc
    obtain ⟨d, hd, rfl⟩ := List.mem_map.1 hc
    exact isReadChar_toLower (hkey d hd)

/-- A letter is no blank. -/
theorem isTagBlank_of_isAlpha {c : Char} (h : c.isAlpha = true) : isTagBlank c = false := by
  by_contra hb
  have hmem : c = ' ' ∨ c = '\t' ∨ c = '\n' ∨ c = '\r' := by
    simpa [isTagBlank, or_assoc] using eq_true_of_ne_false hb
  rcases hmem with rfl | rfl | rfl | rfl <;> cases h

/-- Attributes that are read keep names that have been read, each once. -/
theorem isReadStart_addAttributes {tag : String} {read : List (List Char × List Char)}
    (hread : ∀ attr ∈ read, attr.1 ≠ [] ∧ ∀ c ∈ attr.1, isTagBlank c = false) :
    ∀ {attrs : List Attribute}, IsReadStart tag attrs →
      ∃ attrs', read.foldl Own.addAttribute { kind := .element, tag, attrs }
          = { kind := .element, tag, attrs := attrs' } ∧ IsReadStart tag attrs' := by
  induction read with
  | nil => exact fun h => ⟨_, rfl, h⟩
  | cons attr read ih =>
    intro attrs h
    have hname := isReadName_asciiLower (hread attr List.mem_cons_self).1
      (hread attr List.mem_cons_self).2
    have hstep : ∃ attrs', Own.addAttribute { kind := .element, tag, attrs } attr
        = { kind := .element, tag, attrs := attrs' } ∧ IsReadStart tag attrs' := by
      unfold Own.addAttribute
      dsimp only
      split
      · exact ⟨attrs, rfl, h⟩
      · refine ⟨_, rfl, h.tag, fun name hm => ?_, Own.nodup_names_setAttr _ _ h.nodup⟩
        rcases Own.mem_names_setAttr (o := { kind := .element, tag, attrs }) hm with hm | rfl
        · exact h.name name hm
        · exact hname
    obtain ⟨attrs', he, h'⟩ := hstep
    rw [List.foldl_cons, he]
    exact ih (fun b hb => hread b (List.mem_cons_of_mem attr hb)) h'

/-- **The element of a tag that begins with a letter** has been read. -/
theorem isReadStart_ofTag? {c : Char} {rest : List Char} {o : Own} (hc : c.isAlpha = true)
    (ho : Own.ofTag? (c :: rest) = .ok o) :
    ∃ tag attrs, o = { kind := .element, tag, attrs } ∧ IsReadStart tag attrs := by
  have hname : tagName (c :: rest) = c :: tagName rest := by
    unfold tagName
    rw [List.takeWhile_cons_of_pos (by simp [isTagBlank_of_isAlpha hc])]
  have htag : IsReadStart (String.ofList (asciiLower (c :: tagName rest))) [] := by
    refine ⟨⟨c.toLower, asciiLower (tagName rest), String.toList_ofList, isLower_toLower hc, ?_⟩,
      nofun, List.nodup_nil⟩
    intro d hd
    obtain ⟨e, he, rfl⟩ := List.mem_map.1 hd
    have hblank := List.mem_takeWhile_imp he
    exact isReadChar_toLower (by simpa using hblank)
  obtain ⟨attrs, he, h⟩ := isReadStart_addAttributes (key_of_readAttributes _) htag
  refine ⟨_, attrs, ?_, h⟩
  unfold Own.ofTag? at ho
  split at ho
  · cases ho
  · cases ho
    rw [Own.ofTag, hname]
    exact he

/-- A tag that does not end at once begins with its first character. -/
theorem cons_of_readTag {c : Char} (hc : c ≠ '>') {text content rest : List Char}
    (h : readTag none (c :: text) = .ok (content, rest)) : ∃ cs, content = c :: cs := by
  rw [readTag_cons (by simp [hc])] at h
  obtain ⟨r, -, he⟩ := exists_of_map_eq_ok h
  cases he
  exact ⟨r.1, rfl⟩

/-- **A construct that has been read**: a tag of an element begins with a
letter, and a comment does not hold its end. -/
def Construct.IsRead : Construct → Prop
  | .startTag content | .emptyTag content => ∃ c cs, content = c :: cs ∧ c.isAlpha = true
  | .comment text => ¬ ['-', '-', '>'] <:+: text
  | .endTag _ | .characterData _ | .skipped => True

/-- **What `<!` opens**, if it is well formed: a comment, a section of
character data, or a document type with a name. -/
theorem readBang_cases {text rest : List Char} {construct : Construct}
    (hr : readBang text = .ok (construct, rest)) :
    (∃ inner comment, text = '-' :: '-' :: inner ∧ construct = .comment comment
        ∧ breakOn? ['-', '-', '>'] inner = some (comment, rest))
      ∨ (∃ inner data, text = '[' :: ("CDATA[".toList ++ inner) ∧ construct = .characterData data
        ∧ breakOn? [']', ']', '>'] inner = some (data, rest))
      ∨ ∃ c inner content, text = c :: inner ∧ construct = .skipped ∧ (c = 'd' ∨ c = 'D')
        ∧ readDoctype (.outside none) text = some (content, rest)
        ∧ asciiLower (content.take 7) = "doctype".toList
        ∧ ¬ (content.drop 7).all isTagBlank = true := by
  unfold readBang at hr
  split at hr
  · rename_i inner
    split at hr
    · rename_i hb
      cases hr
      exact .inl ⟨inner, _, rfl, rfl, hb⟩
    · cases hr
  · cases hr
  · split at hr
    · rename_i hcdata
      obtain ⟨inner, rfl⟩ := List.isPrefixOf_iff_prefix.1 hcdata
      split at hr
      · rename_i hb
        cases hr
        exact .inr (.inl ⟨inner, _, rfl, rfl, hb⟩)
      · cases hr
    · cases hr
  · rename_i c inner _ _ _
    split at hr
    · rename_i hd
      split at hr
      · rename_i content rest hdoctype
        split at hr
        · rename_i hname
          split at hr
          · cases hr
          · rename_i hblank
            cases hr
            have hletter : c = 'd' ∨ c = 'D' := by simpa using hd
            exact .inr (.inr ⟨c, inner, content, rfl, rfl, hletter, hdoctype, hname, hblank⟩)
        · cases hr
      · cases hr
    · cases hr
  · cases hr

theorem isRead_of_readBang {text rest : List Char} {construct : Construct}
    (hr : readBang text = .ok (construct, rest)) : construct.IsRead := by
  obtain ⟨inner, comment, -, rfl, hb⟩ | ⟨inner, data, -, rfl, -⟩ | ⟨c, inner, content, -, rfl, -⟩ :=
    readBang_cases hr
  · exact not_infix_of_breakOn? (List.cons_ne_nil _ _) hb
  · trivial
  · trivial

theorem isRead_of_readInstruction {text rest : List Char} {construct : Construct}
    (hr : readInstruction text = .ok (construct, rest)) : construct.IsRead := by
  unfold readInstruction at hr
  split at hr
  · cases hr
  · split at hr
    · cases hr
      trivial
    · cases hr

/-- **What opens a construct** decides what is read. -/
theorem isRead_of_readConstruct {after rest : List Char} {construct : Construct}
    (ho : opensConstruct after = true) (hr : readConstruct after = .ok (construct, rest)) :
    construct.IsRead := by
  unfold readConstruct at hr
  split at hr
  · exact isRead_of_readBang hr
  · exact isRead_of_readInstruction hr
  · split at hr
    · cases hr
      trivial
    · cases hr
  · rename_i hbang hmark hslash
    cases after with
    | nil => cases ho
    | cons c text =>
      have hc : c.isAlpha = true := by
        rw [opensConstruct_cons fun he => hslash text (he ▸ rfl), Bool.or_eq_true, Bool.or_eq_true,
          beq_iff_eq, beq_iff_eq] at ho
        rcases ho with (ho | rfl) | rfl
        · exact ho
        · exact absurd rfl (hbang text)
        · exact absurd rfl (hmark text)
      split at hr
      · rename_i content rest' htag
        cases hr
        obtain ⟨cs, rfl⟩ := cons_of_readTag (by rintro rfl; cases hc) htag
        unfold startOrEmpty
        split
        · rename_i hlast
          cases cs with
          | nil =>
            cases hlast
            cases hc
          | cons d cs => exact ⟨c, _, rfl, hc⟩
        · exact ⟨c, cs, rfl, hc⟩
      · cases hr

/-! ## The run -/

/-- **What is read of a fragment so far**: what stands finished has been
read, and so has the start tag of each open element, which is not void. -/
structure Draft.IsRead (z : Draft) : Prop where
  /-- What is finished in the innermost element has been read. -/
  done : Content.IsReadRow z.done
  /-- So has each open element and what stands before it. -/
  outer : ∀ e ∈ z.outer, (∃ tag attrs, e.1 = { kind := .element, tag, attrs }
    ∧ IsReadStart tag attrs ∧ isVoidTag tag = false) ∧ Content.IsReadRow e.2

namespace Draft.IsRead

variable {z : Draft} {o : Own} {cs : List Content}

/-- Adding character data. -/
theorem addText (h : z.IsRead) (text : List Char) : (z.addText text).IsRead := by
  by_cases hne : text = []
  · rw [hne]
    exact h
  · have hofText : (Content.ofText text).IsRead := .text fun he => hne (String.ofList_eq_empty_iff.1 he)
    unfold Draft.addText
    rw [if_neg (by simpa using hne)]
    split
    · rename_i o kids hlast
      split
      · rename_i ho
        -- the text before is a text that has been read, and is joined
        obtain ⟨before, hdone⟩ := List.getLast?_eq_some_iff.1 hlast
        have hlastRead := h.done.isRead _ (List.mem_of_getLast? hlast)
        have hrow := h.done.dropLast
        refine ⟨hrow.concat ?_ fun _ d hd hdt => ?_, h.outer⟩
        · cases hlastRead with
          | @text s hs => exact .text fun he => hs (String.append_eq_empty_iff.1 he).1
          | comment _ => cases ho
          | element _ _ _ _ => cases ho
        · have hchain := h.done.noTextsMeet
          rw [hdone, List.dropLast_concat] at hd
          rw [hdone] at hchain
          exact (List.isChain_append.1 hchain).2.2 d hd _ rfl ⟨hdt, ho⟩
      · rename_i ho
        refine ⟨h.done.concat hofText fun _ d hd => ?_, h.outer⟩
        rw [hlast] at hd
        cases hd
        exact ho
    · rename_i hlast
      refine ⟨h.done.concat hofText fun _ d hd => ?_, h.outer⟩
      rw [hlast] at hd
      cases hd

/-- **A content that is no text is finished.** -/
theorem push {c : Content} (h : z.IsRead) (hc : c.IsRead) (ht : ¬ c.IsText) : (z.push c).IsRead :=
  ⟨h.done.concat hc fun hct => absurd hct ht, h.outer⟩

/-- **An element is entered.** -/
theorem enter {tag : String} {attrs : List Attribute} (h : z.IsRead) (hs : IsReadStart tag attrs)
    (hv : isVoidTag tag = false) : (z.enter { kind := .element, tag, attrs }).IsRead where
  done := .nil
  outer e he := by
    rcases List.mem_cons.1 he with rfl | he
    · exact ⟨⟨tag, attrs, rfl, hs, hv⟩, h.done⟩
    · exact h.outer e he

/-- The innermost element is finished. -/
theorem leave {outer : List (Own × List Content)} {done before : List Content} {log : Log}
    (h : Draft.IsRead ⟨done, (o, before) :: outer, log⟩) :
    Draft.IsRead ⟨before ++ [.node o done], outer, log⟩ := by
  obtain ⟨⟨tag, attrs, he, hs, hv⟩, hbefore⟩ := h.outer _ List.mem_cons_self
  dsimp only at he
  subst he
  have hnode : (Content.node { kind := .element, tag, attrs } done).IsRead :=
    .element hs (fun hvoid => absurd (hvoid.symm.trans hv) nofun) h.done.noTextsMeet h.done.isRead
  exact ⟨hbefore.concat hnode nofun, fun e he => h.outer e (List.mem_cons_of_mem _ he)⟩

/-- **Closing an element.** -/
theorem close (h : z.IsRead) (tag : String) : (z.close tag).IsRead := by
  unfold Draft.close
  split
  · rename_i done outer hc
    exact closeIn_induct (motive := fun done outer => Draft.IsRead ⟨done, outer, z.log⟩) leave h hc
  · exact ⟨h.done, h.outer⟩

/-- **What is left open at the end is closed there.** -/
theorem contents (h : z.IsRead) : Content.IsReadRow z.contents := by
  obtain ⟨done, outer, log⟩ := z
  unfold Draft.contents
  induction outer generalizing done with
  | nil => exact h.done
  | cons e outer ih => exact ih _ h.leave

/-- **Adding a construct.** -/
theorem add (h : z.IsRead) {construct : Construct} (hc : construct.IsRead) (rest : List Char) :
    (z.add construct rest).2.IsRead := by
  cases construct with
  | startTag content =>
    obtain ⟨c, cs, rfl, halpha⟩ := hc
    unfold Draft.add
    dsimp only
    split
    · exact h
    · rename_i o ho
      obtain ⟨tag, attrs, rfl, hs⟩ := isReadStart_ofTag? halpha ho
      dsimp only
      by_cases hr : isRawTextTag tag = true
      · rw [if_pos hr]
        exact (h.enter hs (isVoidTag_eq_false hr)).addText _
      · rw [if_neg hr]
        by_cases hv : isVoidTag tag = true
        · rw [if_pos hv]
          exact h.push (.element hs (fun _ => rfl) .nil nofun) nofun
        · rw [if_neg hv]
          exact h.enter hs (Bool.eq_false_iff.2 hv)
  | emptyTag content =>
    obtain ⟨c, cs, rfl, halpha⟩ := hc
    unfold Draft.add
    dsimp only
    split
    · exact h
    · rename_i o ho
      obtain ⟨tag, attrs, rfl, hs⟩ := isReadStart_ofTag? halpha ho
      exact h.push (.element hs (fun _ => rfl) .nil nofun) nofun
  | endTag name => exact h.close _
  | comment text =>
    refine h.push (c := .ofComment text) (.comment ?_) nofun
    rw [String.toList_ofList]
    exact hc
  | characterData text => exact h.addText ("<![CDATA[".toList ++ text ++ "]]>".toList)
  | skipped => exact h

end Draft.IsRead

/-- **Whatever is read has been read.** -/
theorem Draft.IsRead.read {z : Draft} (h : z.IsRead) (total : Nat) (text : List Char) :
    (z.read total text).2.IsRead := by
  refine read_keeps (fun s h => h.addText s)
    (fun hb hr h => h.add (isRead_of_readConstruct (eq_of_breakAtConstruct hb).2 hr) _)
    (fun {z} h => ?_) h total text
  unfold Draft.finish
  split
  · exact h
  · exact ⟨h.done, h.outer⟩

/-- **The contents of a fragment have been read.** -/
theorem Content.isReadRow_of_parse {markup : String} {cs : List Content}
    (h : (Content.parse markup).1 = .ok cs) : IsReadRow cs := by
  have hread := Draft.IsRead.read (z := {}) ⟨.nil, nofun⟩ (byteLength markup.toList) markup.toList
  unfold parse at h
  split at h
  · cases h
  · rename_i hz
    rw [hz] at hread
    cases h
    exact hread.contents

end PageSlots.Markup
