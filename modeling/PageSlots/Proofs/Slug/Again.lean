import PageSlots.Proofs.Slug.Words

/-!
# The slug of a slug

A slug is made of hyphens and of letters and numbers that lower-casing leaves
alone, and of such a text it is the slug itself. This holds of every text but
those with an `İ`. What is dropped is decided before the characters are
lower-cased, and the lower-case form of `İ` is an `i` and a combining dot. The
dot comes into the slug behind the letter, though it is neither a letter nor a
number, and the slug of the slug drops it.

So the words of a slug are the words of its text in lower case, without the
dots (`slugWords_joinWords`). The slug of a slug is the slug without its dots,
and is the same exactly if the text has no `İ` (`slug_slug`).
-/

namespace PageSlots.Page

open PageSlots.Text

variable {text w : List Char} {ws : List (List Char)} {c d : Char}

/-! ## What lower-casing leaves -/

/-- What the lower-case form of a letter or number is made of. -/
theorem isLowered_or_dot (h : isAlphanumeric c = true) (hd : d ∈ toLower c) :
    IsLowered d ∨ d = '\u0307' ∧ c = 'İ' := by
  rcases toLower_cases h with rfl | ⟨e, he, hlowered⟩
  · rw [toLower_dotted] at hd
    rcases List.mem_cons.1 hd with rfl | hd
    · exact .inl ⟨by decide +kernel, by decide +kernel⟩
    · exact .inr ⟨List.mem_singleton.1 hd, rfl⟩
  · rw [he, List.mem_singleton] at hd
    exact .inl (hd ▸ hlowered)

/-- Some letter or number is left of each. -/
theorem exists_isLowered_mem (h : isAlphanumeric c = true) : ∃ d ∈ toLower c, IsLowered d := by
  obtain ⟨d, ds, hd⟩ := List.exists_cons_of_ne_nil (toLower_ne_nil h)
  have hmem : d ∈ toLower c := hd ▸ List.mem_cons_self
  rcases isLowered_or_dot h hmem with hlowered | ⟨-, rfl⟩
  · exact ⟨d, hmem, hlowered⟩
  · exact ⟨'i', by rw [toLower_dotted]; exact List.mem_cons_self, by decide +kernel,
      by decide +kernel⟩

namespace IsWord

/-- What a word in lower case is made of. -/
theorem isLowered_or_dot_of_mem (h : IsWord w) (hd : d ∈ lowered w) :
    IsLowered d ∨ d = '\u0307' ∧ 'İ' ∈ w := by
  obtain ⟨c, hc, hd⟩ := List.mem_flatMap.1 hd
  refine (isLowered_or_dot (h.alphanumeric c hc) hd).imp_right ?_
  rintro ⟨hdot, rfl⟩
  exact ⟨hdot, hc⟩

/-- **In a word in lower case** the dots are what is neither a letter nor a
number. -/
theorem filter_lowered (h : IsWord w) :
    (lowered w).filter isAlphanumeric = (lowered w).filter (· ≠ '\u0307') := by
  refine List.filter_congr fun d hd => ?_
  rcases h.isLowered_or_dot_of_mem hd with hlowered | ⟨rfl, -⟩
  · rw [hlowered.1]
    refine (decide_eq_true ?_).symm
    rintro rfl
    exact not_isLowered_dot hlowered
  · exact isAlphanumeric_dot

/-- Without its dots, a word in lower case stays when it is lower-cased once
more. -/
theorem lowered_filter_lowered (h : IsWord w) :
    lowered ((lowered w).filter isAlphanumeric) = (lowered w).filter (· ≠ '\u0307') := by
  have hsame : ∀ d ∈ (lowered w).filter isAlphanumeric, toLower d = [d] := by
    intro d hd
    obtain ⟨hmem, halpha⟩ := List.mem_filter.1 hd
    rcases h.isLowered_or_dot_of_mem hmem with hlowered | ⟨rfl, -⟩
    · exact hlowered.2
    · exact absurd (isAlphanumeric_dot.symm.trans halpha) Bool.false_ne_true
  rw [← h.filter_lowered]
  exact (List.flatMap_congr hsame).trans (List.flatMap_singleton' _)

/-! ## The words of a slug -/

/-- **A word in lower case** is one word, when its dots are gone. -/
theorem slugWords_lowered (h : IsWord w) :
    slugWords (lowered w) = [(lowered w).filter isAlphanumeric] := by
  have hseparator : ∀ d ∈ lowered w, isSeparator d = false := by
    intro d hd
    rcases h.isLowered_or_dot_of_mem hd with hlowered | ⟨rfl, -⟩
    · exact isSeparator_of_isAlphanumeric hlowered.1
    · decide +kernel
  have hkept : (lowered w).filter isKept = (lowered w).filter isAlphanumeric :=
    List.filter_congr fun d hd => by rw [isKept, hseparator d hd, Bool.or_false]
  have hsingle : ((lowered w).filter isAlphanumeric).splitOnP isSeparator
      = [(lowered w).filter isAlphanumeric] :=
    List.splitOnP_eq_singleton fun d hd => hseparator d (List.mem_filter.1 hd).1
  have hne : (lowered w).filter isAlphanumeric ≠ [] := by
    obtain ⟨c, cs, rfl⟩ := List.exists_cons_of_ne_nil h.ne_nil
    obtain ⟨d, hd, hlowered⟩ := exists_isLowered_mem (h.alphanumeric c List.mem_cons_self)
    exact List.ne_nil_of_mem (List.mem_filter.2 ⟨List.mem_append_left _ hd, hlowered.1⟩)
  rw [slugWords, slugPieces, hkept, hsingle, List.filter_cons_of_pos (by simpa using hne)]
  rfl

end IsWord

/-- **The words of a slug** are the words of its text in lower case, without
their dots. -/
theorem slugWords_joinWords (h : ∀ w ∈ ws, IsWord w) :
    slugWords (joinWords ws) = ws.map fun w => (lowered w).filter isAlphanumeric := by
  cases ws with
  | nil => rfl
  | cons w ws =>
    rw [joinWords_cons]
    induction ws generalizing w with
    | nil =>
      rw [List.flatMap_nil, List.append_nil, (h w List.mem_cons_self).slugWords_lowered]
      rfl
    | cons w' ws ih =>
      have hhyphen : isSeparator '-' = true := by decide +kernel
      rw [List.flatMap_cons, List.cons_append, slugWords_append_separator hhyphen,
        (h w List.mem_cons_self).slugWords_lowered,
        ih w' fun v hv => h v (List.mem_cons_of_mem w hv)]
      rfl

/-- What words are written as, without the dots. -/
theorem filter_joinWords (h : ∀ w ∈ ws, IsWord w) :
    (joinWords ws).filter (· ≠ '\u0307')
      = joinWords (ws.map fun w => (lowered w).filter isAlphanumeric) := by
  cases ws with
  | nil => rfl
  | cons w ws =>
    obtain ⟨hw, hws⟩ := List.forall_mem_cons.1 h
    rw [joinWords_cons, List.map_cons, joinWords_cons, List.filter_append, List.filter_flatMap,
      List.flatMap_map, hw.lowered_filter_lowered]
    refine congrArg _ (List.flatMap_congr fun w' hw' => ?_)
    rw [(hws w' hw').lowered_filter_lowered, List.filter_cons_of_pos (by decide)]

theorem slugChars_slugChars (text : List Char) :
    slugChars (slugChars text) = (slugChars text).filter (· ≠ '\u0307') := by
  have hwords : ∀ w ∈ slugWords text, IsWord w := fun _ => isWord_of_mem_slugWords
  rw [slugChars_eq text, slugChars_eq, slugWords_joinWords hwords, filter_joinWords hwords]

/-! ## What slugs are made of -/

/-- What words are written with: hyphens, and their characters in lower
case. -/
theorem mem_joinWords : d ∈ joinWords ws → d = '-' ∨ ∃ w ∈ ws, d ∈ lowered w := by
  intro hd
  cases ws with
  | nil => cases hd
  | cons w ws =>
    rw [joinWords_cons, List.mem_append, List.mem_flatMap] at hd
    rcases hd with hd | ⟨w', hw', hd⟩
    · exact .inr ⟨w, List.mem_cons_self, hd⟩
    · rcases List.mem_cons.1 hd with rfl | hd
      · exact .inl rfl
      · exact .inr ⟨w', List.mem_cons_of_mem w hw', hd⟩

theorem mem_joinWords_of_mem (hw : w ∈ ws) (hd : d ∈ lowered w) : d ∈ joinWords ws := by
  cases ws with
  | nil => cases hw
  | cons w' ws =>
    rw [joinWords_cons, List.mem_append, List.mem_flatMap]
    rcases List.mem_cons.1 hw with rfl | hw
    · exact .inl hd
    · exact .inr ⟨w, hw, List.mem_cons_of_mem _ hd⟩

/-- **A character of a slug** is a hyphen, a letter or number that
lower-casing leaves alone, or the dot of an `İ`. -/
theorem of_mem_slugChars (h : d ∈ slugChars text) :
    d = '-' ∨ IsLowered d ∨ d = '\u0307' ∧ 'İ' ∈ text := by
  rw [slugChars_eq] at h
  refine (mem_joinWords h).imp_right ?_
  rintro ⟨w, hw, hd⟩
  refine ((isWord_of_mem_slugWords hw).isLowered_or_dot_of_mem hd).imp_right ?_
  exact fun hand => ⟨hand.1, (exists_mem_slugWords_iff.1 ⟨w, hw, hand.2⟩).1⟩

/-- **A dot stands in a slug** exactly if an `İ` stands in the text. -/
theorem dot_mem_slugChars_iff (text : List Char) : '\u0307' ∈ slugChars text ↔ 'İ' ∈ text := by
  constructor
  · intro h
    rcases of_mem_slugChars h with hhyphen | hlowered | ⟨-, hmem⟩
    · exact absurd hhyphen (by decide)
    · exact absurd hlowered not_isLowered_dot
    · exact hmem
  · intro h
    obtain ⟨w, hw, hmem⟩ := exists_mem_slugWords_iff.2 ⟨h, by decide +kernel⟩
    rw [slugChars_eq]
    refine mem_joinWords_of_mem hw (List.mem_flatMap.2 ⟨'İ', hmem, ?_⟩)
    rw [toLower_dotted]
    exact List.mem_cons_of_mem _ List.mem_cons_self

/-- **The slug of a slug** is the slug without the dots that lower-casing an
`İ` leaves. A slug is its own slug exactly if the text has no `İ`; just then
all of its characters are hyphens and letters and numbers that lower-casing
leaves alone; and in any case the slug of the slug is its own slug. -/
theorem slug_slug (text : String) :
    slug (slug text) = String.ofList ((slug text).toList.filter (· ≠ '\u0307'))
    ∧ (slug (slug text) = slug text ↔ 'İ' ∉ text.toList)
    ∧ ((∀ c ∈ (slug text).toList, c = '-' ∨ IsLowered c) ↔ 'İ' ∉ text.toList)
    ∧ slug (slug (slug text)) = slug (slug text) := by
  have hagain : ∀ text : String,
      slug (slug text) = String.ofList ((slug text).toList.filter (· ≠ '\u0307')) := by
    intro text
    rw [slug, slug, String.toList_ofList, slugChars_slugChars]
  have hdot : '\u0307' ∈ (slug text).toList ↔ 'İ' ∈ text.toList := by
    rw [slug, String.toList_ofList, dot_mem_slugChars_iff]
  refine ⟨hagain text, ?_, ?_, ?_⟩
  · rw [hagain, ← not_congr hdot, ← String.toList_inj, String.toList_ofList,
      List.filter_eq_self]
    constructor
    · exact fun h hm => of_decide_eq_true (h _ hm) rfl
    · exact fun h c hc => decide_eq_true fun he => h (he ▸ hc)
  · rw [← not_congr hdot]
    constructor
    · intro h hm
      rcases h _ hm with hhyphen | hlowered
      · exact absurd hhyphen (by decide)
      · exact not_isLowered_dot hlowered
    · intro h c hc
      rw [slug, String.toList_ofList] at hc
      refine (of_mem_slugChars hc).imp_right fun hor => hor.resolve_right fun hand => ?_
      exact h (hdot.2 hand.2)
  · rw [hagain (slug text), hagain text, String.toList_ofList, List.filter_filter]
    simp

/-- A slug that is not its own slug. -/
theorem exists_slug_slug_ne : ∃ text, slug (slug text) ≠ slug text :=
  ⟨"İ", by decide +kernel⟩

end PageSlots.Page
