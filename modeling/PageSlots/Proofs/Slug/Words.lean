import Mathlib.Data.List.DropRight
import Mathlib.Data.List.Induction
import PageSlots.Page.Slug
import PageSlots.Proofs.Text.LowerCase

/-!
# The words of a slug

A slug is written in one pass, which remembers whether a hyphen would be out
of place. Here it is told without a pass: of a text only its letters, numbers
and separators count; they make words, cut at the separators (`slugWords`);
and the slug is the words in lower case with a hyphen between them
(`joinWords`).

That the pass writes this is an invariant with two halves, one for each value
of its flag (`dropLastHyphen_slugPass`). After a hyphen, or at the start, what
is still to come are the words of the rest. After a letter, what comes first
belongs to the word that has been begun, and each word behind it brings a
hyphen of its own. The pass writes that hyphen before it knows of the word, so
both halves hold only of what is left when a last hyphen is dropped; and since
lower-casing yields no hyphen (`IsWord.hyphen_notMem_lowered`), a last hyphen is one
that the pass has written itself.
-/

namespace PageSlots.Page

open PageSlots.Text

variable {text s t w : List Char} {ws : List (List Char)} {c : Char}

/-! ## Words -/

/-- Whether a character counts for the slug. -/
def isKept (c : Char) : Bool :=
  isAlphanumeric c || isSeparator c

/-- The pieces of a text between its separators, without what does not count
for the slug. -/
def slugPieces (text : List Char) : List (List Char) :=
  (text.filter isKept).splitOnP isSeparator

/-- **The words of a text**: the pieces that are not empty. -/
def slugWords (text : List Char) : List (List Char) :=
  (slugPieces text).filter (· ≠ [])

/-- **What a word is made of**: letters and numbers, one at the least. -/
structure IsWord (w : List Char) : Prop where
  /-- It is not empty. -/
  ne_nil : w ≠ []
  /-- It holds letters and numbers only. -/
  alphanumeric : ∀ c ∈ w, isAlphanumeric c = true

/-- A word with each of its characters in lower case. -/
def lowered (word : List Char) : List Char :=
  word.flatMap toLower

/-- **Words in lower case**, with a hyphen between each two. -/
def joinWords (words : List (List Char)) : List Char :=
  ['-'].intercalate (words.map lowered)

/-- A letter or number is no separator. -/
theorem isSeparator_of_isAlphanumeric (h : isAlphanumeric c = true) : isSeparator c = false := by
  rw [isSeparator, h]
  rfl

theorem isKept_of_isAlphanumeric (h : isAlphanumeric c = true) : isKept c = true := by
  rw [isKept, h, Bool.true_or]

theorem isKept_of_isSeparator (h : isSeparator c = true) : isKept c = true := by
  rw [isKept, h, Bool.or_true]

/-- White space separates words. -/
theorem isSeparator_of_isBlank (h : isBlank c = true) : isSeparator c = true := by
  rw [isSeparator, isAlphanumeric_of_isBlank h, h]
  rfl

@[simp] theorem slugPieces_nil : slugPieces [] = [[]] := by
  simp [slugPieces]

/-- **A separator ends a piece.** -/
theorem slugPieces_append_separator (h : isSeparator c = true) (s t : List Char) :
    slugPieces (s ++ c :: t) = slugPieces s ++ slugPieces t := by
  rw [slugPieces, List.filter_append, List.filter_cons_of_pos (isKept_of_isSeparator h),
    List.splitOnP_append_cons _ _ h]
  rfl

theorem slugPieces_cons_separator (h : isSeparator c = true) (text : List Char) :
    slugPieces (c :: text) = [] :: slugPieces text := by
  simpa using slugPieces_append_separator h [] text

/-- A letter or number belongs to the piece that it stands in. -/
theorem slugPieces_cons_alphanumeric (h : isAlphanumeric c = true) (text : List Char) :
    slugPieces (c :: text) = (slugPieces text).modifyHead (c :: ·) := by
  rw [slugPieces, List.filter_cons_of_pos (isKept_of_isAlphanumeric h),
    List.splitOnP_cons_eq_if_modifyHead, if_neg (by simp [isSeparator_of_isAlphanumeric h])]
  rfl

/-- What does not count is left out. -/
theorem slugPieces_cons_other (hc : ¬ isAlphanumeric c = true) (hs : isSeparator c = false)
    (text : List Char) : slugPieces (c :: text) = slugPieces text := by
  rw [slugPieces, List.filter_cons_of_neg (by simp [isKept, hc, hs])]
  rfl

theorem exists_slugPieces_eq_cons (text : List Char) : ∃ w ws, slugPieces text = w :: ws :=
  List.exists_cons_of_ne_nil (List.splitOnP_ne_nil _ _)

/-- **The pieces hold the letters and numbers of the text**, in order. -/
theorem flatten_slugPieces (text : List Char) :
    (slugPieces text).flatten = text.filter isAlphanumeric := by
  induction text with
  | nil => simp
  | cons c text ih =>
    by_cases hc : isAlphanumeric c = true
    · obtain ⟨w, ws, hpieces⟩ := exists_slugPieces_eq_cons text
      rw [slugPieces_cons_alphanumeric hc, List.filter_cons_of_pos hc, ← ih, hpieces]
      rfl
    · rw [List.filter_cons_of_neg hc, ← ih]
      cases hs : isSeparator c with
      | true =>
        rw [slugPieces_cons_separator hs]
        rfl
      | false => rw [slugPieces_cons_other hc hs]

theorem flatten_slugWords (text : List Char) :
    (slugWords text).flatten = text.filter isAlphanumeric := by
  rw [slugWords, ← flatten_slugPieces]
  exact List.flatten_filter_ne_nil

/-- The words hold the letters and numbers of the text, and no other
character. -/
theorem exists_mem_slugWords_iff :
    (∃ w ∈ slugWords text, c ∈ w) ↔ c ∈ text ∧ isAlphanumeric c = true := by
  rw [← List.mem_flatten, flatten_slugWords, List.mem_filter]

theorem isWord_of_mem_slugWords (h : w ∈ slugWords text) : IsWord w :=
  ⟨of_decide_eq_true (List.mem_filter.1 h).2,
    fun _ hc => (exists_mem_slugWords_iff.1 ⟨w, h, hc⟩).2⟩

theorem slugWords_append_separator (h : isSeparator c = true) (s t : List Char) :
    slugWords (s ++ c :: t) = slugWords s ++ slugWords t := by
  rw [slugWords, slugPieces_append_separator h, List.filter_append]
  rfl

/-- **The white space around a text** takes no part in its words. -/
theorem slugWords_trim (text : List Char) : slugWords (trim text) = slugWords text := by
  have hleft : ∀ text : List Char, slugWords (text.dropWhile isBlank) = slugWords text := by
    intro text
    induction text with
    | nil => rfl
    | cons c text ih =>
      by_cases hc : isBlank c = true
      · rw [List.dropWhile_cons_of_pos hc, ih]
        exact (slugWords_append_separator (isSeparator_of_isBlank hc) [] text).symm
      · rw [List.dropWhile_cons_of_neg hc]
  have hright : ∀ text : List Char, slugWords (text.rdropWhile isBlank) = slugWords text := by
    intro text
    induction text using List.reverseRecOn with
    | nil => rfl
    | append_singleton text c ih =>
      rw [List.rdropWhile_concat]
      split
      · rename_i hc
        rw [ih, slugWords_append_separator (isSeparator_of_isBlank hc)]
        exact (List.append_nil _).symm
      · rfl
  exact (hright _).trans (hleft text)

/-! ## Lower case -/

/-- **Lower-casing a letter or number yields no hyphen.** -/
theorem hyphen_notMem_toLower (h : isAlphanumeric c = true) : '-' ∉ toLower c := by
  rcases toLower_cases h with rfl | ⟨d, hd, hlowered⟩
  · rw [toLower_dotted]
    decide
  · rw [hd, List.mem_singleton]
    rintro rfl
    exact absurd hlowered.1 (by decide +kernel)

theorem toLower_ne_nil (h : isAlphanumeric c = true) : toLower c ≠ [] := by
  rcases toLower_cases h with rfl | ⟨d, hd, -⟩
  · rw [toLower_dotted]
    exact List.cons_ne_nil _ _
  · rw [hd]
    exact List.cons_ne_nil _ _

theorem IsWord.hyphen_notMem_lowered (h : IsWord w) : '-' ∉ lowered w := by
  intro hm
  obtain ⟨c, hc, hmem⟩ := List.mem_flatMap.1 hm
  exact hyphen_notMem_toLower (h.alphanumeric c hc) hmem

theorem IsWord.lowered_ne_nil (h : IsWord w) : lowered w ≠ [] := by
  obtain ⟨c, w, rfl⟩ := List.exists_cons_of_ne_nil h.ne_nil
  intro hnil
  exact toLower_ne_nil (h.alphanumeric c List.mem_cons_self) (List.append_eq_nil_iff.1 hnil).1

/-- **The first word stands alone, and a hyphen before each of the others.** -/
theorem joinWords_cons (w : List Char) (ws : List (List Char)) :
    joinWords (w :: ws) = lowered w ++ ws.flatMap fun w => '-' :: lowered w := by
  induction ws generalizing w with
  | nil => simp [joinWords]
  | cons w' ws ih =>
    rw [joinWords, List.map_cons, List.map_cons, List.intercalate_cons_cons, ← List.map_cons,
      ← joinWords, ih, List.flatMap_cons]
    simp

/-- Only a text without words has nothing to write. -/
theorem joinWords_slugWords_eq_nil_iff (text : List Char) :
    joinWords (slugWords text) = [] ↔ slugWords text = [] := by
  refine ⟨fun h => ?_, fun h => h ▸ rfl⟩
  cases hwords : slugWords text with
  | nil => rfl
  | cons w ws =>
    have hmem : w ∈ slugWords text := hwords ▸ List.mem_cons_self
    rw [hwords, joinWords_cons, List.append_eq_nil_iff] at h
    exact absurd h.1 (isWord_of_mem_slugWords hmem).lowered_ne_nil

/-- Words behind a hyphen: the first of them stands next to it. -/
theorem flatMap_slugWords (text : List Char) :
    ((slugWords text).flatMap fun w => '-' :: lowered w)
      = if joinWords (slugWords text) = [] then [] else '-' :: joinWords (slugWords text) := by
  rw [if_congr (joinWords_slugWords_eq_nil_iff text) rfl rfl]
  cases slugWords text with
  | nil => rfl
  | cons w ws =>
    rw [if_neg (List.cons_ne_nil w ws), joinWords_cons]
    rfl

/-! ## The pass -/

/-- What stands in front of a hyphen that is dropped stays. -/
theorem dropLastHyphen_append (h : t ≠ [] ∨ s.getLast? ≠ some '-') :
    dropLastHyphen (s ++ t) = s ++ dropLastHyphen t := by
  by_cases ht : t = []
  · subst ht
    have hs := h.resolve_left fun hne => hne rfl
    rw [List.append_nil, dropLastHyphen, if_neg hs]
    exact (List.append_nil s).symm
  · rw [dropLastHyphen, dropLastHyphen, List.getLast?_append_of_ne_nil _ ht]
    split
    · rw [List.dropLast_append_of_ne_nil ht]
    · rfl

/-- A hyphen in front of what is left stays if anything is left. -/
theorem dropLastHyphen_cons (h : s.head? ≠ some '-') :
    dropLastHyphen ('-' :: s)
      = if dropLastHyphen s = [] then [] else '-' :: dropLastHyphen s := by
  cases s with
  | nil => rfl
  | cons c s =>
    have hleft : dropLastHyphen (c :: s) ≠ [] := by
      cases s with
      | nil =>
        have hc : (some c) ≠ some '-' := h
        rw [dropLastHyphen, List.getLast?_singleton, if_neg hc]
        exact List.cons_ne_nil c []
      | cons d s =>
        rw [← List.singleton_append, dropLastHyphen_append (.inl (List.cons_ne_nil d s))]
        exact List.cons_ne_nil c _
    rw [if_neg hleft, ← List.singleton_append,
      dropLastHyphen_append (.inl (List.cons_ne_nil c s))]
    rfl

/-- Where no hyphen may stand, none is written first. -/
theorem head?_slugPass (text : List Char) : (slugPass true text).head? ≠ some '-' := by
  induction text with
  | nil => nofun
  | cons c text ih =>
    rw [slugPass]
    split
    · rename_i hc
      obtain ⟨d, ds, hd⟩ := List.exists_cons_of_ne_nil (toLower_ne_nil hc)
      rw [hd, List.cons_append, List.head?_cons]
      rintro ⟨rfl⟩
      exact hyphen_notMem_toLower hc (hd ▸ List.mem_cons_self)
    · exact ih

/-- **What the pass writes, less a last hyphen.** Where no hyphen may stand it
writes the words of the text. Elsewhere it goes on with the word that has been
begun, and writes a hyphen before each of the others. -/
theorem dropLastHyphen_slugPass (text : List Char) :
    dropLastHyphen (slugPass true text) = joinWords (slugWords text)
    ∧ ∀ w ws, slugPieces text = w :: ws → dropLastHyphen (slugPass false text)
        = lowered w ++ (ws.filter (· ≠ [])).flatMap fun w => '-' :: lowered w := by
  induction text with
  | nil =>
    refine ⟨rfl, fun w ws h => ?_⟩
    rw [slugPieces_nil] at h
    obtain ⟨rfl, rfl⟩ := List.cons.inj h
    rfl
  | cons c text ih =>
    obtain ⟨ihWords, ihRest⟩ := ih
    obtain ⟨w₀, ws₀, hpieces⟩ := exists_slugPieces_eq_cons text
    by_cases hc : isAlphanumeric c = true
    · -- the character begins a word or goes on with one, and from here on a hyphen may stand
      have hpass : ∀ joined, dropLastHyphen (slugPass joined (c :: text))
          = lowered (c :: w₀) ++ (ws₀.filter (· ≠ [])).flatMap fun w => '-' :: lowered w := by
        intro joined
        have hlast : (toLower c).getLast? ≠ some '-' := fun h =>
          hyphen_notMem_toLower hc (List.mem_of_getLast? h)
        rw [slugPass, if_pos hc, dropLastHyphen_append (.inr hlast), ihRest w₀ ws₀ hpieces,
          ← List.append_assoc]
        rfl
      have hcons : slugPieces (c :: text) = (c :: w₀) :: ws₀ := by
        rw [slugPieces_cons_alphanumeric hc, hpieces]
        rfl
      refine ⟨?_, fun w ws h => ?_⟩
      · rw [hpass, slugWords, hcons, List.filter_cons_of_pos (by simp), joinWords_cons]
      · rw [hcons] at h
        obtain ⟨rfl, rfl⟩ := List.cons.inj h
        exact hpass false
    · cases hs : isSeparator c with
      | true =>
        have hcons := slugPieces_cons_separator hs text
        refine ⟨?_, fun w ws h => ?_⟩
        · rw [slugPass, if_neg hc, if_neg (by simp), ihWords, slugWords, slugWords, hcons,
            List.filter_cons_of_neg (by simp)]
        · rw [hcons] at h
          obtain ⟨rfl, rfl⟩ := List.cons.inj h
          rw [slugPass, if_neg hc, if_pos (by simp [hs])]
          rw [dropLastHyphen_cons (head?_slugPass text), ihWords]
          exact (flatMap_slugWords text).symm
      | false =>
        have hsame : ∀ joined, slugPass joined (c :: text) = slugPass joined text := by
          intro joined
          rw [slugPass, if_neg hc, if_neg (by simp [hs])]
        rw [hsame, hsame, slugWords, slugPieces_cons_other hc hs]
        exact ⟨ihWords, ihRest⟩

/-- **The slug is made of the words of the text.** -/
theorem slugChars_eq (text : List Char) : slugChars text = joinWords (slugWords text) := by
  rw [slugChars, (dropLastHyphen_slugPass (trim text)).1, slugWords_trim]

/-! ## What a slug looks like -/

/-- A text with no empty piece between its hyphens does not begin or end with
one, and has no two in a row. -/
theorem of_nil_notMem_splitOn (h : [] ∉ s.splitOn '-') :
    s.head? ≠ some '-' ∧ s.getLast? ≠ some '-' ∧ ¬ ['-', '-'] <:+: s := by
  refine ⟨fun hs => ?_, fun hs => ?_, ?_⟩
  · obtain ⟨rest, rfl⟩ := List.head?_eq_some_iff.1 hs
    rw [← List.nil_append ('-' :: rest), List.splitOn_append_cons_self] at h
    exact h (List.mem_append_left _ List.mem_cons_self)
  · obtain ⟨rest, rfl⟩ := List.getLast?_eq_some_iff.1 hs
    rw [List.splitOn_append_cons_self] at h
    exact h (List.mem_append_right _ List.mem_cons_self)
  · rintro ⟨before, after, rfl⟩
    rw [List.append_assoc, List.cons_append, List.splitOn_append_cons_self,
      ← List.nil_append (['-'] ++ after), List.singleton_append,
      List.splitOn_append_cons_self] at h
    exact h (List.mem_append_right _ (List.mem_append_left _ List.mem_cons_self))

/-- **The hyphens of a slug** stand between its words. -/
theorem nil_notMem_splitOn_slugChars (h : slugChars text ≠ []) :
    [] ∉ (slugChars text).splitOn '-' := by
  rw [slugChars_eq] at h ⊢
  have hwords : (slugWords text).map lowered ≠ [] := fun hnil =>
    h ((joinWords_slugWords_eq_nil_iff text).2 (List.map_eq_nil_iff.1 hnil))
  rw [joinWords, List.splitOn_intercalate _ _ hwords]
  · intro hnil
    obtain ⟨w, hw, hlowered⟩ := List.mem_map.1 hnil
    exact (isWord_of_mem_slugWords hw).lowered_ne_nil hlowered
  · intro piece hpiece
    obtain ⟨w, hw, rfl⟩ := List.mem_map.1 hpiece
    exact (isWord_of_mem_slugWords hw).hyphen_notMem_lowered

/-- **The slug as a specification.** What does not count is deleted, the rest
is cut at the separators, the pieces that are not empty are lower-cased and
joined by single hyphens. So the slug is empty exactly if the text has no
letter and no number, and it never begins or ends with a hyphen and has no two
hyphens in a row. -/
theorem slug_eq_joinWords (text : String) :
    slug text = String.ofList (joinWords (slugWords text.toList))
    ∧ (slug text = "" ↔ ∀ c ∈ text.toList, isAlphanumeric c = false)
    ∧ (slug text).toList.head? ≠ some '-'
    ∧ (slug text).toList.getLast? ≠ some '-'
    ∧ ¬ ['-', '-'] <:+: (slug text).toList := by
  have hslug : slug text = String.ofList (joinWords (slugWords text.toList)) := by
    rw [slug, slugChars_eq]
  refine ⟨hslug, ?_, ?_⟩
  · calc slug text = ""
        ↔ slugWords text.toList = [] := by
          rw [hslug, ← joinWords_slugWords_eq_nil_iff, String.ofList_eq_empty_iff]
      _ ↔ (slugWords text.toList).flatten = [] := by
          refine ⟨fun h => h ▸ rfl, fun h => List.eq_nil_iff_forall_not_mem.2 fun w hw => ?_⟩
          exact (isWord_of_mem_slugWords hw).ne_nil (List.flatten_eq_nil_iff.1 h w hw)
      _ ↔ ∀ c ∈ text.toList, isAlphanumeric c = false := by
          rw [flatten_slugWords, List.filter_eq_nil_iff]
          exact forall₂_congr fun c _ => Bool.eq_false_iff.symm
  · rw [slug, String.toList_ofList]
    by_cases hnil : slugChars text.toList = []
    · rw [hnil]
      exact ⟨nofun, nofun, fun h => nomatch List.infix_nil.1 h⟩
    · exact of_nil_notMem_splitOn (nil_notMem_splitOn_slugChars hnil)

example : slug "snake_case -- name" = "snake-case-name" := by decide +kernel

end PageSlots.Page
