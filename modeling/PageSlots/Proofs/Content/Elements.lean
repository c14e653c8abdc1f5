import PageSlots.Proofs.Content.Fragment
import PageSlots.Proofs.Content.Token

/-!
# Elements by their tags

What stands inside what can be told of markup in two ways. The tags of a
text, from left to right, may match: each end tag closes the element that
was opened last and is still open, and none is open at the end
(`tagsMatch`). Or it is told of what is read: the elements of a content by
their tags, each with the elements inside it (`Content.elements`).

Tokens spell elements if their tags match and stand for these
(`Token.Spells`). Then the tags of what is written match
(`tagsMatch_of_spells`), and reading finds just these elements
(`readsAs_of_spells`). Without that the two ways part: reading closes more
than one element at an end tag, or none.
-/

namespace PageSlots.Markup

open PageSlots.Text

/-- **An element by its tag**, with the elements inside it. -/
inductive ElementTree where
  /-- A tag, and what stands between its start and its end. -/
  | node (tag : String) (inside : List ElementTree)

/-- **The elements of a content**: that of the topmost node with those
inside it, or what stands inside if the node is none. -/
def Content.elements : Content → List ElementTree
  | node o cs =>
    if o.kind = .element then [.node o.tag (cs.flatMap elements)] else cs.flatMap elements

theorem Content.elements_node (o : Own) (cs : List Content) :
    (node o cs).elements
      = if o.kind = .element then [.node o.tag (cs.flatMap elements)] else cs.flatMap elements := by
  rw [elements]

/-! ## The tags of a text -/

/-- A tag of a text. -/
inductive TagMark where
  /-- A start tag. -/
  | opens (tag : String)
  /-- An end tag. -/
  | closes (tag : String)

/-- The tag of a construct. A tag that ends with a slash opens nothing. -/
def Construct.marks : Construct → List TagMark
  | .startTag content => [.opens (Own.ofTag content).tag]
  | .endTag name => [.closes (String.ofList (asciiLower name))]
  | _ => []

/-- Where to look for the next tag: behind the construct, or behind the raw
text that it begins. -/
def Construct.next (rest : List Char) : Construct → List Char
  | .startTag content =>
    if isRawTextTag (Own.ofTag content).tag then
      (breakRawText (Own.ofTag content).tag.toList rest).2
    else rest
  | _ => rest

theorem Construct.length_next_le (construct : Construct) (rest : List Char) :
    (construct.next rest).length ≤ rest.length := by
  unfold next
  split
  · split
    · exact length_breakRawText_le _ rest
    · exact Nat.le_refl _
  · exact Nat.le_refl _

/-- **The tags of a text**, from left to right, unless a construct in it is
malformed. -/
def tagMarks? (text : List Char) : Option (List TagMark) :=
  match _hb : breakAtConstruct text with
  | (_, []) => some []
  | (_, _ :: after) =>
    match _hr : readConstruct after with
    | .error _ => none
    | .ok (construct, rest) => (tagMarks? (construct.next rest)).map (construct.marks ++ ·)
termination_by text.length
decreasing_by
  have h₁ := construct.length_next_le rest
  have h₂ := length_le_of_readConstruct _hr
  have h₃ := length_breakAtConstruct_le text
  rw [_hb, List.length_cons] at h₃
  omega

/-- **Whether tags match** while some elements are open: each end tag closes
the innermost one, and none is open at the end. A void element is never
open. -/
def marksMatch (opened : List String) : List TagMark → Bool
  | [] => opened.isEmpty
  | .opens tag :: marks => marksMatch (if isVoidTag tag then opened else tag :: opened) marks
  | .closes tag :: marks => opened.head? == some tag && marksMatch opened.tail marks

/-- **Whether the tags of a text match.** -/
def tagsMatch (text : List Char) : Bool :=
  (tagMarks? text).any (marksMatch [])

section Marks

variable {text before after rest : List Char} {c : Char} {construct : Construct}

theorem tagMarks?_of_end (h : breakAtConstruct text = (before, [])) : tagMarks? text = some [] := by
  rw [tagMarks?]
  grind

theorem tagMarks?_of_error {e : Nat × ConstructFault}
    (h : breakAtConstruct text = (before, c :: after)) (hr : readConstruct after = .error e) :
    tagMarks? text = none := by
  rw [tagMarks?]
  grind

theorem tagMarks?_of_ok (h : breakAtConstruct text = (before, c :: after))
    (hr : readConstruct after = .ok (construct, rest)) :
    tagMarks? text = (tagMarks? (construct.next rest)).map (construct.marks ++ ·) := by
  rw [tagMarks?]
  grind

/-- A text without `<` has no tags, whatever follows. -/
theorem tagMarks?_append_of_notMem {s : List Char} (hs : '<' ∉ s) (rest : List Char) :
    tagMarks? (s ++ rest) = tagMarks? rest := by
  have happend := breakAtConstruct_append_of_notMem hs rest
  rcases hb : breakAtConstruct rest with ⟨before, _ | ⟨c, after⟩⟩
  all_goals rw [hb] at happend
  · rw [tagMarks?_of_end happend, tagMarks?_of_end hb]
  · cases hr : readConstruct after with
    | error e => rw [tagMarks?_of_error happend hr, tagMarks?_of_error hb hr]
    | ok r => rw [tagMarks?_of_ok happend hr, tagMarks?_of_ok hb hr]

/-- A construct is the first to have a tag where it stands. -/
theorem tagMarks?_construct (ho : opensConstruct after = true)
    (hr : readConstruct after = .ok (construct, rest)) :
    tagMarks? ('<' :: after) = (tagMarks? (construct.next rest)).map (construct.marks ++ ·) :=
  tagMarks?_of_ok (breakAtConstruct_append_of_plain isPlainText_nil (.inr ⟨after, rfl, ho⟩)) hr

end Marks

/-! ## Tokens -/

namespace Token

variable {k : Token} {tokens : List Token} {els : List ElementTree}

/-- The tag of a token. -/
def marks : Token → List TagMark
  | .text _ => []
  | .opening tag _ _ => [.opens tag]
  | .closing tag => [.closes tag]

/-- **The tag of a token is read as it was written.** -/
theorem tagMarks?_written_append (hk : k.IsPlain) (rest : List Char) :
    tagMarks? (k.written ++ rest) = (tagMarks? rest).map (k.marks ++ ·) := by
  cases k with
  | text text =>
    rw [written, tagMarks?_append_of_notMem (notMem_escapeChars (by decide) text)]
    exact Option.map_id'.symm
  | opening tag attrs flags =>
    have hread := readConstruct_opening hk rest
    have hown := ofTag?_opening hk
    cases hk with
    | opening ht hraw _ _ =>
      have hwritten : (opening tag attrs flags).written ++ rest
          = '<' :: (tag.toList ++ (attrs.flatMap Attribute.inQuotes
              ++ (writtenAttributes (flagAttributes flags) ++ '>' :: rest))) := by
        simp [written]
      have htag : (Own.ofTag (tag.toList ++ (attrs.flatMap Attribute.inQuotes
          ++ writtenAttributes (flagAttributes flags)))).tag = tag := by
        unfold Own.ofTag? at hown
        split at hown
        · cases hown
        · rw [Except.ok.inj hown]
      rw [hwritten, tagMarks?_construct (Content.opensConstruct_tag ht.isClean _).1 hread,
        Construct.next, htag, if_neg (by simp [hraw]), Construct.marks, htag]
      rfl
  | closing tag =>
    cases hk with
    | closing ht =>
      have hwritten : (closing tag).written ++ rest
          = '<' :: '/' :: (tag.toList ++ '>' :: rest) := by
        simp [written]
      have hmarks : (Construct.endTag tag.toList).marks = [.closes tag] := by
        rw [Construct.marks, ht.isClean.asciiLower_eq, String.ofList_toList]
      rw [hwritten, tagMarks?_construct (Content.opensConstruct_tag ht.isClean _).2
        (readConstruct_endTag ht.isClean rest), hmarks]
      rfl

/-- **Tokens have their tags one after the other.** -/
theorem tagMarks?_flatMap_written (hk : ∀ k ∈ tokens, k.IsPlain) :
    tagMarks? (tokens.flatMap written) = some (tokens.flatMap marks) := by
  induction tokens with
  | nil => exact tagMarks?_of_end (show breakAtConstruct [] = ([], []) from rfl)
  | cons k tokens ih =>
    rw [List.flatMap_cons, tagMarks?_written_append (hk k List.mem_cons_self),
      ih fun k' hk' => hk k' (List.mem_cons_of_mem k hk')]
    rfl

/-- **Tokens that spell elements**: their tags match, and stand for these
elements. -/
inductive Spells : List Token → List ElementTree → Prop where
  /-- No token spells nothing. -/
  | nil : Spells [] []
  /-- Neither does a text. -/
  | text {s : List Char} : Spells [.text s] []
  /-- The start tag of a void element spells it. -/
  | void {tag : String} {attrs : List Attribute} {flags : List String} : isVoidTag tag = true →
      Spells [.opening tag attrs flags] [.node tag []]
  /-- A start tag and its end tag spell an element over what is spelt
  between them. -/
  | element {tag : String} {attrs : List Attribute} {flags : List String} {tokens : List Token}
      {els : List ElementTree} : isVoidTag tag = false → Spells tokens els →
      Spells (.opening tag attrs flags :: (tokens ++ [.closing tag])) [.node tag els]
  /-- Tokens side by side spell elements side by side. -/
  | append {tokens tokens' : List Token} {els els' : List ElementTree} : Spells tokens els →
      Spells tokens' els' → Spells (tokens ++ tokens') (els ++ els')

/-- What tokens that spell elements open they close. -/
theorem Spells.marksMatch_append (h : Spells tokens els) (opened : List String)
    (marks : List TagMark) :
    marksMatch opened (tokens.flatMap Token.marks ++ marks) = marksMatch opened marks := by
  induction h generalizing opened marks with
  | nil => rfl
  | text => rfl
  | void hv => exact congrArg (marksMatch · marks) (if_pos hv)
  | @element tag attrs flags tokens els hv _ ih =>
    rw [List.flatMap_cons, List.flatMap_append, List.append_assoc, List.append_assoc,
      Token.marks, List.singleton_append, marksMatch, hv, if_neg Bool.false_ne_true, ih,
      List.flatMap_singleton, Token.marks, List.singleton_append, marksMatch]
    simp
  | append _ _ ih ih' => rw [List.flatMap_append, List.append_assoc, ih, ih']

end Token

/-! ## What tokens that spell elements are read as -/

namespace Draft

variable {z : Draft}

/-- The elements of texts do not depend on the texts. -/
theorem addText_elements (z : Draft) (s : List Char) :
    (z.addText s).outer = z.outer
      ∧ (z.addText s).done.flatMap Content.elements = z.done.flatMap Content.elements := by
  have hnew : (z.push (.ofText s)).done.flatMap Content.elements
      = z.done.flatMap Content.elements := by
    rw [push, List.flatMap_append, List.flatMap_singleton, Content.ofText, Content.elements_node]
    simp
  unfold addText
  split
  · exact ⟨rfl, rfl⟩
  · split
    · rename_i o cs hlast
      split
      · obtain ⟨before, hdone⟩ := List.getLast?_eq_some_iff.1 hlast
        refine ⟨rfl, ?_⟩
        rw [hdone, List.dropLast_concat, List.flatMap_append, List.flatMap_append,
          List.flatMap_singleton, List.flatMap_singleton, Content.elements_node,
          Content.elements_node]
      · exact ⟨rfl, hnew⟩
    · exact ⟨rfl, hnew⟩

/-- **Tokens that spell elements are read as these**, behind what stands in
the innermost element, and leave open what was open. -/
theorem foldl_take_spells {tokens : List Token} {els : List ElementTree}
    (h : Token.Spells tokens els) (z : Draft) :
    (tokens.foldl take z).outer = z.outer
      ∧ (tokens.foldl take z).done.flatMap Content.elements
        = z.done.flatMap Content.elements ++ els := by
  induction h generalizing z with
  | nil => exact ⟨rfl, (List.append_nil _).symm⟩
  | text =>
    rw [List.append_nil]
    exact addText_elements z _
  | @void tag attrs flags hv =>
    rw [List.foldl_cons, List.foldl_nil, take, if_pos hv, push]
    refine ⟨rfl, ?_⟩
    rw [List.flatMap_append, List.flatMap_singleton, Content.elements_node, if_pos rfl]
    rfl
  | @element tag attrs flags tokens els hv _ ih =>
    rw [List.foldl_cons, List.foldl_append, take, if_neg (by simp [hv])]
    generalize ho : ({ kind := .element, tag, attrs := attrs ++ flagAttributes flags } : Own) = o
    obtain ⟨houter, hdone⟩ := ih (z.enter o)
    generalize tokens.foldl take (z.enter o) = z' at houter hdone
    have htag : o.tag = tag := ho ▸ rfl
    have hkind : o.kind = .element := ho ▸ rfl
    -- what was entered is open, so its end tag closes it and nothing else
    have hclose : z'.close tag
        = { z' with done := z.done ++ [.node o z'.done], outer := z.outer } := by
      unfold close
      rw [houter, enter, closeIn, if_pos htag]
    rw [List.foldl_cons, List.foldl_nil, take, hclose]
    refine ⟨rfl, ?_⟩
    have hinside : z'.done.flatMap Content.elements = els := hdone
    rw [List.flatMap_append, List.flatMap_singleton, Content.elements_node, if_pos hkind, htag,
      hinside]
  | append _ _ ih ih' =>
    obtain ⟨houter, hdone⟩ := ih z
    obtain ⟨houter', hdone'⟩ := ih' (List.foldl take z _)
    rw [List.foldl_append]
    exact ⟨houter'.trans houter, by rw [hdone', hdone, List.append_assoc]⟩

end Draft

section Spells

variable {tokens : List Token} {els : List ElementTree} {markup : String}
variable (hk : ∀ k ∈ tokens, k.IsPlain) (h : Token.Spells tokens els)
variable (hm : markup.toList = tokens.flatMap Token.written)
include hk h hm

/-- **The tags of tokens that spell elements match.** -/
theorem tagsMatch_of_spells : tagsMatch markup.toList = true := by
  have hmatch := h.marksMatch_append [] []
  rw [List.append_nil] at hmatch
  rw [tagsMatch, hm, Token.tagMarks?_flatMap_written hk]
  exact hmatch

/-- **Tokens that spell elements are read as contents with these
elements.** -/
theorem readsAs_of_spells : ∃ cs, ReadsAs markup cs ∧ cs.flatMap Content.elements = els := by
  obtain ⟨houter, hdone⟩ := Draft.foldl_take_spells h {}
  have hcontents : (tokens.foldl Draft.take {}).contents = (tokens.foldl Draft.take {}).done := by
    rw [Draft.contents, houter]
    rfl
  have hread := readFragment_eq markup
  rw [Content.parse_tokens hk hm] at hread
  exact ⟨_, ⟨hread.1, hread.2.2.2⟩, by rw [hcontents, hdone]; rfl⟩

end Spells

end PageSlots.Markup
