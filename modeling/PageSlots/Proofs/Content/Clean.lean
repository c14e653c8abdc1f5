import Mathlib.Data.List.Chain
import PageSlots.Proofs.Content.Written

/-!
# Clean contents are read back

Markup is written without regard to how it is read, and much of what can
stand in a tree is not read back: a text with a tag in it, a void element
with children, two texts side by side. `Content.Clean` is the grammar of
what is. Clean contents that are written in front of an arbitrary rest are
finished last in the draft, and reading goes on from the rest
(`Clean.readsBack`), because each piece ends where it was written to end.
The induction is on the content: what is between the two tags of an
element is read back by hypothesis, and the end tag closes that element
because every element inside has been closed.

A text may hold sections of character data. They are the one construct
that is kept as text, and the text around them is joined to them again.
-/

namespace PageSlots.Markup

open PageSlots.Text

/-- **A text that is read as text**: nothing in it opens a construct but a
section of character data, and that is closed. -/
inductive IsCharacters : List Char → Prop where
  /-- Nothing opens a construct. -/
  | plain {text : List Char} : IsPlainText text → IsCharacters text
  /-- A section stands after a plain text and before the rest. -/
  | data {before data after : List Char} : IsPlainText before → ¬ [']', ']', '>'] <:+: data →
      IsCharacters after →
      IsCharacters (before ++ ("<![CDATA[".toList ++ data ++ "]]>".toList) ++ after)

namespace Content

/-- Whether a content is a text. -/
def IsText (c : Content) : Prop :=
  c.own.kind = .text

/-- Of two contents side by side at most one is a text. -/
def NoTextsMeet (cs : List Content) : Prop :=
  cs.IsChain fun c d => ¬ (c.IsText ∧ d.IsText)

/-- **The body of a raw text element**: nothing, or a text, not empty,
that does not hold the end of the element. -/
inductive IsRawBody (tag : String) : List Content → Prop where
  /-- There is no body. -/
  | empty : IsRawBody tag []
  /-- The body is a text. -/
  | text {text : String} : text ≠ "" → (breakRawText tag.toList text.toList).2 = [] →
      IsRawBody tag [.node { kind := .text, text } []]

/-- **What is read as it is written.** -/
inductive Clean : Content → Prop where
  /-- A text that is not empty and is read as text. -/
  | text {text : String} : text ≠ "" → IsCharacters text.toList →
      Clean (.node { kind := .text, text } [])
  /-- A comment that does not hold its end. -/
  | comment {text : String} : ¬ ['-', '-', '>'] <:+: text.toList →
      Clean (.node { kind := .comment, text } [])
  /-- A void element, without children. -/
  | void {tag : String} {attrs : List Attribute} : IsCleanStart tag attrs →
      isVoidTag tag = true → Clean (.node { kind := .element, tag, attrs } [])
  /-- A raw text element. -/
  | raw {tag : String} {attrs : List Attribute} {cs : List Content} : IsCleanStart tag attrs →
      isRawTextTag tag = true → IsRawBody tag cs → Clean (.node { kind := .element, tag, attrs } cs)
  /-- Any other element, over clean children. -/
  | element {tag : String} {attrs : List Attribute} {cs : List Content} : IsCleanStart tag attrs →
      isVoidTag tag = false → isRawTextTag tag = false → NoTextsMeet cs → (∀ c ∈ cs, Clean c) →
      Clean (.node { kind := .element, tag, attrs } cs)

end Content

/-! ## Steps of the draft -/

namespace Draft

variable {z : Draft} {total : Nat} {text after rest : List Char} {construct : Construct}

/-- A construct is read where it stands. -/
theorem read_construct (ho : opensConstruct after = true)
    (hr : readConstruct after = .ok (construct, rest)) (z : Draft) (total : Nat) :
    z.read total ('<' :: after)
      = match z.add construct rest with
        | (.error fault, z') => (some fault, z')
        | (.ok next, z') => z'.read total next := by
  have hb : breakAtConstruct ('<' :: after) = ([], '<' :: after) :=
    breakAtConstruct_append_of_plain isPlainText_nil (.inr ⟨after, rfl, ho⟩)
  exact read_of_ok hb hr z total

/-- **A plain text is added as a whole.** -/
theorem read_text (h : IsPlainText text) (hr : IsBoundary rest) (z : Draft) (total : Nat) :
    z.read total (text ++ rest) = (z.addText text).read total rest := by
  have hnil : (z.addText text).addText [] = z.addText text := rfl
  have hb := breakAtConstruct_append_of_plain h hr
  have hb' : breakAtConstruct rest = ([], rest) :=
    breakAtConstruct_append_of_plain isPlainText_nil hr
  rcases hr with rfl | ⟨after, rfl, -⟩
  · rw [read_of_end hb, read_of_end hb', hnil]
  · cases hc : readConstruct after with
    | error e => rw [read_of_error hb hc, read_of_error hb' hc, hnil]
    | ok r => rw [read_of_ok hb hc, read_of_ok hb' hc, hnil]

/-- Texts that are added one after the other are joined. -/
theorem addText_addText (z : Draft) (s s' : List Char) :
    (z.addText s).addText s' = z.addText (s ++ s') := by
  cases s with
  | nil => rfl
  | cons c s =>
    cases s' with
    | nil => rw [List.append_nil]; rfl
    | cons d s' =>
      -- whatever the first one is put into, it is finished last
      have hpush : ∀ w : Draft, (w.push (.ofText (c :: s))).addText (d :: s')
          = w.push (.ofText (c :: s ++ d :: s')) := by
        intro w
        unfold addText push
        dsimp only
        rw [if_neg (by simp), List.getLast?_concat]
        dsimp only [Content.ofText]
        rw [if_pos rfl, List.dropLast_concat, String.ofList_append]
      unfold addText
      rw [if_neg (by simp), if_neg (by simp), if_neg (by simp)]
      cases hlast : z.done.getLast? with
      | none => exact hpush z
      | some last =>
        obtain ⟨o, cs⟩ := last
        dsimp only
        by_cases ho : o.kind = .text
        · rw [if_pos ho, if_pos ho]
          dsimp only
          rw [List.getLast?_concat]
          dsimp only
          rw [if_pos ho, List.dropLast_concat, String.append_assoc, ← String.ofList_append]
        · rw [if_neg ho, if_neg ho]
          exact hpush z

/-- **A text with sections of character data is added as a whole.** -/
theorem read_characters (h : IsCharacters text) (hr : IsBoundary rest) (z : Draft) (total : Nat) :
    z.read total (text ++ rest) = (z.addText text).read total rest := by
  induction h generalizing z with
  | plain h => exact read_text h hr z total
  | @data before data after hbefore hdata _ ih =>
    have hcut : before ++ ("<![CDATA[".toList ++ data ++ "]]>".toList) ++ after ++ rest
        = before ++ '<' :: ("![CDATA[".toList ++ (data ++ [']', ']', '>'] ++ (after ++ rest))) := by
      simp
    rw [hcut, read_text hbefore (.inr ⟨_, rfl, rfl⟩),
      read_construct rfl (readConstruct_characterData hdata (after ++ rest)), add]
    dsimp only
    rw [addText_addText, ih, addText_addText]

/-- Closing the innermost element by its own tag. -/
theorem close_enter (z : Draft) (o : Own) (cs : List Content) :
    close { z.enter o with done := cs } o.tag = z.push (.node o cs) := by
  unfold close enter
  dsimp only
  rw [closeIn, if_pos rfl]
  rfl

/-- A text after what is no text stands for itself. -/
theorem addText_eq_push {text : String} (ht : text ≠ "")
    (hz : ∀ d ∈ z.done.getLast?, ¬ d.IsText) :
    z.addText text.toList = z.push (.node { kind := .text, text } []) := by
  have hne : text.toList.isEmpty = false := by simpa using ht
  have hnew : Content.ofText text.toList = .node { kind := .text, text } [] := by
    rw [Content.ofText, String.ofList_toList]
  unfold addText
  rw [if_neg (by rw [hne]; simp), hnew]
  split
  · rename_i o cs hlast
    exact if_neg (show ¬ o.kind = .text from hz _ hlast)
  · rfl

end Draft

/-! ## Contents -/

/-- No void element holds raw text. -/
theorem isRawTextTag_eq_false {tag : String} (hv : isVoidTag tag = true) :
    isRawTextTag tag = false := by
  have hall : ∀ tag ∈ voidTags, isRawTextTag tag = false := by decide
  exact hall tag (List.contains_iff_mem.1 hv)

theorem isVoidTag_eq_false {tag : String} (hr : isRawTextTag tag = true) :
    isVoidTag tag = false := by
  by_contra hv
  rw [isRawTextTag_eq_false (eq_true_of_ne_false hv)] at hr
  cases hr

/-- The tags of raw text elements are plain. -/
theorem isPlainTag_of_isRawTextTag {tag : String} (hr : isRawTextTag tag = true) :
    IsPlainTag tag := by
  have hmem : tag ∈ rawTextTags := List.contains_iff_mem.1 hr
  have hletters : ∀ tag ∈ rawTextTags, tag.toList ≠ [] ∧ tag.toList.all Char.isLower = true := by
    decide
  obtain ⟨hne, hlower⟩ := hletters tag hmem
  have hall := List.all_eq_true.1 hlower
  obtain ⟨c, cs, hc⟩ := List.exists_cons_of_ne_nil hne
  exact ⟨c, cs, hc, hall c (hc ▸ List.mem_cons_self),
    fun d hd => .inl (hall d (hc ▸ List.mem_cons_of_mem c hd))⟩

namespace Content

variable {total : Nat} {c : Content} {cs : List Content} {tag : String} {attrs : List Attribute}

/-- **A content is read back**: written in front of any rest, it is
finished last, and reading goes on from the rest. A text is read back only
if another construct ends it and no text stands before it. -/
def ReadsBack (total : Nat) (c : Content) : Prop :=
  ∀ (z : Draft) (rest : List Char),
    (c.IsText → IsBoundary rest ∧ ∀ d ∈ z.done.getLast?, ¬ d.IsText) →
    z.read total (c.written ++ rest) = (z.push c).read total rest

theorem opensConstruct_tag (h : IsCleanTag tag) (text : List Char) :
    opensConstruct (tag.toList ++ text) = true
      ∧ opensConstruct ('/' :: (tag.toList ++ text)) = true := by
  obtain ⟨c, cs, hc, hlow, -⟩ := h
  have ha : c.isAlpha = true := Bool.or_eq_true_iff.2 (.inr hlow)
  rw [hc]
  refine ⟨?_, ha⟩
  rw [List.cons_append, opensConstruct_cons (by rintro rfl; cases hlow), ha]
  rfl

/-- What is no text begins with a construct. -/
theorem Clean.isBoundary_written (h : c.Clean) (hc : ¬ c.IsText) (rest : List Char) :
    IsBoundary (c.written ++ rest) := by
  have helement : ∀ (tag : String) (attrs : List Attribute) (cs : List Content),
      IsCleanTag tag →
        IsBoundary ((Content.node { kind := .element, tag, attrs } cs).written ++ rest) := by
    intro tag attrs cs ht
    obtain ⟨after, ha⟩ : ∃ after, (Content.node { kind := .element, tag, attrs } cs).written
        = '<' :: (tag.toList ++ after) := by
      rw [written_node, Own.enclose]
      dsimp only
      split
      · exact ⟨attrs.flatMap (·.written.toList) ++ ['>'], by simp [Own.startTag]⟩
      · exact ⟨attrs.flatMap (·.written.toList) ++ '>' :: (cs.flatMap written ++
          Own.endTag { kind := .element, tag, attrs }), by simp [Own.startTag]⟩
    rw [ha, List.cons_append, List.append_assoc]
    exact .inr ⟨_, rfl, (opensConstruct_tag ht _).1⟩
  cases h with
  | text _ _ => exact absurd rfl hc
  | comment _ =>
    rw [written_node]
    exact .inr ⟨_, rfl, rfl⟩
  | void ht _ => exact helement _ _ _ ht.isClean_tag
  | raw ht _ _ => exact helement _ _ _ ht.isClean_tag
  | element ht _ _ _ _ => exact helement _ _ _ ht.isClean_tag

/-- **Contents side by side are read back** if each of them is. -/
theorem read_flatMap_written_of_clean (hcs : ∀ c ∈ cs, c.Clean) (hb : ∀ c ∈ cs, ReadsBack total c)
    (hm : NoTextsMeet cs) (z : Draft) {rest : List Char} (hr : IsBoundary rest)
    (hz : ∀ c ∈ cs.head?, c.IsText → ∀ d ∈ z.done.getLast?, ¬ d.IsText) :
    z.read total (cs.flatMap written ++ rest)
      = Draft.read { z with done := z.done ++ cs } total rest := by
  induction cs generalizing z with
  | nil => simp
  | cons c cs ih =>
    have hnext : c.IsText → IsBoundary (cs.flatMap written ++ rest) := by
      intro hct
      cases cs with
      | nil => exact hr
      | cons d cs =>
        have hd : ¬ d.IsText := fun hd => (List.isChain_cons_cons.1 hm).1 ⟨hct, hd⟩
        rw [List.flatMap_cons, List.append_assoc]
        exact (hcs d (List.mem_cons_of_mem _ List.mem_cons_self)).isBoundary_written hd _
    rw [List.flatMap_cons, List.append_assoc, hb c List.mem_cons_self z _ fun hct =>
      ⟨hnext hct, hz c rfl hct⟩, ih (fun d hd => hcs d (List.mem_cons_of_mem _ hd))
      (fun d hd => hb d (List.mem_cons_of_mem _ hd)) (List.isChain_cons.1 hm).2 (z.push c)]
    · simp [Draft.push]
    · intro d hd hdt e he
      rw [Draft.push, List.getLast?_concat] at he
      rw [← Option.some.inj he]
      cases cs with
      | nil => cases hd
      | cons d' cs =>
        cases hd
        exact fun hct => (List.isChain_cons_cons.1 hm).1 ⟨hct, hdt⟩

/-- The start tag of an element, and what the draft does with it. -/
theorem read_startTag (h : IsCleanStart tag attrs) (z : Draft) (rest : List Char) :
    let o : Own := { kind := .element, tag, attrs }
    z.read total (o.startTag ++ rest)
      = if isRawTextTag tag then
          ((z.enter o).addText (breakRawText tag.toList rest).1).read total
            (breakRawText tag.toList rest).2
        else if isVoidTag tag then (z.push (.node o [])).read total rest
        else (z.enter o).read total rest := by
  intro o
  have hwritten : o.startTag ++ rest
      = '<' :: (tag.toList ++ (writtenAttributes attrs ++ '>' :: rest)) := by
    simp [Own.startTag, o, writtenAttributes]
  rw [hwritten, Draft.read_construct (opensConstruct_tag h.isClean_tag _).1
    (readConstruct_startTag h rest), Draft.add, h.ofTag?_written]
  dsimp only [o]
  by_cases hr : isRawTextTag tag = true
  · rw [if_pos hr, if_pos hr]
  · rw [if_neg hr, if_neg hr]
    by_cases hv : isVoidTag tag = true
    · rw [if_pos hv, if_pos hv]
    · rw [if_neg hv, if_neg hv]

theorem endTag_append (o : Own) (rest : List Char) :
    o.endTag ++ rest = '<' :: '/' :: (o.tag.toList ++ '>' :: rest) := by
  simp [Own.endTag]

/-- A letter is small or has a small letter in lower case. -/
theorem isAlpha_of_isLower_toLower {c : Char} (h : c.toLower.isLower = true) :
    c.isAlpha = true := by
  by_cases hu : ('A'.val ≤ c.val ∧ c.val ≤ 'Z'.val)
  · exact Bool.or_eq_true_iff.2 (.inl (decide_eq_true hu))
  · rw [show c.toLower = c from dif_neg hu] at h
    exact Bool.or_eq_true_iff.2 (.inr h)

/-- A name in either case opens an end tag. -/
theorem opensConstruct_closing (h : IsCleanTag tag) {name : List Char}
    (hname : asciiLower name = tag.toList) (text : List Char) :
    opensConstruct ('/' :: (name ++ text)) = true := by
  obtain ⟨d, ds, htag, hlow, -⟩ := h
  obtain ⟨c, cs, rfl⟩ : ∃ c cs, name = c :: cs :=
    List.exists_cons_of_ne_nil fun he => by simp [he, asciiLower, htag] at hname
  rw [htag] at hname
  obtain ⟨rfl, -⟩ := List.cons.inj hname
  exact isAlpha_of_isLower_toLower hlow

/-- The end tag of the innermost element finishes it. -/
theorem add_closing {o : Own} {name : List Char} (hname : asciiLower name = o.tag.toList)
    (z : Draft) (cs : List Content) (rest : List Char) :
    Draft.add { z.enter o with done := cs } (.endTag name) rest
      = (.ok rest, z.push (.node o cs)) := by
  rw [Draft.add, hname, String.ofList_toList, Draft.close_enter]

/-- The end tag of the innermost element. -/
theorem read_endTag {o : Own} (ht : IsCleanTag o.tag) (z : Draft) (cs : List Content)
    (rest : List Char) :
    Draft.read { z.enter o with done := cs } total (o.endTag ++ rest)
      = (z.push (.node o cs)).read total rest := by
  rw [endTag_append,
    Draft.read_construct (opensConstruct_tag ht _).2 (readConstruct_endTag ht rest),
    add_closing ht.asciiLower_eq]

/-- The body of a raw text element is cut off at the end tag, and is then
what is finished in the element. -/
theorem IsRawBody.read (h : IsRawBody tag cs) (ht : IsPlainTag tag) (z : Draft) (o : Own)
    (rest : List Char) :
    let read := breakRawText tag.toList
      (cs.flatMap written ++ '<' :: '/' :: (tag.toList ++ '>' :: rest))
    (z.enter o).addText read.1 = { z.enter o with done := cs }
      ∧ read.2 = '<' :: '/' :: (tag.toList ++ '>' :: rest) := by
  cases h with
  | empty =>
    dsimp only
    rw [List.flatMap_nil, breakRawText_append_endTag ht rfl]
    exact ⟨rfl, rfl⟩
  | @text text hne hbody =>
    have hchild : [Content.node { kind := .text, text } []].flatMap written = text.toList := by
      rw [List.flatMap_cons, List.flatMap_nil, List.append_nil, written_node]
      rfl
    -- the body ends at the end tag, because it does not hold one itself
    dsimp only
    rw [hchild, breakRawText_append_endTag ht hbody]
    exact ⟨Draft.addText_eq_push hne fun d hd => absurd hd (by simp [Draft.enter]), rfl⟩

/-- **What is clean is read back.** -/
theorem Clean.readsBack (h : c.Clean) (total : Nat) : ReadsBack total c := by
  induction c with
  | node o cs ih =>
    intro z rest hz
    cases h with
    | text hne hplain =>
      obtain ⟨hb, hlast⟩ := hz rfl
      rw [written_node]
      exact (Draft.read_characters hplain hb z total).trans
        (congrArg (Draft.read · total rest) (Draft.addText_eq_push hne hlast))
    | @comment text hplain =>
      have hwritten : (Content.node { kind := .comment, text } []).written ++ rest
          = '<' :: '!' :: '-' :: '-' :: (text.toList ++ ['-', '-', '>'] ++ rest) := by
        rw [written_node]
        rfl
      rw [hwritten, Draft.read_construct rfl (readConstruct_comment hplain rest), Draft.add]
      dsimp only
      rw [ofComment, String.ofList_toList]
    | void ht hv =>
      rw [written_node, Own.enclose]
      dsimp only
      rw [if_pos hv, read_startTag ht, isRawTextTag_eq_false hv, if_neg Bool.false_ne_true,
        if_pos hv]
    | @raw tag attrs cs ht hr hbody =>
      obtain ⟨hadd, hrest⟩ := hbody.read (isPlainTag_of_isRawTextTag hr) z
        { kind := .element, tag, attrs } rest
      rw [written_node, Own.enclose]
      dsimp only
      rw [isVoidTag_eq_false hr, if_neg Bool.false_ne_true, List.append_assoc, List.append_assoc,
        read_startTag ht, if_pos hr, endTag_append, hadd, hrest,
        ← endTag_append { kind := .element, tag, attrs }]
      exact read_endTag ht.isClean_tag z cs rest
    | @element tag attrs cs ht hv hr hm hcs =>
      rw [written_node, Own.enclose]
      dsimp only
      rw [hv, if_neg Bool.false_ne_true, List.append_assoc, List.append_assoc,
        read_startTag ht, hr, hv, if_neg Bool.false_ne_true, if_neg Bool.false_ne_true,
        read_flatMap_written_of_clean hcs (fun c hc => ih c hc (hcs c hc)) hm]
      · exact read_endTag ht.isClean_tag z cs rest
      · rw [endTag_append]
        exact .inr ⟨_, rfl, (opensConstruct_tag ht.isClean_tag _).2⟩
      · exact fun _ _ _ d hd => absurd hd (by simp [Draft.enter])

/-- **Clean contents are parsed as they are written.** -/
theorem parse_written (hcs : ∀ c ∈ cs, c.Clean) (hm : NoTextsMeet cs) {markup : String}
    (hw : markup.toList = cs.flatMap written) : (parse markup).1 = .ok cs := by
  have hread := read_flatMap_written_of_clean hcs
    (fun c hc => (hcs c hc).readsBack (byteLength (cs.flatMap written))) hm {} (.inl rfl)
    (fun _ _ _ d hd => absurd hd (by simp))
  rw [List.append_nil, Draft.read_of_end (show breakAtConstruct [] = ([], []) from rfl)] at hread
  unfold parse
  rw [hw, hread]
  rfl

end Content

end PageSlots.Markup
