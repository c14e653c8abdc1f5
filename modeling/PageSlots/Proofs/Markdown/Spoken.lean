import PageSlots.Proofs.Content.Fragment
import PageSlots.Proofs.Markdown.Output
import PageSlots.Proofs.Reference.Escaped

/-!
# The text of a document

The text of a page that is made from a well-nested document is the text of
the document: every text and every code span, a line break for each soft
one and a space for each task, in the order of the events and without what
stands for images (`textContent_document`).

A text may reach the page late. Inside a code block it is collected, and
the block is written when it ends. So along a run the text that is on the
page and the text that has gone by differ by what is pending
(`Rendition.pending`), and `Mirrors` says what can be: the captures are the
images that are open, or else a single code block with nothing open inside
it. Each event keeps that and moves its text to the page or to what is
pending (`Mirrors.event`); at the end nothing is open, and nothing pending.
-/

namespace PageSlots.Markdown

open PageSlots.Markup PageSlots.Text

/-! ## Well-nested events -/

/-- Whether a tag is that of an image. -/
def Tag.isImage : Tag → Bool
  | .image _ _ => true
  | _ => false

/-- Whether a tag is that of a code block. -/
def Tag.isCode : Tag → Bool
  | .codeBlock _ => true
  | _ => false

/-- Whether a tag stands inside a line, and not around blocks. -/
def Tag.isInline : Tag → Bool
  | .emphasis | .strong | .strikethrough | .superscript | .subscript | .link _ _ | .image _ _ =>
    true
  | _ => false

variable {opened : List Tag} {r : Rendition} {inline : Bool}

/-- Whether one of the open tags is that of an image. -/
def inImage (opened : List Tag) : Bool :=
  opened.any Tag.isImage

/-- Whether the innermost open tag is that of a code block. -/
def inCode (opened : List Tag) : Bool :=
  opened.head?.any Tag.isCode

/-- The open tags after an event, innermost first. -/
def openedAfter (opened : List Tag) : Event → List Tag
  | .start tag => tag :: opened
  | .stop _ => opened.tail
  | _ => opened

/-- **Whether an event fits where it stands.** An end closes the innermost
open tag. A code block holds only text, and an image neither blocks nor
rules nor tasks. Markup, mathematics and references to footnotes fit
nowhere. -/
def Event.fits (opened : List Tag) : Event → Bool
  | .text _ => true
  | .code _ | .softBreak | .hardBreak => !inCode opened
  | .rule | .taskMarker _ => !inCode opened && !inImage opened
  | .start tag => !inCode opened && (!inImage opened || tag.isInline)
  | .stop tag => opened.head?.map Tag.toEnd == some tag
  | .html _ | .inlineHtml _ | .inlineMath _ | .displayMath _ | .footnoteReference _ => false

/-- **Whether events are well nested**: each fits where it stands, and
nothing is open at the end. -/
def isWellNested (opened : List Tag) : List Event → Bool
  | [] => opened.isEmpty
  | e :: events => e.fits opened && isWellNested (openedAfter opened e) events

/-- **The text of an event** that stands inside some open tags. What stands
for an image is no text of the document. -/
def Event.textIn (opened : List Tag) (e : Event) : List Char :=
  if inImage opened then []
  else
    match e with
    | .text s | .code s => s.toList
    | .softBreak => ['\n']
    | .taskMarker _ => [' ']
    | _ => []

/-- **The text of well-nested events**, in their order. -/
def textOf (opened : List Tag) : List Event → List Char
  | [] => []
  | e :: events => e.textIn opened ++ textOf (openedAfter opened e) events

/-! ## What is pending -/

/-- The text that will be on the page once the code block ends. -/
def Rendition.pending (r : Rendition) : List Char :=
  match r.captures with
  | [.code _ body] => body.toList
  | _ => []

/-- Whether a capture is that of an image. -/
def Capture.isImage : Capture → Bool
  | .image _ => true
  | .code _ _ => false

/-- There are so many captures, all of images. -/
structure Rendition.HoldsImages (r : Rendition) (n : Nat) : Prop where
  /-- Each is that of an image. -/
  isImage : ∀ capture ∈ r.captures, capture.isImage = true
  /-- There are so many. -/
  length_eq : r.captures.length = n

/-- **The captures mirror the open tags.** -/
inductive Mirrors : List Tag → Rendition → Prop where
  /-- A code block is open, and no image around it. -/
  | code {info lang : Option String} {body : String} {opened : List Tag} {r : Rendition} :
      (∀ tag ∈ opened, tag.isCode = false) → inImage opened = false →
      r.captures = [.code lang body] → Mirrors (.codeBlock info :: opened) r
  /-- No code block is open, and the captures are those of the images. -/
  | images {opened : List Tag} {r : Rendition} : (∀ tag ∈ opened, tag.isCode = false) →
      r.HoldsImages (opened.countP Tag.isImage) → Mirrors opened r

namespace Rendition

variable {n : Nat}

/-- Nothing is pending in images. -/
theorem HoldsImages.pending_eq (h : r.HoldsImages n) : r.pending = [] := by
  unfold pending
  split
  · rename_i lang body hr
    have hcode := h.isImage (.code lang body) (by simp [hr])
    cases hcode
  · rfl

theorem HoldsImages.congr {r' : Rendition} (h : r.HoldsImages n) (hr : r'.captures = r.captures) :
    r'.HoldsImages n := by
  obtain ⟨himage, hlength⟩ := h
  exact ⟨hr ▸ himage, hr ▸ hlength⟩

/-- A text that is added to an image leaves it one. -/
theorem HoldsImages.pushOr (h : r.HoldsImages n) (text written : String) :
    (r.pushOr text written).HoldsImages n := by
  unfold Rendition.pushOr
  split
  · rename_i capture outer hr
    obtain ⟨himage, hlength⟩ := h
    rw [hr] at himage hlength
    obtain ⟨hfirst, houter⟩ := List.forall_mem_cons.1 himage
    refine ⟨List.forall_mem_cons.2 ⟨?_, houter⟩, hlength⟩
    cases capture with
    | code lang body => cases hfirst
    | image i => rfl
  · exact h.congr rfl

/-- One image more. -/
theorem HoldsImages.capture (h : r.HoldsImages n) (i : Image) :
    (r.capture (.image i)).HoldsImages (n + 1) :=
  ⟨List.forall_mem_cons.2 ⟨rfl, h.isImage⟩, congrArg (· + 1) h.length_eq⟩

/-- The innermost image ends. -/
theorem HoldsImages.closeImage (h : r.HoldsImages (n + 1)) (style : Style) :
    (r.closeImage style).HoldsImages n := by
  obtain ⟨himage, hlength⟩ := h
  unfold Rendition.closeImage
  rcases hr : r.captures with _ | ⟨capture, outer⟩
  all_goals rw [hr] at himage hlength
  · cases hlength
  · obtain ⟨hfirst, houter⟩ := List.forall_mem_cons.1 himage
    have hrest : Rendition.HoldsImages { r with captures := outer } n :=
      ⟨houter, Nat.succ.inj hlength⟩
    cases capture with
    | code lang body => cases hfirst
    | image i => exact hrest.pushOr _ _

/-- No text comes from the end of a code block that is none. -/
theorem HoldsImages.spoken_stop (h : r.HoldsImages n) (tag : EndTag) :
    r.spoken (.stop tag) = [] := by
  cases tag with
  | codeBlock =>
    unfold spoken
    rcases hr : r.captures with _ | ⟨⟨lang, body⟩ | i, outer⟩
    · rfl
    · have hcode := h.isImage (.code lang body) (by simp [hr])
      cases hcode
    · rfl
  | _ => rfl

/-- Only images and code blocks are captured. -/
theorem captures_start {tag : Tag} (hi : tag.isImage = false) (hc : tag.isCode = false)
    (style : Style) : (r.start style tag).captures = r.captures := by
  have hopen : (r.openOutside style tag).captures = r.captures := by
    unfold openOutside
    split
    all_goals try rfl
    · split <;> rfl
    · cases hc
    · split <;> rfl
  unfold start
  split
  · cases hi
  · split
    · rfl
    · exact hopen

theorem captures_stop {tag : Tag} (hi : tag.isImage = false) (hc : tag.isCode = false)
    (style : Style) : (r.stop style tag.toEnd).captures = r.captures := by
  have hclose : ∀ e, (r.closeOutside style e).captures = r.captures := by
    intro e
    unfold closeOutside
    split
    all_goals try rfl
    split <;> rfl
  unfold stop
  split
  · cases tag <;> simp_all [Tag.toEnd, Tag.isImage]
  · cases tag <;> simp_all [Tag.toEnd, Tag.isCode]
  · split
    · rfl
    · exact hclose _

/-- The start of what is no code block may be that of an image. -/
theorem HoldsImages.start (h : r.HoldsImages (opened.countP Tag.isImage)) {tag : Tag}
    (hc : tag.isCode = false) (style : Style) :
    (r.start style tag).HoldsImages ((tag :: opened).countP Tag.isImage) := by
  by_cases hi : tag.isImage = true
  · rw [List.countP_cons_of_pos hi]
    cases tag with
    | image destination title => exact h.capture _
    | _ => cases hi
  · rw [List.countP_cons_of_neg hi]
    exact h.congr (captures_start (Bool.eq_false_iff.2 hi) hc style)

/-- So may its end. -/
theorem HoldsImages.stop {tag : Tag} (h : r.HoldsImages ((tag :: opened).countP Tag.isImage))
    (hc : tag.isCode = false) (style : Style) :
    (r.stop style tag.toEnd).HoldsImages (opened.countP Tag.isImage) := by
  by_cases hi : tag.isImage = true
  · rw [List.countP_cons_of_pos hi] at h
    cases tag with
    | image destination title => exact h.closeImage style
    | _ => cases hi
  · rw [List.countP_cons_of_neg hi] at h
    exact h.congr (captures_stop (Bool.eq_false_iff.2 hi) hc style)

end Rendition

namespace Mirrors

/-- Something is collected exactly inside images. -/
theorem isCapturing_eq (h : r.HoldsImages (opened.countP Tag.isImage)) :
    r.isCapturing = inImage opened := by
  have hlength := h.length_eq
  unfold Rendition.isCapturing inImage
  rw [Bool.eq_iff_iff, Bool.not_eq_true', List.isEmpty_eq_false_iff, ← List.length_pos_iff, hlength,
    List.countP_pos_iff, List.any_eq_true]

/-- An event inside a code block adds to the block or ends it. -/
theorem event_code {info lang : Option String} {body : String}
    (hcode : ∀ tag ∈ opened, tag.isCode = false) (himage : inImage opened = false)
    (hr : r.captures = [.code lang body]) {e : Event}
    (hf : e.fits (.codeBlock info :: opened) = true) :
    Mirrors (openedAfter (.codeBlock info :: opened) e) (r.event { inline } e)
      ∧ r.spoken e ++ (r.event { inline } e).pending
          = r.pending ++ e.textIn (.codeBlock info :: opened) := by
  have hout : inImage (.codeBlock info :: opened) = false := himage
  have hpending : r.pending = body.toList := by simp [Rendition.pending, hr]
  cases e with
  | text text =>
    have hnew : (r.event { inline } (.text text)).captures = [.code lang (body ++ text)] := by
      simp [Rendition.event, Rendition.pushOr, hr, Capture.push]
    refine ⟨.code hcode himage hnew, ?_⟩
    rw [Rendition.pending, hnew, hpending, Event.textIn, hout]
    simp [Rendition.spoken, Rendition.isCapturing, hr]
  | stop tag =>
    obtain rfl : EndTag.codeBlock = tag := by simpa [Event.fits, Tag.toEnd] using hf
    have hnew : (r.event { inline } (.stop .codeBlock)).captures = [] := by
      simp [Rendition.event, Rendition.stop, Rendition.closeCode, hr, Rendition.put]
    have hnone : opened.countP Tag.isImage = 0 := by
      simpa [inImage, List.countP_eq_zero] using himage
    have hholds : (r.event { inline } (.stop .codeBlock)).HoldsImages
        (opened.countP Tag.isImage) := ⟨by simp [hnew], by simp [hnew, hnone]⟩
    refine ⟨.images hcode hholds, ?_⟩
    simp [hpending, hholds.pending_eq, Event.textIn, hout, Rendition.spoken, hr]
  | _ => cases hf

/-- An event outside code blocks. -/
theorem event_images (hcode : ∀ tag ∈ opened, tag.isCode = false)
    (h : r.HoldsImages (opened.countP Tag.isImage)) {e : Event} (hf : e.fits opened = true) :
    Mirrors (openedAfter opened e) (r.event { inline } e)
      ∧ r.spoken e ++ (r.event { inline } e).pending = r.pending ++ e.textIn opened := by
  have hcapturing := isCapturing_eq h
  -- as long as only images are captured, the text of the event is on the page at once
  have hpage : ∀ {r' : Rendition} {m : Nat}, r'.HoldsImages m → r.spoken e = e.textIn opened →
      r.spoken e ++ r'.pending = r.pending ++ e.textIn opened := by
    intro r' m hr' hst
    rw [hr'.pending_eq, h.pending_eq, List.append_nil, hst, List.nil_append]
  cases e with
  | text text | code text | softBreak =>
    have hholds := h.pushOr
    exact ⟨.images hcode (hholds _ _), hpage (hholds _ _)
      (by simp [Rendition.spoken, Event.textIn, hcapturing])⟩
  | hardBreak =>
    exact ⟨.images hcode (h.pushOr _ _), hpage (h.pushOr _ _)
      (by simp [Rendition.spoken, Event.textIn])⟩
  | rule =>
    exact ⟨.images hcode (h.congr rfl), hpage (h.congr rfl)
      (by simp [Rendition.spoken, Event.textIn])⟩
  | taskMarker checked =>
    have hout : inImage opened = false := by simp_all [Event.fits]
    exact ⟨.images hcode (h.congr rfl), hpage (h.congr rfl)
      (by simp [Rendition.spoken, Event.textIn, hout])⟩
  | start tag =>
    have htext : r.spoken (.start tag) = (Event.start tag).textIn opened := by
      simp [Rendition.spoken, Event.textIn]
    cases hc : tag.isCode with
    | true =>
      -- a code block stands in no image, so nothing else is captured
      cases tag with
      | codeBlock info =>
        have hout : inImage opened = false := by simp_all [Event.fits, Tag.isInline]
        have hnone : r.captures = [] := by
          simpa [Rendition.isCapturing, hout] using hcapturing
        have hnew : (r.event { inline } (.start (.codeBlock info))).captures
            = [.code (languageOf (info.getD "")) ""] := by
          simp [Rendition.event, Rendition.start, Rendition.openOutside, Rendition.capture,
            Rendition.isCapturing, hnone]
        refine ⟨.code hcode hout hnew, ?_⟩
        rw [htext, h.pending_eq, Rendition.pending, hnew]
        simp
      | _ => cases hc
    | false =>
      have hholds := h.start hc { inline }
      exact ⟨.images (List.forall_mem_cons.2 ⟨hc, hcode⟩) hholds, hpage hholds htext⟩
  | stop tag =>
    have htext : r.spoken (.stop tag) = (Event.stop tag).textIn opened := by
      rw [h.spoken_stop]
      simp [Event.textIn]
    cases opened with
    | nil => cases hf
    | cons first opened =>
      obtain rfl : first.toEnd = tag := by simpa [Event.fits] using hf
      obtain ⟨hc, hcode⟩ := List.forall_mem_cons.1 hcode
      have hholds := h.stop hc { inline }
      exact ⟨.images hcode hholds, hpage hholds htext⟩
  | html _ | inlineHtml _ | inlineMath _ | displayMath _ | footnoteReference _ => cases hf

/-- **An event that fits keeps the captures mirrored**, and its text goes to
the page or to what is pending. -/
theorem event (h : Mirrors opened r) {e : Event} (hf : e.fits opened = true) :
    Mirrors (openedAfter opened e) (r.event { inline } e)
      ∧ r.spoken e ++ (r.event { inline } e).pending = r.pending ++ e.textIn opened := by
  cases h with
  | code hcode himage hr => exact event_code hcode himage hr hf
  | images hcode himages => exact event_images hcode himages hf

/-- **A run of well-nested events** puts their text on the page, after what
was pending. -/
theorem spokenAll_eq (h : Mirrors opened r) {events : List Event}
    (hn : isWellNested opened events = true) :
    r.spokenAll { inline } events = r.pending ++ textOf opened events := by
  induction events generalizing opened r with
  | nil =>
    obtain rfl : opened = [] := by simpa [isWellNested] using hn
    cases h with
    | images _ himages => rw [himages.pending_eq]; rfl
  | cons e events ih =>
    obtain ⟨hf, hrest⟩ := (Bool.and_eq_true_iff.1 hn)
    obtain ⟨hnext, htext⟩ := h.event hf
    rw [Rendition.spokenAll, ih hnext hrest, textOf, ← List.append_assoc, htext, List.append_assoc]

end Mirrors

/-- Events that fit copy no markup. -/
theorem not_isMarkup_of_isWellNested {events : List Event}
    (hn : isWellNested opened events = true) : ∀ e ∈ events, ¬ e.IsMarkup := by
  induction events generalizing opened with
  | nil => nofun
  | cons e events ih =>
    obtain ⟨hf, hrest⟩ := (Bool.and_eq_true_iff.1 hn)
    refine List.forall_mem_cons.2 ⟨fun hm => ?_, ih hrest⟩
    cases e with
    | html _ | inlineHtml _ => cases hf
    | _ => cases hm

/-- **No text is lost, doubled or moved.** What is written of well-nested
events is read without fault, and the text of the page, with its references
decoded, is the text of the events. -/
theorem textContent_document (inline : Bool) (table : TableState) {events : List Event}
    (hv : ∀ e ∈ events, e.IsValid) (hn : isWellNested [] events = true) :
    let r := readFragment (Rendition.document { inline } { table } events).1
    (∃ ids, r.nodes = .ok ids) ∧
      decodeReferences (r.tree.textContent 0) = String.ofList (textOf [] events) := by
  intro r
  have hstart : Mirrors [] { table } := .images nofun ⟨nofun, rfl⟩
  obtain ⟨cs, hparse, -, htext⟩ := Rendition.exists_contents_document inline table hv
    (not_isMarkup_of_isWellNested hn)
  have hread := readFragment_eq (Rendition.document { inline } { table } events).1
  rw [hparse] at hread
  obtain ⟨hok, hwf, hsize, hshows⟩ := hread
  refine ⟨hok, String.toList_injective ?_⟩
  rw [toList_decodeReferences, hwf.textContent_eq hsize hshows, Content.toList_textContent,
    Content.characters_node, htext, hstart.spokenAll_eq hn, String.toList_ofList]
  exact decodeChars_escapeChars _

/-- A reference that two texts seem to make, a code block, and an image with
a title inside a link. -/
theorem textContent_document_pieces :
    let events : List Event := [.start .paragraph, .text "1 &", .softBreak, .text "amp; 2",
      .start (.link "a.md" ""), .start (.image "b" "<c>"), .text "d", .stop .image, .code "<e>",
      .stop .link, .stop .paragraph, .start (.codeBlock (some "f")), .text "g\n", .text "h",
      .stop .codeBlock]
    let r := readFragment (Rendition.document {} {} events).1
    (∀ e ∈ events, e.IsValid) ∧ isWellNested [] events = true ∧ (∃ ids, r.nodes = .ok ids) ∧
      decodeReferences (r.tree.textContent 0) = "1 &\namp; 2<e>g\nh" :=
  ⟨by decide, by decide, textContent_document false {} (by decide) (by decide)⟩

end PageSlots.Markdown
