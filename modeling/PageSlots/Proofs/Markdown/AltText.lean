import PageSlots.Proofs.Markdown.Captures

/-!
# The text that stands for an image

What stands in an image becomes the text that stands for it: its texts and
its code in their order, with a line break for each break of a line, and
nothing of its tags and its markup (`altTextOf`). Images stand in images,
and each is collected by itself, so this is a statement about a stack. It
is told for a stretch in front of which some image is being collected,
whatever lies below: the stretch makes the text of that image longer and
leaves the rest as it is (`foldl_eventsOf_capture`). An image inside begins
with no text and gives what it has collected to the one around it when it
ends, which is the case that carries the induction.

Where nothing is being collected, an image is written by the backend, once,
when it ends (`foldl_surround_image`).
-/

namespace PageSlots.Markdown

open Stretch

/-- Whether an end is that of a stretch inside a line. -/
def EndTag.isInline : EndTag → Bool
  | .emphasis | .strong | .strikethrough | .superscript | .subscript | .link | .image => true
  | _ => false

/-- **Whether an event may stand inside a line**: it is the start or the end
of no block, and neither a rule nor a task. -/
def Event.isInline : Event → Bool
  | .start tag => tag.isInline
  | .stop tag => tag.isInline
  | .rule | .taskMarker _ => false
  | _ => true

/-- **What may stand inside a line**: nested events, each of which may. -/
structure IsLine (events : List Event) : Prop where
  /-- The events are nested. -/
  isNested : isNested [] events = true
  /-- Each may stand inside a line. -/
  isInline : ∀ e ∈ events, e.isInline = true

/-- **What an event adds to the text that stands for an image.** -/
def Event.altText : Event → String
  | .text s | .code s => s
  | .softBreak | .hardBreak => "\n"
  | _ => ""

/-- **The text of events that stands for an image**: what each of them adds,
in their order. -/
def altTextOf (events : List Event) : String :=
  String.join (events.map Event.altText)

@[simp] theorem altTextOf_nil : altTextOf [] = "" := rfl

theorem altTextOf_append (events events' : List Event) :
    altTextOf (events ++ events') = altTextOf events ++ altTextOf events' :=
  String.toList_injective (by simp [altTextOf, String.toList_join])

@[simp] theorem altTextOf_singleton (e : Event) : altTextOf [e] = e.altText :=
  String.toList_injective (by simp [altTextOf])

/-- A start and its end add nothing to what stands between them. -/
theorem altTextOf_surround (tag : Tag) (inside : List Event) :
    altTextOf (surround tag inside) = altTextOf inside := by
  have hcons : surround tag inside = [.start tag] ++ inside ++ [.stop tag.toEnd] := rfl
  rw [hcons, altTextOf_append, altTextOf_append, altTextOf_singleton, altTextOf_singleton]
  simp [Event.altText]

variable {inside : List Event} {stretches : List Stretch}

namespace Rendition

variable {r : Rendition} {style : Style} {tag : Tag}

theorem start_image (style : Style) (r : Rendition) (destination title : String) :
    r.start style (.image destination title) = r.capture (.image ⟨destination, title, ""⟩) := rfl

theorem exists_of_isImage (h : tag.isImage = true) :
    ∃ destination title, tag = .image destination title := by
  cases tag with
  | image destination title => exact ⟨destination, title, rfl⟩
  | _ => cases h

/-- Of what stands inside a line, only images are collected. -/
theorem isCollected_of_isInline (h : tag.isInline = true) : tag.isCollected = tag.isImage := by
  cases tag <;> first | rfl | cases h

/-- **What stands in an image makes its text longer**, and changes nothing
else. -/
theorem foldl_eventsOf_capture (style : Style)
    (hs : ∀ e ∈ eventsOf stretches, e.isInline = true) (r : Rendition) (i : Image) :
    (eventsOf stretches).foldl (event style) (r.capture (.image i))
      = r.capture (.image { i with alt := i.alt ++ altTextOf (eventsOf stretches) }) := by
  induction stretches using Stretch.induct generalizing r i with
  | nil =>
    rw [eventsOf_nil, altTextOf_nil, String.append_empty]
    rfl
  | single e h rest ih =>
    obtain ⟨hfirst, hrest⟩ := forall_mem_eventsOf_cons.1 hs
    have he : e.isInline = true := hfirst e List.mem_cons_self
    have hstep : (r.capture (.image i)).event style e
        = r.capture (.image { i with alt := i.alt ++ e.altText }) := by
      cases e with
      | text _ | code _ | softBreak | hardBreak => rfl
      | html _ | inlineHtml _ | inlineMath _ | displayMath _ | footnoteReference _ =>
        show r.capture (.image i) = r.capture (.image { i with alt := i.alt ++ "" })
        rw [String.append_empty]
      | rule | taskMarker _ => cases he
      | start _ | stop _ => cases h
    rw [eventsOf_cons, events_single, List.foldl_append, List.foldl_cons, List.foldl_nil, hstep,
      ih hrest, altTextOf_append, altTextOf_singleton, String.append_assoc]
  | around tag inside rest ihinside ih =>
    obtain ⟨hfirst, hrest⟩ := forall_mem_eventsOf_cons.1 hs
    obtain ⟨htag, hinside, -⟩ := forall_mem_surround.1 hfirst
    have hpair : (surround tag (eventsOf inside)).foldl (event style) (r.capture (.image i))
        = r.capture (.image { i with alt := i.alt ++ altTextOf (eventsOf inside) }) := by
      rw [foldl_surround]
      cases himage : tag.isImage with
      | true =>
        -- the image inside begins with no text, and ends as text of the one around it
        obtain ⟨destination, title, rfl⟩ := exists_of_isImage himage
        rw [start_image, ihinside hinside, String.empty_append]
        rfl
      | false =>
        rw [start_of_isCapturing rfl himage, ihinside hinside,
          stop_of_isCapturing rfl ((isCollected_of_isInline htag).trans himage)]
    rw [eventsOf_cons, events_around, List.foldl_append, hpair, ih hrest, altTextOf_append,
      altTextOf_surround, String.append_assoc]

/-- An image around stretches, met while nothing is being collected, is
written by the backend. -/
theorem foldl_image (style : Style) (hr : r.captures = [])
    (hs : ∀ e ∈ eventsOf stretches, e.isInline = true) (destination title : String) :
    (surround (.image destination title) (eventsOf stretches)).foldl (event style) r
      = r.put (style.backend.image ⟨destination, title, altTextOf (eventsOf stretches)⟩) := by
  rw [foldl_surround, start_image, foldl_eventsOf_capture style hs, String.empty_append]
  exact pushOr_outside hr _ _

/-- **An image is written once, when it ends.** Its events, met while
nothing is being collected, write what the backend makes of the image, and
change nothing else. The image has the destination and the title of its
start, and for its text what stands in it at any depth. -/
theorem foldl_surround_image (style : Style) (hr : r.captures = []) (destination title : String)
    (h : IsLine inside) :
    (surround (.image destination title) inside).foldl (event style) r
      = r.put (style.backend.image ⟨destination, title, altTextOf inside⟩) := by
  obtain ⟨stretches, rfl⟩ := isNested_iff.1 h.isNested
  exact foldl_image style hr h.isInline destination title

/-- An image inside another one, with a link around code and a line break. -/
theorem foldl_surround_image_nested :
    let inside : List Event := [.text "a ", .start (.link "b.md" ""), .code "b", .stop .link,
      .start (.image "c.png" "c"), .inlineHtml "<i>", .text "d", .hardBreak, .stop .image]
    IsLine inside ∧ altTextOf inside = "a bd\n"
      ∧ (surround (.image "e.png" "e") inside).foldl (event {}) { output := "<p>" }
        = put { output := "<p>" } (Backend.html.image ⟨"e.png", "e", altTextOf inside⟩) := by
  intro inside
  have hinside : IsLine inside := ⟨by decide, by decide⟩
  exact ⟨hinside, by decide +kernel, foldl_surround_image {} rfl "e.png" "e" hinside⟩

end Rendition

end PageSlots.Markdown
