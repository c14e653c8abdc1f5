import PageSlots.Proofs.Markdown.Nesting

/-!
# Starts and ends

What becomes of a start or an end depends on whether something is being
collected. Images and code blocks are collected; their starts and ends have
rules of their own. All the other ones are dropped while something is
collected (`Rendition.start_of_isCapturing`), and are written else
(`Rendition.start_outside`). So where nothing is collected, a pair of tags
writes before and after what it encloses
(`Rendition.foldl_surround_outside`).
-/

namespace PageSlots.Markdown

/-- Whether a tag is that of an image or a code block, whose content is
collected. -/
def Tag.isCollected (tag : Tag) : Bool :=
  tag.isImage || tag.isCode

namespace Rendition

variable {style : Style} {r r' : Rendition} {tag : Tag} {inside : List Event}

theorem isCapturing_eq_false (hr : r.captures = []) : r.isCapturing = false := by
  rw [isCapturing, hr, List.isEmpty_nil, Bool.not_true]

/-- Text is written where nothing is being collected. -/
theorem pushOr_outside (hr : r.captures = []) (text written : String) :
    r.pushOr text written = r.put written := by
  rw [pushOr, hr]

theorem start_of_not_image (ht : tag.isImage = false) :
    r.start style tag = if r.isCapturing then r else r.openOutside style tag := by
  unfold start
  split
  · cases ht
  · rfl

theorem stop_of_not_collected (ht : tag.isCollected = false) :
    r.stop style tag.toEnd = if r.isCapturing then r else r.closeOutside style tag.toEnd := by
  cases tag with
  | image _ _ | codeBlock _ => cases ht
  | _ => rfl

/-- **Where something is collected, tags are dropped.** -/
theorem start_of_isCapturing (hr : r.isCapturing = true) (ht : tag.isImage = false) :
    r.start style tag = r :=
  (start_of_not_image ht).trans (if_pos hr)

theorem stop_of_isCapturing (hr : r.isCapturing = true) (ht : tag.isCollected = false) :
    r.stop style tag.toEnd = r :=
  (stop_of_not_collected ht).trans (if_pos hr)

/-- **Where nothing is collected, they are written.** -/
theorem start_outside (hr : r.captures = []) (ht : tag.isImage = false) :
    r.start style tag = r.openOutside style tag :=
  (start_of_not_image ht).trans (if_neg (Bool.eq_false_iff.1 (isCapturing_eq_false hr)))

theorem stop_outside (hr : r.captures = []) (ht : tag.isCollected = false) :
    r.stop style tag.toEnd = r.closeOutside style tag.toEnd :=
  (stop_of_not_collected ht).trans (if_neg (Bool.eq_false_iff.1 (isCapturing_eq_false hr)))

/-- A start, what it encloses and its end come one after the other. -/
theorem foldl_surround (style : Style) (r : Rendition) (tag : Tag) (inside : List Event) :
    (surround tag inside).foldl (event style) r
      = stop style (inside.foldl (event style) (r.start style tag)) tag.toEnd := by
  rw [surround, List.foldl_append, List.foldl_cons]
  rfl

/-- So a tag is written before and after what it encloses, if that leaves
nothing to be collected. -/
theorem foldl_surround_outside (hr : r.captures = []) (ht : tag.isCollected = false)
    (hinside : inside.foldl (event style) (r.openOutside style tag) = r') (hr' : r'.captures = []) :
    (surround tag inside).foldl (event style) r = r'.closeOutside style tag.toEnd := by
  rw [foldl_surround, start_outside hr (Bool.or_eq_false_iff.1 ht).1, hinside, stop_outside hr' ht]

end Rendition

end PageSlots.Markdown
