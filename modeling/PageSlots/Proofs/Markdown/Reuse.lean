import PageSlots.Proofs.Markdown.Captures

/-!
# Documents one after the other

What writes documents one after the other remembers a table from one to
the next, and it may remember any: the document before may have left off in
the middle of one. Still nothing of it is seen in a nested document whose
heads, rows and cells stand in tables of its own
(`Rendition.documents_append_singleton`).

The two runs that this is about – after other documents, and by itself –
differ in the table that is remembered, until a table of the document
starts. A table starts only where nothing is being collected, and what is
collected may be less than what is open: in an image the end of a code
block drops the image. So along the runs it is said that no more is
collected than is open, and that the tables are the same in a table that
stands in no image and no code block (`Rendition.Alike`). One event of a
nested document keeps that (`Rendition.Alike.event`), since only heads,
rows and cells look at the table.
-/

namespace PageSlots.Markdown

/-! ## Tables of a document -/

/-- Whether a tag is that of a table. -/
def Tag.isTable : Tag → Bool
  | .table _ => true
  | _ => false

/-- **Whether an event starts or ends a head, a row or a cell.** -/
def Event.isTablePart : Event → Bool
  | .start .tableHead | .start .tableRow | .start .tableCell
  | .stop .tableHead | .stop .tableRow | .stop .tableCell => true
  | _ => false

/-- **Whether some open tags, innermost first, are inside a table** that is
in no image and no code block. -/
def inOwnTable : List Tag → Bool
  | [] => false
  | tag :: outer => tag.isTable && !outer.any Tag.isCollected || inOwnTable outer

/-- **Whether heads, rows and cells are parts of tables** that are in no
image and no code block. -/
def tablesAreOwn (opened : List Tag) : List Event → Bool
  | [] => true
  | e :: events =>
    (!e.isTablePart || inOwnTable opened) && tablesAreOwn (openedAfter opened e) events

namespace Rendition

variable {style : Style} {r r' : Rendition} {opened : List Tag} {e : Event}

/-- **Renditions that differ in the table at most.** -/
structure Agrees (r r' : Rendition) : Prop where
  /-- The same has been written. -/
  output_eq : r.output = r'.output
  /-- The same is being collected. -/
  captures_eq : r.captures = r'.captures

theorem Agrees.ite {p : Prop} [Decidable p] {a a' b b' : Rendition} (h : Agrees a a')
    (h' : Agrees b b') : Agrees (if p then a else b) (if p then a' else b') := by
  split
  · exact h
  · exact h'

theorem Agrees.openOutside (style : Style) {tag : Tag} (h : Agrees r r')
    (ht : (Event.start tag).isTablePart = false) :
    Agrees (r.openOutside style tag) (r'.openOutside style tag) := by
  obtain ⟨output, captures, table⟩ := r
  obtain ⟨output', captures', table'⟩ := r'
  obtain ⟨rfl, rfl⟩ := h
  cases tag with
  | paragraph => exact .ite ⟨rfl, rfl⟩ ⟨rfl, rfl⟩
  | list start =>
    cases start with
    | none => exact ⟨rfl, rfl⟩
    | some start => exact .ite ⟨rfl, rfl⟩ ⟨rfl, rfl⟩
  | tableHead | tableRow | tableCell => cases ht
  | _ => exact ⟨rfl, rfl⟩

theorem Agrees.closeOutside (style : Style) {tag : EndTag} (h : Agrees r r')
    (ht : (Event.stop tag).isTablePart = false) :
    Agrees (r.closeOutside style tag) (r'.closeOutside style tag) := by
  obtain ⟨output, captures, table⟩ := r
  obtain ⟨output', captures', table'⟩ := r'
  obtain ⟨rfl, rfl⟩ := h
  cases tag with
  | paragraph => exact .ite ⟨rfl, rfl⟩ ⟨rfl, rfl⟩
  | list ordered => cases ordered <;> exact ⟨rfl, rfl⟩
  | tableHead | tableRow | tableCell => cases ht
  | _ => exact ⟨rfl, rfl⟩

/-- **Only heads, rows and cells look at the table.** -/
theorem Agrees.event (h : Agrees r r') (he : e.isTablePart = false) :
    Agrees (r.event style e) (r'.event style e) := by
  have hwritten := h
  obtain ⟨output, captures, table⟩ := r
  obtain ⟨output', captures', table'⟩ := r'
  obtain ⟨rfl, rfl⟩ := h
  cases e with
  | start tag =>
    have houtside := hwritten.openOutside style he
    cases tag with
    | image destination title => exact ⟨rfl, rfl⟩
    | _ => exact .ite ⟨rfl, rfl⟩ houtside
  | stop tag =>
    have houtside := hwritten.closeOutside style he
    cases tag with
    | image | codeBlock =>
      -- these look at what is collected innermost, and at whether it stands inside something else
      rcases captures with _ | ⟨⟨lang, body⟩ | i, _ | ⟨capture, outer⟩⟩ <;> exact ⟨rfl, rfl⟩
    | _ => exact .ite ⟨rfl, rfl⟩ houtside
  | text _ | code _ | softBreak | hardBreak => cases captures <;> exact ⟨rfl, rfl⟩
  | html _ | inlineHtml _ => exact .ite ⟨rfl, rfl⟩ ⟨rfl, rfl⟩
  | rule | taskMarker _ | inlineMath _ | displayMath _ | footnoteReference _ => exact ⟨rfl, rfl⟩

/-! ## What is collected -/

/-- An end drops at most what is collected innermost. -/
theorem length_captures_stop_le {tag : Tag} (ht : tag.isCollected = true) :
    (r.stop style tag.toEnd).captures.length ≤ r.captures.length - 1 := by
  obtain ⟨output, captures, table⟩ := r
  cases tag with
  | image _ _ | codeBlock _ =>
    rcases captures with _ | ⟨⟨lang, body⟩ | i, _ | ⟨capture, outer⟩⟩ <;> exact Nat.le_refl _
  | _ => cases ht

/-- A start begins to collect at most once. -/
theorem length_captures_start_le {tag : Tag} (ht : tag.isCollected = true) :
    (r.start style tag).captures.length ≤ r.captures.length + 1 := by
  obtain ⟨output, captures, table⟩ := r
  cases tag with
  | image _ _ => exact Nat.le_refl _
  | codeBlock _ =>
    cases captures with
    | nil => exact Nat.le_refl _
    | cons capture outer => exact Nat.le_succ _
  | _ => cases ht

theorem captures_single {e : Event} (hs : e.isSingle = true) :
    (r.event style e).captures.length = r.captures.length := by
  obtain ⟨output, captures, table⟩ := r
  cases e with
  | start _ | stop _ => cases hs
  | _ => cases captures <;> rfl

/-- **No more is collected than is open**, along nested events. -/
theorem length_captures_event_le (style : Style)
    (h : r.captures.length ≤ opened.countP Tag.isCollected)
    (hc : e.closesInnermost opened = true) :
    (r.event style e).captures.length ≤ (openedAfter opened e).countP Tag.isCollected := by
  cases e with
  | start tag =>
    show (r.start style tag).captures.length ≤ (tag :: opened).countP Tag.isCollected
    cases ht : tag.isCollected with
    | true =>
      rw [List.countP_cons_of_pos ht]
      exact (length_captures_start_le ht).trans (Nat.succ_le_succ h)
    | false =>
      obtain ⟨hi, hcode⟩ := Bool.or_eq_false_iff.1 ht
      rw [List.countP_cons_of_neg (Bool.eq_false_iff.1 ht), captures_start hi hcode]
      exact h
  | stop tag =>
    obtain ⟨first, outer, rfl, rfl⟩ := exists_of_closesInnermost hc
    show (r.stop style first.toEnd).captures.length ≤ outer.countP Tag.isCollected
    cases ht : first.isCollected with
    | true =>
      rw [List.countP_cons_of_pos ht] at h
      exact (length_captures_stop_le ht).trans (Nat.sub_le_of_le_add h)
    | false =>
      obtain ⟨hi, hcode⟩ := Bool.or_eq_false_iff.1 ht
      rw [List.countP_cons_of_neg (Bool.eq_false_iff.1 ht)] at h
      rw [captures_stop hi hcode]
      exact h
  | _ =>
    rw [captures_single (by rfl)]
    exact h

/-! ## Two runs -/

/-- **Renditions that go on alike** inside some open tags. -/
structure Alike (opened : List Tag) (r r' : Rendition) : Prop extends Agrees r r' where
  /-- The tables are the same where they are looked at. -/
  table_eq : inOwnTable opened = true → r.table = r'.table
  /-- No more is collected than is open. -/
  length_le : r.captures.length ≤ opened.countP Tag.isCollected

theorem inOwnTable_cons {tag : Tag} :
    inOwnTable (tag :: opened) = true ↔
      tag.isTable = true ∧ opened.any Tag.isCollected = false ∨ inOwnTable opened = true := by
  rw [inOwnTable, Bool.or_eq_true, Bool.and_eq_true, Bool.not_eq_true']

/-- **One event keeps that**: inside a table the renditions are the same,
and outside only the start of a table leads into one. -/
theorem Alike.event (h : Alike opened r r') (hc : e.closesInnermost opened = true)
    (ht : (!e.isTablePart || inOwnTable opened) = true) :
    Alike (openedAfter opened e) (r.event style e) (r'.event style e) := by
  have hlength := length_captures_event_le style h.length_le hc
  cases hown : inOwnTable opened with
  | true =>
    have hsame : r = r' := by
      obtain ⟨⟨houtput, hcaptures⟩, htable, -⟩ := h
      obtain ⟨output, captures, table⟩ := r
      obtain ⟨output', captures', table'⟩ := r'
      exact congr (congrArg₂ Rendition.mk houtput hcaptures) (htable hown)
    exact ⟨hsame ▸ ⟨rfl, rfl⟩, fun _ => hsame ▸ rfl, hlength⟩
  | false =>
    have hpart : e.isTablePart = false := by simpa [hown] using ht
    refine ⟨h.toAgrees.event hpart, fun hin => ?_, hlength⟩
    cases e with
    | start tag =>
      obtain ⟨htag, houter⟩ : tag.isTable = true ∧ opened.any Tag.isCollected = false :=
        (inOwnTable_cons.1 hin).resolve_right (Bool.eq_false_iff.1 hown)
      cases tag with
      | table alignments =>
        -- nothing is collected, so both renditions forget their tables
        have hnone : opened.countP Tag.isCollected = 0 := by
          simpa [List.countP_eq_zero] using houter
        have hcaptures : r.captures = [] :=
          List.eq_nil_of_length_eq_zero (Nat.le_zero.1 (hnone ▸ h.length_le))
        have hstart : ∀ s : Rendition, s.captures = [] →
            (s.start style (.table alignments)).table = { alignments } := fun s hs => by
          rw [start_outside hs rfl]
          rfl
        exact (hstart r hcaptures).trans (hstart r' (h.captures_eq ▸ hcaptures)).symm
      | _ => cases htag
    | stop tag =>
      obtain ⟨first, outer, rfl, -⟩ := exists_of_closesInnermost hc
      exact absurd (inOwnTable_cons.2 (.inr hin)) (Bool.eq_false_iff.1 hown)
    | _ => exact absurd hin (Bool.eq_false_iff.1 hown)

/-- So a run keeps it. -/
theorem Alike.foldl_event {events : List Event} (h : Alike opened r r')
    (hn : isNested opened events = true) (ht : tablesAreOwn opened events = true) :
    (events.foldl (Rendition.event style) r).output
      = (events.foldl (Rendition.event style) r').output := by
  induction events generalizing opened r r' with
  | nil => exact h.output_eq
  | cons e events ih =>
    obtain ⟨hcloses, hnested⟩ := isNested_cons.1 hn
    obtain ⟨hpart, hown⟩ := Bool.and_eq_true_iff.1 ht
    exact ih (h.event hcloses hpart) hnested hown

/-! ## Documents -/

/-- What is remembered of an earlier document is not seen in a nested one
with its own tables. -/
theorem document_eq_writeEvents (style : Style) (table : TableState) {events : List Event}
    (hn : isNested [] events = true) (ht : tablesAreOwn [] events = true) :
    (document style { table } events).1 = writeEvents style events :=
  Alike.foldl_event ⟨⟨rfl, rfl⟩, fun h => Bool.noConfusion h, Nat.le_refl _⟩ hn ht

/-- **Earlier documents are not seen.** Whatever was written before, nested
or not, a nested document whose heads, rows and cells stand in tables of
its own is written as by itself. -/
theorem documents_append_singleton (style : Style) (table : TableState)
    (earlier : List (List Event)) {events : List Event}
    (hn : isNested [] events = true) (ht : tablesAreOwn [] events = true) :
    documents style { table } (earlier ++ [events])
      = documents style { table } earlier ++ [writeEvents style events] := by
  induction earlier generalizing table with
  | nil => exact congrArg ([·]) (document_eq_writeEvents style table hn ht)
  | cons first earlier ih =>
    show _ :: _ = _ :: _
    exact congrArg (_ :: ·) (ih (document style { table } first).2.table)

/-- An image and a table that never end, and the end of a code block that
has not begun, before a table with an image in its head. -/
theorem documents_append_singleton_unclosed :
    let earlier : List (List Event) := [[.start (.image "a.png" ""), .start (.codeBlock none)],
      [.start (.table [.left]), .start .tableHead, .start .tableCell], [.stop .codeBlock]]
    let events : List Event := surround (.table [.right]) (surround .tableHead
      (surround .tableCell (surround (.image "b.png" "") [.text "b"])))
    isNested [] events = true ∧ tablesAreOwn [] events = true ∧
      documents {} { table := {} } (earlier ++ [events])
        = documents {} { table := {} } earlier ++ [writeEvents {} events] :=
  ⟨by decide, by decide, documents_append_singleton {} {} _ (by decide) (by decide)⟩

end Rendition

end PageSlots.Markdown
