import PageSlots.Proofs.Markdown.AltText

/-!
# The columns of a table

The cells of a row are written by their place in it: the cell in a column
has the alignment of that column, and the cells of the head have another
tag than those of the rows (`Rendition.foldl_tableEvents`).

Which column comes next is counted while the row is written, and whether
the row is the head is remembered from its start to its end. So what is
proved of events is what they write in a table, and which table they leave
(`Rendition.Puts`). What stands in a cell touches neither the column nor
the head: events inside a line write one and the same text in every table
(`Rendition.puts_of_isLine`). So a cell counts one column
(`Rendition.puts_cell`), a row counts from the first one
(`Rendition.puts_row`), and what was counted before the table is forgotten
at its start.
-/

namespace PageSlots.Markdown

open PageSlots.Markup Stretch

/-! ## What is written -/

/-- The word for an alignment, if it has one. -/
def Alignment.word? : Alignment → Option String
  | .none => Option.none
  | .left => some "left"
  | .center => some "center"
  | .right => some "right"

/-- **The style of a cell** in a column with an alignment. A column beyond
the last one has none. -/
def columnStyle (alignment : Option Alignment) : String :=
  match alignment.bind Alignment.word? with
  | some word => " style=\"text-align:" ++ word ++ "\""
  | none => ""

/-- **A cell**: what stands in it, inside its tag with the style of the
column. -/
def cellText (style : Style) (tag : String) (alignment : Option Alignment) (cell : List Event) :
    String :=
  "<" ++ tag ++ columnStyle alignment ++ ">" ++ writeEvents style cell ++ "</" ++ tag ++ ">"

/-- **The cells of a row**, from a column on. -/
def cellsText (style : Style) (tag : String) (alignments : List Alignment) (column : Nat)
    (cells : List (List Event)) : String :=
  String.join (cells.mapIdx fun k cell => cellText style tag alignments[column + k]? cell)

/-- A row of the body. -/
def rowText (style : Style) (alignments : List Alignment) (row : List (List Event)) : String :=
  "<tr>" ++ cellsText style "td" alignments 0 row ++ "</tr>"

/-- The head, with the start of the body. -/
def headText (style : Style) (alignments : List Alignment) (head : List (List Event)) : String :=
  "<thead><tr>" ++ cellsText style "th" alignments 0 head ++ "</tr></thead><tbody>"

/-- **A table**: its head, and its rows in one body. -/
def tableText (style : Style) (alignments : List Alignment) (head : List (List Event))
    (rows : List (List (List Event))) : String :=
  "<table>" ++ (headText style alignments head ++ String.join (rows.map (rowText style alignments)))
    ++ "</tbody></table>"

/-- The events of cells. -/
def cellEvents (cells : List (List Event)) : List Event :=
  cells.flatMap (surround .tableCell)

/-- **The events of a table**: a head and rows, made of cells. -/
def tableEvents (alignments : List Alignment) (head : List (List Event))
    (rows : List (List (List Event))) : List Event :=
  surround (.table alignments) (surround .tableHead (cellEvents head) ++
    rows.flatMap fun row => surround .tableRow (cellEvents row))

theorem cellsText_cons (style : Style) (tag : String) (alignments : List Alignment) (column : Nat)
    (cell : List Event) (cells : List (List Event)) :
    cellsText style tag alignments column (cell :: cells)
      = cellText style tag alignments[column]? cell
        ++ cellsText style tag alignments (column + 1) cells := by
  unfold cellsText
  rw [List.mapIdx_cons, String.join_cons, Nat.add_zero]
  simp only [Nat.add_assoc, Nat.add_comm 1]

theorem openCell_eq (table : TableState) :
    table.openCell
      = "<" ++ table.cellTag ++ columnStyle table.alignments[table.column]? ++ ">" := by
  have hstyle : (table.alignments.getD table.column .none).styleAttribute
      = columnStyle table.alignments[table.column]? := by
    rw [List.getD_eq_getElem?_getD]
    cases table.alignments[table.column]? with
    | none => rfl
    | some alignment => cases alignment <;> rfl
  rw [TableState.openCell, hstyle]

namespace Rendition

/-! ## Events that write one text -/

/-- **Events that write a text** in a table, leave another one to be
remembered, and do nothing else, wherever nothing is being collected. -/
def Puts (style : Style) (events : List Event) (table : TableState) (text : String)
    (table' : TableState) : Prop :=
  ∀ output, events.foldl (event style) ⟨output, [], table⟩ = ⟨output ++ text, [], table'⟩

section Puts

variable {style : Style} {events events' : List Event} {table table' table'' last : TableState}
variable {text text' opening closing : String} {tag : Tag}

theorem Puts.nil : Puts style [] table "" table := by
  intro output
  rw [String.append_empty]
  rfl

theorem Puts.append (h : Puts style events table text table')
    (h' : Puts style events' table' text' table'') :
    Puts style (events ++ events') table (text ++ text') table'' := by
  intro output
  rw [List.foldl_append, h output, h' (output ++ text), String.append_assoc]

/-- A tag writes before and after what it encloses. -/
theorem Puts.surround (ht : tag.isCollected = false)
    (hopen : ∀ output, openOutside style ⟨output, [], table⟩ tag = ⟨output ++ opening, [], table'⟩)
    (h : Puts style events table' text table'')
    (hclose : ∀ output,
      closeOutside style ⟨output, [], table''⟩ tag.toEnd = ⟨output ++ closing, [], last⟩) :
    Puts style (Markdown.surround tag events) table (opening ++ text ++ closing) last := by
  intro output
  have hinside := h (output ++ opening)
  rw [← hopen output] at hinside
  rw [foldl_surround_outside rfl ht hinside rfl, hclose, String.append_assoc,
    String.append_assoc, String.append_assoc]

/-! ## Events inside a line -/

/-- A single event inside a line writes a text that does not depend on the
table. -/
theorem exists_puts_single (style : Style) {e : Event} (hs : e.isSingle = true)
    (hi : e.isInline = true) : ∃ text, ∀ table, Puts style [e] table text table := by
  cases e with
  | text s => exact ⟨escape s, fun table output => rfl⟩
  | code s => exact ⟨"<code>" ++ escape s ++ "</code>", fun table output => rfl⟩
  | softBreak => exact ⟨"\n", fun table output => rfl⟩
  | hardBreak => exact ⟨"<br>", fun table output => rfl⟩
  | html s | inlineHtml s => exact ⟨s, fun table output => rfl⟩
  | inlineMath _ | displayMath _ | footnoteReference _ =>
    exact ⟨"", fun table output => congrArg (Rendition.mk · [] table) String.append_empty.symm⟩
  | rule | taskMarker _ => cases hi
  | start _ | stop _ => cases hs

/-- Nor does what a pair of tags inside a line writes. -/
theorem exists_puts_surround {inside : List Stretch} (ht : tag.isInline = true)
    (hs : ∀ e ∈ eventsOf inside, e.isInline = true)
    (h : ∀ table, Puts style (eventsOf inside) table text table) :
    ∃ text, ∀ table, Puts style (Markdown.surround tag (eventsOf inside)) table text table := by
  cases tag with
  | image destination title =>
    exact ⟨_, fun table output => foldl_image style rfl hs destination title⟩
  | emphasis | strong | strikethrough | superscript | subscript | link _ _ =>
    exact ⟨_, fun table => .surround rfl (fun output => rfl) (h table) fun output => rfl⟩
  | _ => cases ht

/-- **Nested events inside a line write one text**, in whatever table. -/
theorem exists_puts (style : Style) {stretches : List Stretch}
    (hs : ∀ e ∈ eventsOf stretches, e.isInline = true) :
    ∃ text, ∀ table, Puts style (eventsOf stretches) table text table := by
  induction stretches using Stretch.induct with
  | nil => exact ⟨"", fun table => .nil⟩
  | single e h rest ih =>
    obtain ⟨hfirst, hrest⟩ := forall_mem_eventsOf_cons.1 hs
    obtain ⟨text, htext⟩ := exists_puts_single style h (hfirst e List.mem_cons_self)
    obtain ⟨behind, hbehind⟩ := ih hrest
    exact ⟨_, fun table => (htext table).append (hbehind table)⟩
  | around tag inside rest ihinside ih =>
    obtain ⟨hfirst, hrest⟩ := forall_mem_eventsOf_cons.1 hs
    obtain ⟨htag, hinside, -⟩ := forall_mem_surround.1 hfirst
    obtain ⟨between, hbetween⟩ := ihinside hinside
    obtain ⟨text, htext⟩ := exists_puts_surround htag hinside hbetween
    obtain ⟨behind, hbehind⟩ := ih hrest
    exact ⟨_, fun table => (htext table).append (hbehind table)⟩

/-- **What is inside a line writes the same as by itself.** -/
theorem puts_of_isLine (h : IsLine events) (table : TableState) :
    Puts style events table (writeEvents style events) table := by
  obtain ⟨stretches, rfl⟩ := isNested_iff.1 h.isNested
  obtain ⟨text, htext⟩ := exists_puts style h.isInline
  have hself : writeEvents style (eventsOf stretches) = text := by
    rw [writeEvents, document, htext {} ""]
    exact String.empty_append
  rw [hself]
  exact htext table

/-! ## Cells, rows and tables -/

variable {alignments : List Alignment} {column : Nat}

/-- **A cell** is written for the next column, and counts it. -/
theorem puts_cell (style : Style) (h : IsLine events) (table : TableState) :
    Puts style (surround .tableCell events) table
      (cellText style table.cellTag table.alignments[table.column]? events)
      { table with column := table.column + 1 } := by
  have htext : cellText style table.cellTag table.alignments[table.column]? events
      = table.openCell ++ writeEvents style events ++ table.closeCell := by
    simp only [cellText, openCell_eq, TableState.closeCell, String.append_assoc]
  rw [htext]
  exact .surround rfl (fun output => rfl) (puts_of_isLine h table) fun output => rfl

/-- **The cells of a row** are written for one column after the other. -/
theorem puts_cells (style : Style) {cells : List (List Event)} (h : ∀ cell ∈ cells, IsLine cell)
    (table : TableState) :
    Puts style (cellEvents cells) table
      (cellsText style table.cellTag table.alignments table.column cells)
      { table with column := table.column + cells.length } := by
  induction cells generalizing table with
  | nil => exact .nil
  | cons cell cells ih =>
    obtain ⟨hcell, hcells⟩ := List.forall_mem_cons.1 h
    have happend := (puts_cell style hcell table).append (ih hcells _)
    rw [cellsText_cons, List.length_cons, Nat.add_comm cells.length, ← Nat.add_assoc]
    exact happend

/-- **A row of the body** counts its columns from the first one. -/
theorem puts_row {row : List (List Event)} (h : ∀ cell ∈ row, IsLine cell) :
    Puts style (surround .tableRow (cellEvents row)) ⟨alignments, false, column⟩
      (rowText style alignments row) ⟨alignments, false, row.length⟩ := by
  have hcells := puts_cells style h ⟨alignments, false, 0⟩
  rw [Nat.zero_add] at hcells
  exact .surround rfl (fun output => rfl) hcells fun output => rfl

/-- **The head** has a tag of its own for its cells. -/
theorem puts_head {head : List (List Event)} (h : ∀ cell ∈ head, IsLine cell) :
    Puts style (surround .tableHead (cellEvents head)) ⟨alignments, false, column⟩
      (headText style alignments head) ⟨alignments, false, head.length⟩ := by
  have hcells := puts_cells style h ⟨alignments, true, 0⟩
  rw [Nat.zero_add] at hcells
  exact .surround rfl (fun output => rfl) hcells fun output => rfl

/-- **The rows of the body** leave the alignments of the columns as they
are. -/
theorem exists_puts_rows (style : Style) {rows : List (List (List Event))}
    (h : ∀ row ∈ rows, ∀ cell ∈ row, IsLine cell) (column : Nat) :
    ∃ column', Puts style (rows.flatMap fun row => surround .tableRow (cellEvents row))
      ⟨alignments, false, column⟩ (String.join (rows.map (rowText style alignments)))
      ⟨alignments, false, column'⟩ := by
  induction rows generalizing column with
  | nil => exact ⟨column, .nil⟩
  | cons row rows ih =>
    obtain ⟨hrow, hrows⟩ := List.forall_mem_cons.1 h
    obtain ⟨column', hbehind⟩ := ih hrows row.length
    refine ⟨column', ?_⟩
    rw [List.flatMap_cons, List.map_cons, String.join_cons]
    exact (puts_row hrow).append hbehind

end Puts

/-- **A table is written by its columns.** Its events, met while nothing is
being collected, write a head and rows. The cell in a place of the head is
a `th`, that in a place of any row is a `td`, and each has the style of the
alignment in its place. What is remembered of an earlier table does not
matter. -/
theorem foldl_tableEvents (style : Style) (r : Rendition) (hr : r.captures = [])
    (alignments : List Alignment) {head : List (List Event)} {rows : List (List (List Event))}
    (hhead : ∀ cell ∈ head, IsLine cell) (hrows : ∀ row ∈ rows, ∀ cell ∈ row, IsLine cell) :
    ∃ column, (tableEvents alignments head rows).foldl (event style) r
      = { output := r.output ++ tableText style alignments head rows
          captures := []
          table := { alignments, inHead := false, column } } := by
  obtain ⟨output, captures, table⟩ := r
  obtain rfl : captures = [] := hr
  obtain ⟨column, hbody⟩ := exists_puts_rows style hrows head.length
  have htable : Puts style (tableEvents alignments head rows) table
      (tableText style alignments head rows) ⟨alignments, false, column⟩ :=
    .surround rfl (fun output => rfl) ((puts_head hhead).append hbody) fun output => rfl
  exact ⟨column, htable output⟩

/-- A cell beyond the last column, in a table that comes after another
one. -/
theorem foldl_tableEvents_short :
    let r : Rendition := { output := "<p>", table := ⟨[.center], true, 3⟩ }
    let cell : List Event := [.start (.image "a.png" ""), .text "a", .stop .image]
    IsLine cell ∧ r.captures = [] ∧
      tableText {} [.right] [cell] [[[], cell]]
        = "<table><thead><tr><th style=\"text-align:right\"><img src=\"a.png\" alt=\"a\"></th></tr>"
          ++ "</thead><tbody><tr><td style=\"text-align:right\"></td>"
          ++ "<td><img src=\"a.png\" alt=\"a\"></td></tr></tbody></table>" ∧
      ∃ column, (tableEvents [.right] [cell] [[[], cell]]).foldl (event {}) r
        = { output := r.output ++ tableText {} [.right] [cell] [[[], cell]]
            captures := []
            table := ⟨[.right], false, column⟩ } := by
  intro r cell
  have hcell : IsLine cell := ⟨by decide, by decide⟩
  have hempty : IsLine [] := ⟨rfl, nofun⟩
  have hhead : ∀ c ∈ [cell], IsLine c := List.forall_mem_singleton.2 hcell
  have hrow : ∀ c ∈ [[], cell], IsLine c := List.forall_mem_cons.2 ⟨hempty, hhead⟩
  exact ⟨hcell, rfl, by decide +kernel,
    foldl_tableEvents {} r rfl [.right] hhead (List.forall_mem_singleton.2 hrow)⟩

end Rendition

end PageSlots.Markdown
