import PageSlots.Proofs.Content.Elements
import PageSlots.Proofs.Markdown.AltText
import PageSlots.Proofs.Markdown.Output

/-!
# The elements of a document

The elements that are read of a document stand as its stretches do: a start
with its end is an element over what they enclose (`Stretch.elements`).
Some pairs are two elements or none, a table has a body that no event
begins, and what is collected is one element that holds no other.

The tags of a cell are written by what is remembered of the table, and one
table is remembered at a time. A table in a cell of a head changes that,
and the cell ends with another tag than it has started with
(`not_tagsMatch_of_headTable`). In other cells a table
changes nothing that matters, because the head is over. So tables may stand
anywhere but in heads (`Stretch.Proper`), and what is carried along says of
the head only what holds in both kinds of cells (`Rendition.Grows`).
-/

namespace PageSlots.Markdown

open PageSlots.Markup

/-! ## What the elements are -/

/-- **The element of a single event**, by its tag. -/
def Event.element? : Event → Option String
  | .code _ => some "code"
  | .hardBreak => some "br"
  | .rule => some "hr"
  | .taskMarker _ => some "input"
  | _ => none

/-- Whether a tag has no rule of its own about where it may stand and what
may stand inside. -/
def Tag.isFree : Tag → Bool
  | .codeBlock _ | .image _ _ | .table _ | .tableHead | .tableRow | .tableCell => false
  | _ => true

namespace Stretch

mutual

/-- **The elements of a stretch**, given the tag of its cells. -/
def elements (inline : Bool) (cell : String) : Stretch → List ElementTree
  | single event _ => event.element?.toList.map (.node · [])
  | around (.codeBlock _) _ => [.node "pre" [.node "code" []]]
  | around (.image _ _) _ => [.node "img" []]
  | around (.table _) (head :: rows) =>
    [.node "table" (elements inline cell head ++ [.node "tbody" (elementsOf inline cell rows)])]
  | around .tableHead cells => [.node "thead" [.node "tr" (elementsOf inline "th" cells)]]
  | around .tableRow cells => [.node "tr" (elementsOf inline "td" cells)]
  | around .tableCell inside => [.node cell (elementsOf inline cell inside)]
  | around tag inside =>
    match tag.toEnd.element? inline with
    | some t => [.node t (elementsOf inline cell inside)]
    | none => elementsOf inline cell inside

/-- The elements of several stretches, one after the other. -/
def elementsOf (inline : Bool) (cell : String) : List Stretch → List ElementTree
  | [] => []
  | s :: rest => elements inline cell s ++ elementsOf inline cell rest

end

/-- Cells, each around what stands in it. -/
def cellsAround (cells : List (List Stretch)) : List Stretch :=
  cells.map (around .tableCell)

/-- The rows of a body, each around its cells. -/
def rowsAround (rows : List (List (List Stretch))) : List Stretch :=
  rows.map fun row => around .tableRow (cellsAround row)

/-! ## Which stretches are meant -/

/-- **Stretches as documents have them**, where tables may stand or not. No
event copies markup. A code block holds texts, and an image what may stand
inside a line. Heads, rows and cells are found in tables only, each of a
head and rows that are made of cells; in the cells of a head tables may
stand if `headTables`, and in those of rows always. -/
inductive Proper (headTables : Bool) : Bool → Stretch → Prop where
  /-- A single event. -/
  | single {tables : Bool} {e : Event} {h : e.isSingle = true} : ¬ e.IsMarkup →
      Proper headTables tables (single e h)
  /-- A code block. -/
  | code {tables : Bool} {info : Option String} {inside : List Stretch} :
      (∀ e ∈ eventsOf inside, ∃ text, e = .text text) →
      Proper headTables tables (around (.codeBlock info) inside)
  /-- An image. -/
  | image {tables : Bool} {destination title : String} {inside : List Stretch} :
      (∀ e ∈ eventsOf inside, e.isInline = true) → (∀ e ∈ eventsOf inside, ¬ e.IsMarkup) →
      Proper headTables tables (around (.image destination title) inside)
  /-- A table. -/
  | table {alignments : List Alignment} {head : List (List Stretch)}
      {rows : List (List (List Stretch))} :
      (∀ cell ∈ head, ∀ s ∈ cell, Proper headTables headTables s) →
      (∀ row ∈ rows, ∀ cell ∈ row, ∀ s ∈ cell, Proper headTables true s) →
      Proper headTables true
        (around (.table alignments) (around .tableHead (cellsAround head) :: rowsAround rows))
  /-- Anything else around other stretches. -/
  | around {tables : Bool} {tag : Tag} {inside : List Stretch} : tag.isFree = true → tag.IsValid →
      (∀ s ∈ inside, Proper headTables tables s) → Proper headTables tables (around tag inside)

end Stretch

open Stretch

namespace Rendition

variable {inline tables : Bool} {r r' r'' : Rendition} {els els' : List ElementTree}

/-- **Elements have been written**, and what is remembered of the head has
not changed where cells depend on it. -/
structure Grows (tables : Bool) (els : List ElementTree) (r r' : Rendition) : Prop where
  /-- What is being collected is the same. -/
  captures_eq : r'.captures = r.captures
  /-- So is whether the head is being written, unless a table may have begun in it. -/
  inHead_eq : tables = false ∨ r.table.inHead = false → r'.table.inHead = r.table.inHead
  /-- The elements have been written as tokens. -/
  spells : ∃ tokens, Appends tokens r r' ∧ Markup.Token.Spells tokens els

theorem Grows.refl (tables : Bool) (r : Rendition) : Grows tables [] r r :=
  ⟨rfl, fun _ => rfl, [], .of_output_eq rfl, .nil⟩

theorem Grows.trans (h : Grows tables els r r') (h' : Grows tables els' r' r'') :
    Grows tables (els ++ els') r r'' := by
  obtain ⟨tokens, happends, hspells⟩ := h.spells
  obtain ⟨tokens', happends', hspells'⟩ := h'.spells
  refine ⟨h'.captures_eq.trans h.captures_eq, fun hhead => ?_, tokens ++ tokens',
    happends.trans happends', hspells.append hspells'⟩
  have hsame := h.inHead_eq hhead
  exact (h'.inHead_eq (hhead.imp_right fun hout => hsame.trans hout)).trans hsame

/-- Tokens are written, and nothing else changes. -/
theorem Grows.of_put {text : String} {tokens : List Markup.Token}
    (happends : Appends tokens r (r.put text)) (hspells : Markup.Token.Spells tokens els) :
    Grows tables els r (r.put text) :=
  ⟨rfl, fun _ => rfl, tokens, happends, hspells⟩

/-- A step that changes neither what is collected nor the head. -/
structure Keeps (r r' : Rendition) : Prop where
  /-- What is being collected is the same. -/
  captures_eq : r'.captures = r.captures
  /-- So is whether the head is being written. -/
  inHead_eq : r'.table.inHead = r.table.inHead

/-- **What grows between a start tag and its end tag** are the elements
inside one. -/
theorem Grows.surround {tag : Tag} {inside : List Event} {t : String} {attrs : List Attribute}
    (hr : r.captures = []) (ht : tag.isCollected = false) (hvoid : isVoidTag t = false)
    (hopen : Appends [.opening t attrs []] r (r.openOutside { inline } tag))
    (hkeeps : Keeps r (r.openOutside { inline } tag))
    (h : Grows tables els (r.openOutside { inline } tag) r')
    (hinside : inside.foldl (event { inline }) (r.openOutside { inline } tag) = r')
    (hclose : Appends [.closing t] r' (r'.closeOutside { inline } tag.toEnd))
    (hkeeps' : Keeps r' (r'.closeOutside { inline } tag.toEnd)) :
    Grows tables [.node t els] r ((Markdown.surround tag inside).foldl (event { inline }) r) := by
  have hcaptures : r'.captures = [] := h.captures_eq.trans (hkeeps.captures_eq.trans hr)
  rw [foldl_surround_outside hr ht hinside hcaptures]
  obtain ⟨tokens, happends, hspells⟩ := h.spells
  refine ⟨?_, fun hhead => ?_, _, (hopen.trans happends).trans hclose, .element hvoid hspells⟩
  · rw [hkeeps'.captures_eq, h.captures_eq, hkeeps.captures_eq]
  · rw [hkeeps'.inHead_eq, h.inHead_eq (hkeeps.inHead_eq ▸ hhead), hkeeps.inHead_eq]

/-! ## Stretches of one kind -/

/-- **A single event** writes its element. -/
theorem grows_single {e : Event} (hr : r.captures = []) (hs : e.isSingle = true)
    (hm : ¬ e.IsMarkup) :
    Grows tables (e.element?.toList.map (.node · [])) r (r.event { inline } e) := by
  cases e with
  | text s =>
    show Grows tables [] r (r.pushOr s _)
    rw [pushOr_outside hr]
    exact .of_put (appends_token _ (isDocumentToken_text s.toList) (toList_escape s) rfl) .text
  | softBreak =>
    show Grows tables [] r (r.pushOr _ "\n")
    rw [pushOr_outside hr]
    exact .of_put (appends_token _ (isDocumentToken_text ['\n']) rfl rfl) .text
  | code s =>
    show Grows tables [.node "code" []] r (r.pushOr s _)
    rw [pushOr_outside hr]
    exact .of_put (appends_code r s) (.element (by decide) .text)
  | hardBreak =>
    show Grows tables [.node "br" []] r (r.pushOr _ "<br>")
    rw [pushOr_outside hr]
    exact .of_put (appends_tag "br" (by decide) rfl) (.void (by decide))
  | rule => exact .of_put (appends_tag "hr" (by decide) rfl) (.void (by decide))
  | taskMarker checked =>
    obtain ⟨flags, happends⟩ := exists_appends_checkBox r checked
    exact .of_put happends (.append (.void (by decide)) .text)
  | inlineMath _ | displayMath _ | footnoteReference _ => exact .refl tables r
  | html _ | inlineHtml _ => exact absurd trivial hm
  | start _ | stop _ => cases hs

/-- **A code block** is one element in another, whatever the texts in it. -/
theorem grows_codeBlock (hr : r.captures = []) (info : Option String) {inside : List Event}
    (h : ∀ e ∈ inside, ∃ text, e = .text text) :
    Grows tables [.node "pre" [.node "code" []]] r
      ((surround (.codeBlock info) inside).foldl (event { inline }) r) := by
  have hcollect : ∀ body, ∃ body', inside.foldl (event { inline })
      (r.capture (.code (languageOf (info.getD "")) body))
        = r.capture (.code (languageOf (info.getD "")) body') := by
    induction inside with
    | nil => exact fun body => ⟨body, rfl⟩
    | cons e inside ih =>
      obtain ⟨⟨text, rfl⟩, hinside⟩ := List.forall_mem_cons.1 h
      exact fun body => ih hinside (body ++ text)
  obtain ⟨body, hbody⟩ := hcollect ""
  rw [foldl_surround, start_outside hr rfl]
  show Grows tables _ r (stop { inline } (inside.foldl (event { inline }) (r.capture _)) _)
  rw [hbody]
  obtain ⟨attrs, happends⟩ := exists_appends_codeBlock r (languageOf (info.getD "")) body
  have hcode : Markup.Token.Spells
      (.opening "code" attrs [] :: ([.text body.toList] ++ [.closing "code"])) [.node "code" []] :=
    .element (by decide) .text
  exact .of_put happends (.element (by decide) hcode)

/-- **An image** is one element, whatever stands in it. -/
theorem grows_image (hr : r.captures = []) (destination title : String) {inside : List Stretch}
    (h : ∀ e ∈ eventsOf inside, e.isInline = true) :
    Grows tables [.node "img" []] r
      ((surround (.image destination title) (eventsOf inside)).foldl (event { inline }) r) := by
  rw [foldl_image { inline } hr h]
  obtain ⟨attrs, happends⟩ :=
    exists_appends_image r ⟨destination, title, altTextOf (eventsOf inside)⟩
  exact .of_put happends (.void (by decide))

/-- The element of a pair of tags holds others. -/
theorem isVoidTag_of_element? {tag : EndTag} {t : String} (hv : tag.IsValid)
    (ht : tag.element? inline = some t) : isVoidTag t = false := by
  cases tag with
  | paragraph =>
    cases inline with
    | true => cases ht
    | false =>
      cases ht
      decide
  | heading level =>
    cases ht
    obtain ⟨hlow, hhigh⟩ := hv
    interval_cases level <;> decide
  | list ordered => cases ordered <;> cases ht <;> decide
  | _ => first | cases ht; decide | cases ht

theorem Keeps.ite {p : Prop} [Decidable p] (h : Keeps r r') (h' : Keeps r r'') :
    Keeps r (if p then r' else r'') := by
  split
  · exact h
  · exact h'

theorem keeps_openOutside {style : Style} {tag : Tag} (ht : tag.isFree = true) :
    Keeps r (r.openOutside style tag) := by
  cases tag with
  | paragraph => exact .ite ⟨rfl, rfl⟩ ⟨rfl, rfl⟩
  | list start =>
    cases start with
    | none => exact ⟨rfl, rfl⟩
    | some start => exact .ite ⟨rfl, rfl⟩ ⟨rfl, rfl⟩
  | _ => first | exact ⟨rfl, rfl⟩ | cases ht

theorem keeps_closeOutside {style : Style} {tag : Tag} (ht : tag.isFree = true) :
    Keeps r (r.closeOutside style tag.toEnd) := by
  cases tag with
  | paragraph => exact .ite ⟨rfl, rfl⟩ ⟨rfl, rfl⟩
  | list start => cases start <;> exact ⟨rfl, rfl⟩
  | _ => first | exact ⟨rfl, rfl⟩ | cases ht

theorem isCollected_of_isFree {tag : Tag} (ht : tag.isFree = true) : tag.isCollected = false := by
  cases tag <;> first | rfl | cases ht

/-- A pair of tags without an element writes nothing. -/
theorem openOutside_of_element?_eq_none {tag : Tag} (ht : tag.isFree = true)
    (he : tag.toEnd.element? inline = none) :
    r.openOutside { inline } tag = r ∧ ∀ r', closeOutside { inline } r' tag.toEnd = r' := by
  cases tag with
  | paragraph =>
    cases inline with
    | true => exact ⟨rfl, fun _ => rfl⟩
    | false => cases he
  | htmlBlock | footnoteDefinition _ | metadata => exact ⟨rfl, fun _ => rfl⟩
  | codeBlock _ | image _ _ | table _ | tableHead | tableRow | tableCell => cases ht
  | list start => cases start <;> cases he
  | _ => cases he

/-- **A pair of tags** is an element over what it encloses, or no element. -/
theorem grows_surround {tag : Tag} {inside : List Event} (hr : r.captures = [])
    (ht : tag.isFree = true) (hv : tag.IsValid)
    (h : ∀ r : Rendition, r.captures = [] →
      Grows tables els r (inside.foldl (event { inline }) r)) :
    Grows tables (match tag.toEnd.element? inline with
      | some t => [.node t els]
      | none => els) r ((surround tag inside).foldl (event { inline }) r) := by
  have hkeeps : Keeps r (r.openOutside { inline } tag) := keeps_openOutside ht
  have hinside := h _ (hkeeps.captures_eq.trans hr)
  have hcollected := isCollected_of_isFree ht
  split
  · rename_i t he
    obtain ⟨attrs, hopen⟩ := exists_appends_openOutside r hv he
    exact .surround hr hcollected (isVoidTag_of_element? hv.toEnd he) hopen hkeeps hinside rfl
      (appends_closeOutside _ hv.toEnd he) (keeps_closeOutside ht)
  · rename_i he
    obtain ⟨hopen, hclose⟩ : r.openOutside { inline } tag = r
        ∧ ∀ r', closeOutside { inline } r' tag.toEnd = r' := openOutside_of_element?_eq_none ht he
    rw [foldl_surround_outside hr hcollected rfl
      (hinside.captures_eq.trans (hkeeps.captures_eq.trans hr)), hclose, hopen]
    exact h r hr

/-- **Stretches side by side** grow side by side, where that keeps what each
of them needs. -/
theorem grows_eventsOf {P : Rendition → Prop} {cell : String} {stretches : List Stretch}
    (hkeep : ∀ {els r r'}, P r → Grows tables els r r' → P r') (hr : P r)
    (h : ∀ s ∈ stretches, ∀ r, P r →
      Grows tables (s.elements inline cell) r (s.events.foldl (event { inline }) r)) :
    Grows tables (elementsOf inline cell stretches) r
      ((eventsOf stretches).foldl (event { inline }) r) := by
  induction stretches generalizing r with
  | nil => exact .refl tables r
  | cons s rest ih =>
    obtain ⟨hfirst, hrest⟩ := List.forall_mem_cons.1 h
    rw [eventsOf_cons, List.foldl_append, elementsOf]
    have hgrows := hfirst r hr
    exact hgrows.trans (ih (hkeep hr hgrows) hrest)

/-! ## Tables -/

/-- The tag of the cells of a head, and of other cells. -/
def cellTagOf (inHead : Bool) : String :=
  if inHead then "th" else "td"

/-- **A rendition in a table**: nothing is being collected, and the head is
being written or not. -/
structure InTable (inHead : Bool) (r : Rendition) : Prop where
  /-- Nothing is being collected. -/
  captures_eq : r.captures = []
  /-- Whether the head is being written. -/
  inHead_eq : r.table.inHead = inHead

variable {inHead : Bool}

theorem InTable.of_grows (h : InTable inHead r) (hhead : tables = false ∨ inHead = false)
    (hgrows : Grows tables els r r') : InTable inHead r' := by
  refine ⟨hgrows.captures_eq.trans h.captures_eq, ?_⟩
  rw [hgrows.inHead_eq (h.inHead_eq ▸ hhead), h.inHead_eq]

theorem InTable.cellTag_eq (h : InTable inHead r) : r.table.cellTag = cellTagOf inHead := by
  rw [TableState.cellTag, h.inHead_eq, cellTagOf]

/-- **A cell** ends with the tag it has started with, if no table may have
begun in the head since. -/
theorem grows_cell {inside : List Event} (hr : InTable inHead r)
    (hhead : tables = false ∨ inHead = false)
    (h : ∀ r : Rendition, r.captures = [] →
      Grows tables els r (inside.foldl (event { inline }) r)) :
    Grows tables [.node (cellTagOf inHead) els] r
      ((surround .tableCell inside).foldl (event { inline }) r) := by
  have hopened : InTable inHead (r.openOutside { inline } .tableCell) :=
    ⟨hr.captures_eq, hr.inHead_eq⟩
  have hinside := h _ hopened.captures_eq
  generalize hr' : inside.foldl (event { inline }) (r.openOutside { inline } .tableCell) = r'
    at hinside
  have hopen : ∃ attrs, Appends [.opening r.table.cellTag attrs []] r
      (r.openOutside { inline } .tableCell) := exists_appends_openCell r
  have hclose : Appends [.closing r'.table.cellTag] r' (r'.closeOutside { inline } .tableCell) :=
    appends_closeCell r'
  rw [hr.cellTag_eq] at hopen
  rw [(hopened.of_grows hhead hinside).cellTag_eq] at hclose
  obtain ⟨attrs, hopen⟩ := hopen
  have hvoid : isVoidTag (cellTagOf inHead) = false := by cases inHead <;> decide
  exact .surround hr.captures_eq rfl hvoid hopen ⟨rfl, rfl⟩ hinside hr' hclose ⟨rfl, rfl⟩

/-- The cells of a row, or of the head. -/
theorem grows_cells {cells : List (List Stretch)} (hr : InTable inHead r)
    (hhead : tables = false ∨ inHead = false)
    (h : ∀ cell ∈ cells, ∀ s ∈ cell, ∀ r : Rendition, r.captures = [] →
      Grows tables (s.elements inline (cellTagOf inHead)) r (s.events.foldl (event { inline }) r)) :
    Grows tables (elementsOf inline (cellTagOf inHead) (cellsAround cells)) r
      ((eventsOf (cellsAround cells)).foldl (event { inline }) r) := by
  refine grows_eventsOf (fun hr' hgrows => hr'.of_grows hhead hgrows) hr ?_
  intro s hs r' hr'
  obtain ⟨cell, hcell, rfl⟩ := List.mem_map.1 hs
  exact grows_cell hr' hhead fun r'' hr'' =>
    grows_eventsOf (fun hc hgrows => hgrows.captures_eq.trans hc) hr'' (h cell hcell)

/-- **The rows of a body.** -/
theorem grows_rows {rows : List (List (List Stretch))} (tag : String) (hr : InTable false r)
    (h : ∀ row ∈ rows, ∀ cell ∈ row, ∀ s ∈ cell, ∀ r : Rendition, r.captures = [] →
      Grows tables (s.elements inline "td") r (s.events.foldl (event { inline }) r)) :
    Grows tables (elementsOf inline tag (rowsAround rows)) r
      ((eventsOf (rowsAround rows)).foldl (event { inline }) r) := by
  refine grows_eventsOf (fun hr' hgrows => hr'.of_grows (.inr rfl) hgrows) hr ?_
  intro s hs r' hr'
  obtain ⟨row, hrow, rfl⟩ := List.mem_map.1 hs
  have hopened : InTable false (r'.openOutside { inline } .tableRow) :=
    ⟨hr'.captures_eq, hr'.inHead_eq⟩
  have hopen : ∃ attrs, Appends [.opening "tr" attrs []] r' (r'.openOutside { inline } .tableRow) :=
    exists_appends_openOutside r' trivial rfl
  obtain ⟨attrs, hopen⟩ := hopen
  exact .surround hr'.captures_eq rfl (by decide) hopen ⟨rfl, rfl⟩
    (grows_cells hopened (.inr rfl) (h row hrow)) rfl (appends_closeOutside _ trivial rfl)
    ⟨rfl, rfl⟩

/-- The tokens of a table. -/
theorem spells_table {head rows : List Markup.Token} {attrs : List Attribute}
    (hhead : Markup.Token.Spells head els) (hrows : Markup.Token.Spells rows els') :
    Markup.Token.Spells
      ([.opening "table" attrs []] ++ ([.opening "thead" [] [], .opening "tr" [] []] ++ head
        ++ [.closing "tr", .closing "thead", .opening "tbody" [] []] ++ rows)
        ++ [.closing "tbody", .closing "table"])
      [.node "table" ([.node "thead" [.node "tr" els]] ++ [.node "tbody" els'])] := by
  have hrow : Markup.Token.Spells (.opening "tr" [] [] :: (head ++ [.closing "tr"]))
      [.node "tr" els] := .element (by decide) hhead
  have hthead : Markup.Token.Spells
      (.opening "thead" [] [] :: ((.opening "tr" [] [] :: (head ++ [.closing "tr"]))
        ++ [.closing "thead"])) [.node "thead" [.node "tr" els]] := .element (by decide) hrow
  have htbody : Markup.Token.Spells (.opening "tbody" [] [] :: (rows ++ [.closing "tbody"]))
      [.node "tbody" els'] := .element (by decide) hrows
  have htable : Markup.Token.Spells
      (.opening "table" attrs [] :: (((.opening "thead" [] [] ::
        ((.opening "tr" [] [] :: (head ++ [.closing "tr"])) ++ [.closing "thead"]))
          ++ (.opening "tbody" [] [] :: (rows ++ [.closing "tbody"]))) ++ [.closing "table"]))
      [.node "table" ([.node "thead" [.node "tr" els]] ++ [.node "tbody" els'])] :=
    .element (by decide) (hthead.append htbody)
  simpa using htable

/-- **A table** is a head and a body. In the head no table may begin. -/
theorem grows_table {head : List (List Stretch)} {rows : List (List (List Stretch))} {tag : String}
    (hr : r.captures = []) (alignments : List Alignment)
    (hhead : ∀ cell ∈ head, ∀ s ∈ cell, ∀ r : Rendition, r.captures = [] →
      Grows false (s.elements inline "th") r (s.events.foldl (event { inline }) r))
    (hrows : ∀ row ∈ rows, ∀ cell ∈ row, ∀ s ∈ cell, ∀ r : Rendition, r.captures = [] →
      Grows true (s.elements inline "td") r (s.events.foldl (event { inline }) r)) :
    Grows true
      [.node "table" ([.node "thead" [.node "tr" (elementsOf inline "th" (cellsAround head))]]
        ++ [.node "tbody" (elementsOf inline tag (rowsAround rows))])] r
      ((surround (.table alignments) (surround .tableHead (eventsOf (cellsAround head))
        ++ eventsOf (rowsAround rows))).foldl (event { inline }) r) := by
  have hopened : InTable true ((r.openOutside { inline } (.table alignments)).openOutside { inline }
      .tableHead) := ⟨hr, rfl⟩
  have hcells := grows_cells hopened (.inl rfl) hhead
  have hcells' := hopened.of_grows (.inl rfl) hcells
  generalize hc : (eventsOf (cellsAround head)).foldl (event { inline }) _ = r₁ at hcells hcells'
  have hbody : InTable false (r₁.closeOutside { inline } .tableHead) := ⟨hcells'.captures_eq, rfl⟩
  have hgrown := grows_rows tag hbody hrows
  have hgrown' := hbody.of_grows (.inr rfl) hgrown
  generalize hb : (eventsOf (rowsAround rows)).foldl (event { inline }) _ = r₂ at hgrown hgrown'
  have hinside : (surround .tableHead (eventsOf (cellsAround head))
      ++ eventsOf (rowsAround rows)).foldl (event { inline })
        (r.openOutside { inline } (.table alignments)) = r₂ := by
    have hr₁ : (r.openOutside { inline } (.table alignments)).captures = [] := hr
    rw [List.foldl_append, foldl_surround_outside hr₁ rfl hc hcells'.captures_eq]
    exact hb
  rw [foldl_surround_outside hr rfl hinside hgrown'.captures_eq]
  obtain ⟨tokens, happends, hspells⟩ := hcells.spells
  obtain ⟨tokens', happends', hspells'⟩ := hgrown.spells
  have hclose : Appends [.closing "tr", .closing "thead", .opening "tbody" [] []] r₁
      (r₁.closeOutside { inline } .tableHead) := appends_closeHead r₁
  have hhead := ((appends_openHead (r.openOutside { inline } (.table alignments))).trans
    happends).trans hclose
  refine ⟨hgrown'.captures_eq.trans hr.symm, fun hout => ?_, _,
    ((appends_openTable r alignments).trans (hhead.trans happends')).trans (appends_closeTable r₂),
    spells_table hspells hspells'⟩
  exact hgrown'.inHead_eq.trans (hout.resolve_left nofun).symm

/-! ## Documents -/

/-- **Proper stretches write their elements.** -/
theorem grows_of_proper {s : Stretch} (h : s.Proper false tables) (cell : String)
    (hr : r.captures = []) :
    Grows tables (s.elements inline cell) r (s.events.foldl (event { inline }) r) := by
  induction h generalizing cell r with
  | @single tables e he hm => exact grows_single hr he hm
  | code htexts => exact grows_codeBlock hr _ htexts
  | image hinline _ => exact grows_image hr _ _ hinline
  | table _ _ ihhead ihrows =>
    exact grows_table hr _ (fun c hc s hs r' hr' => ihhead c hc s hs "th" hr')
      fun row hrow c hc s hs r' hr' => ihrows row hrow c hc s hs "td" hr'
  | @around tables tag inside ht hv _ ih =>
    have hinside : ∀ r : Rendition, r.captures = [] → Grows tables (elementsOf inline cell inside) r
        ((eventsOf inside).foldl (event { inline }) r) := fun r' hr' =>
      grows_eventsOf (fun hc hgrows => hgrows.captures_eq.trans hc) hr' fun s hs r'' hr'' =>
        ih s hs cell hr''
    cases tag with
    | codeBlock _ | image _ _ | table _ | tableHead | tableRow | tableCell => cases ht
    | _ => exact grows_surround hr ht hv hinside

end Rendition

/-- **The elements of a page are the stretches of its document.** The tags
of what is written of proper stretches match, and what is read of it are
the elements of the stretches. Since no cell stands outside a table, it does
not matter for which tag of cells these are told; nor does the table that is
remembered from an earlier document. -/
theorem elements_of_proper (inline : Bool) (table : TableState) {stretches : List Stretch}
    (h : ∀ s ∈ stretches, s.Proper false true) :
    let text := (Rendition.document { inline } { table } (eventsOf stretches)).1
    tagsMatch text.toList = true ∧
      ∃ cs, ReadsAs text cs ∧ cs.flatMap Content.elements = elementsOf inline "td" stretches := by
  intro text
  have hgrows : Rendition.Grows true (elementsOf inline "td" stretches) { table }
      ((eventsOf stretches).foldl (Rendition.event { inline }) { table }) :=
    Rendition.grows_eventsOf (fun hc hgrows => hgrows.captures_eq.trans hc) rfl
      fun s hs r hr => Rendition.grows_of_proper (h s hs) "td" hr
  obtain ⟨tokens, happends, hspells⟩ := hgrows.spells
  have hplain : ∀ k ∈ tokens, k.IsPlain := fun k hk => (happends.isDocumentToken k hk).1
  have htext : text.toList = tokens.flatMap Markup.Token.written := happends.output_eq
  exact ⟨tagsMatch_of_spells hplain hspells htext, readsAs_of_spells hplain hspells htext⟩

/-- A paragraph in inline mode with an image, and a table in a row of
another one. -/
theorem elements_of_proper_rowTable :
    let inner : Stretch :=
      .around (.table []) (.around .tableHead (cellsAround []) :: rowsAround [])
    let outer : Stretch := .around (.table [.left])
      (.around .tableHead (cellsAround [[.single .hardBreak rfl]]) :: rowsAround [[[inner], []]])
    let paragraph : Stretch := .around .paragraph
      [.single (.code "a") rfl, .around (.image "b.png" "") [.single (.text "b") rfl]]
    let text := (Rendition.document { inline := true } {} (eventsOf [paragraph, outer])).1
    (∀ s ∈ [paragraph, outer], s.Proper false true) ∧
      elementsOf true "td" [paragraph, outer] =
        [.node "code" [], .node "img" [], .node "table"
          [.node "thead" [.node "tr" [.node "th" [.node "br" []]]],
            .node "tbody" [.node "tr" [.node "td" [.node "table"
              [.node "thead" [.node "tr" []], .node "tbody" []]], .node "td" []]]]] ∧
      tagsMatch text.toList = true ∧ ∃ cs, ReadsAs text cs
        ∧ cs.flatMap Content.elements = elementsOf true "td" [paragraph, outer] := by
  intro inner outer paragraph text
  have hinner : inner.Proper false true := .table nofun nofun
  have hrows : ∀ row ∈ [[[inner], []]], ∀ cell ∈ row, ∀ s ∈ cell, s.Proper false true := by
    simpa using hinner
  have houter : outer.Proper false true := by
    refine .table (fun cell hcell s hs => ?_) hrows
    obtain rfl := List.mem_singleton.1 hcell
    obtain rfl := List.mem_singleton.1 hs
    exact .single nofun
  have hparagraph : paragraph.Proper false true := by
    refine .around rfl trivial (List.forall_mem_cons.2 ⟨.single nofun, ?_⟩)
    exact List.forall_mem_singleton.2 (.image (by decide) (by decide))
  have hproper : ∀ s ∈ [paragraph, outer], s.Proper false true :=
    List.forall_mem_cons.2 ⟨hparagraph, List.forall_mem_singleton.2 houter⟩
  exact ⟨hproper, rfl, elements_of_proper true {} hproper⟩

/-- **A table in the head of another one.** Its head ends the outer one, so
the cell around it ends with another tag than it has started with. -/
theorem not_tagsMatch_of_headTable :
    let inner : Stretch :=
      .around (.table []) (.around .tableHead (cellsAround []) :: rowsAround [])
    let outer : Stretch :=
      .around (.table []) (.around .tableHead (cellsAround [[inner]]) :: rowsAround [])
    outer.Proper true true ∧ tagsMatch (writeEvents {} outer.events).toList = false := by
  intro inner outer
  have hinner : inner.Proper true true := .table nofun nofun
  have hhead : ∀ cell ∈ [[inner]], ∀ s ∈ cell, s.Proper true true := by simpa using hinner
  exact ⟨.table hhead nofun, by decide +kernel⟩

end PageSlots.Markdown
