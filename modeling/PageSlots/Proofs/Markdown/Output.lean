import Mathlib.Data.Nat.Digits.Lemmas
import Mathlib.Tactic.IntervalCases
import PageSlots.Markdown.Rendition
import PageSlots.Proofs.Content.Taken

/-!
# Events write tokens

No event but those that copy markup – a line of an HTML block, a tag
inside a paragraph – writes anything else than tokens: escaped text, and
the tags of a fixed list with attributes of a fixed list
(`Rendition.writes_event`). That holds whatever stands in the captures,
which is where a text goes before it becomes the body of a code block or
the value of an attribute, and in whatever order the events come. So a
whole document is tokens (`Rendition.writes_document`).

With the tokens comes the text that they hold. `Rendition.spoken` is what
an event puts into the page as text, which for a capture is when it ends.
-/

namespace PageSlots.Markdown

open PageSlots.Markup PageSlots.Text

/-! ## What pages are written with -/

/-- **The tags that a document is written with.** -/
def writtenTags : List String := [
  "p", "h1", "h2", "h3", "h4", "h5", "h6", "blockquote", "pre", "code", "ol", "ul", "li", "dl",
  "dt", "dd", "table", "thead", "tbody", "tr", "th", "td", "em", "strong", "s", "sup", "sub", "a",
  "img", "br", "hr", "input"]

/-- **The names of the attributes that a document is written with.** -/
def writtenNames : List String := [
  "style", "class", "href", "src", "title", "alt", "start", "type", "checked", "disabled"]

/-- An element that a document may be written with. -/
def IsDocumentElement (o : Own) : Prop :=
  o.tag ∈ writtenTags ∧ ∀ name ∈ o.names, name ∈ writtenNames

/-- The level of a heading is one to six. -/
def Tag.IsValid : Tag → Prop
  | .heading level => 1 ≤ level ∧ level ≤ 6
  | _ => True

/-- The level of a heading that ends is one to six. -/
def EndTag.IsValid : EndTag → Prop
  | .heading level => 1 ≤ level ∧ level ≤ 6
  | _ => True

/-- **An event as it comes**: the level of a heading is one to six. -/
def Event.IsValid : Event → Prop
  | .start tag => tag.IsValid
  | .stop tag => tag.IsValid
  | _ => True

/-- **An event that copies markup.** -/
def Event.IsMarkup : Event → Prop
  | .html _ | .inlineHtml _ => True
  | _ => False

instance (tag : Tag) : Decidable tag.IsValid := by
  unfold Tag.IsValid
  split <;> infer_instance

instance (tag : EndTag) : Decidable tag.IsValid := by
  unfold EndTag.IsValid
  split <;> infer_instance

instance (e : Event) : Decidable e.IsValid := by
  unfold Event.IsValid
  split <;> infer_instance

instance (e : Event) : Decidable e.IsMarkup := by
  unfold Event.IsMarkup
  split <;> infer_instance

/-! ## Tokens of a document -/

/-- A token that a document may be written with. -/
def IsDocumentToken (k : Markup.Token) : Prop :=
  k.IsPlain ∧ k.Only IsDocumentElement

section Tokens

variable {tag : String} {attrs : List Attribute} {flags : List String}

/-- The tags of a document are plain, and none holds raw text. -/
theorem isPlainTag_of_mem (ht : tag ∈ writtenTags) :
    IsPlainTag tag ∧ isRawTextTag tag = false := by
  have hletters : ∀ tag ∈ writtenTags, tag.toList.head?.any (·.isLower) = true
      ∧ tag.toList.all (fun c => IsTagChar c) = true ∧ isRawTextTag tag = false := by
    decide
  obtain ⟨hfirst, hall, hraw⟩ := hletters tag ht
  obtain ⟨c, hc, hlow⟩ := (Option.any_eq_true _ _).1 hfirst
  obtain ⟨cs, hcs⟩ := List.head?_eq_some_iff.1 hc
  refine ⟨⟨c, cs, hcs, hlow, fun d hd => ?_⟩, hraw⟩
  exact of_decide_eq_true (List.all_eq_true.1 hall d (hcs ▸ List.mem_cons_of_mem c hd))

/-- Its attributes are plain if their values are. -/
theorem isPlain_of_mem {a : Attribute} (hn : a.name ∈ writtenNames) (hv : '"' ∉ a.value.toList) :
    a.IsPlain := by
  have hletters : ∀ name ∈ writtenNames, name ≠ ""
      ∧ name.toList.all (fun c => IsNameChar c) = true := by
    decide
  obtain ⟨hne, hall⟩ := hletters a.name hn
  exact ⟨hne, fun c hc => of_decide_eq_true (List.all_eq_true.1 hall c hc), hv⟩

/-- **A start tag of a document.** -/
theorem isDocumentToken_opening (ht : tag ∈ writtenTags)
    (hn : ∀ name ∈ attributeNames (attrs ++ flagAttributes flags), name ∈ writtenNames)
    (hd : (attributeNames (attrs ++ flagAttributes flags)).Nodup)
    (hv : ∀ a ∈ attrs ++ flagAttributes flags, '"' ∉ a.value.toList) :
    IsDocumentToken (.opening tag attrs flags) :=
  ⟨.opening (isPlainTag_of_mem ht).1 (isPlainTag_of_mem ht).2
    (fun a ha => isPlain_of_mem (hn a.name (List.mem_map_of_mem ha)) (hv a ha)) hd, ht, hn⟩

/-- A start tag without attributes. -/
theorem isDocumentToken_tag (ht : tag ∈ writtenTags) : IsDocumentToken (.opening tag [] []) :=
  isDocumentToken_opening ht nofun List.nodup_nil nofun

/-- A start tag with one attribute. -/
theorem isDocumentToken_attribute {name value : String} (ht : tag ∈ writtenTags)
    (hn : name ∈ writtenNames) (hv : '"' ∉ value.toList) :
    IsDocumentToken (.opening tag [⟨name, value⟩] []) :=
  isDocumentToken_opening ht (List.forall_mem_singleton.2 hn) (List.nodup_singleton _)
    (List.forall_mem_singleton.2 hv)

/-- **An end tag of a document.** -/
theorem isDocumentToken_closing (ht : tag ∈ writtenTags) : IsDocumentToken (.closing tag) :=
  ⟨.closing (isPlainTag_of_mem ht).1, trivial⟩

theorem isDocumentToken_text (s : List Char) : IsDocumentToken (.text s) :=
  ⟨.text, trivial⟩

/-- The tag of a heading. -/
theorem heading_mem_writtenTags {level : Nat} (h : 1 ≤ level ∧ level ≤ 6) :
    "h" ++ toString level ∈ writtenTags := by
  obtain ⟨h₁, h₂⟩ := h
  interval_cases level <;> decide

/-- The tag of a cell. -/
theorem cellTag_mem_writtenTags (table : TableState) : table.cellTag ∈ writtenTags := by
  unfold TableState.cellTag
  split <;> decide

/-- An escaped value does not end before its end. -/
@[simp] theorem quote_notMem_escapeChars (s : List Char) : '"' ∉ escapeChars s :=
  notMem_escapeChars (by decide) s

end Tokens

/-! ## The element of a pair of tags -/

/-- **The element that an end closes**, by its tag, if there is one and it
depends on nothing else. The start of such an end opens it. -/
def EndTag.element? (inline : Bool) : EndTag → Option String
  | .paragraph => if inline then none else some "p"
  | .heading level => some ("h" ++ toString level)
  | .blockQuote => some "blockquote"
  | .list true => some "ol"
  | .list false => some "ul"
  | .item => some "li"
  | .tableRow => some "tr"
  | .emphasis => some "em"
  | .strong => some "strong"
  | .strikethrough => some "s"
  | .superscript => some "sup"
  | .subscript => some "sub"
  | .link => some "a"
  | .definitionList => some "dl"
  | .definitionTitle => some "dt"
  | .definition => some "dd"
  | .codeBlock | .table | .tableHead | .tableCell | .image | .htmlBlock | .footnoteDefinition
  | .metadata => none

/-- It is one that documents are written with. -/
theorem EndTag.mem_writtenTags {inline : Bool} {tag : EndTag} {t : String} (hv : tag.IsValid)
    (ht : tag.element? inline = some t) : t ∈ writtenTags := by
  cases tag with
  | paragraph =>
    cases inline with
    | true => cases ht
    | false =>
      cases ht
      decide
  | heading level =>
    cases ht
    exact heading_mem_writtenTags hv
  | list ordered =>
    cases ordered <;> cases ht <;> decide
  | _ => first | cases ht; decide | cases ht

/-- A start is as valid as its end. -/
theorem Tag.IsValid.toEnd {tag : Tag} (h : tag.IsValid) : tag.toEnd.IsValid := by
  cases tag <;> exact h

namespace Rendition

/-! ## Writing tokens -/

/-- **One rendition has written some tokens** after what another has. -/
structure Appends (tokens : List Markup.Token) (r r' : Rendition) : Prop where
  /-- They are tokens of documents. -/
  isDocumentToken : ∀ k ∈ tokens, IsDocumentToken k
  /-- They come last in the output. -/
  output_eq : r'.output.toList = r.output.toList ++ tokens.flatMap Markup.Token.written

section Appends

variable {r r' r'' : Rendition} {tokens tokens' : List Markup.Token}

/-- Nothing has been written. -/
theorem Appends.of_output_eq (h : r'.output = r.output) : Appends [] r r' :=
  ⟨nofun, by rw [h, List.flatMap_nil, List.append_nil]⟩

theorem Appends.trans (h : Appends tokens r r') (h' : Appends tokens' r' r'') :
    Appends (tokens ++ tokens') r r'' where
  isDocumentToken k hk := (List.mem_append.1 hk).elim (h.isDocumentToken k) (h'.isDocumentToken k)
  output_eq := by rw [h'.output_eq, h.output_eq, List.flatMap_append, List.append_assoc]

/-- **Tokens are written.** -/
theorem appends_tokens (text : String) (htok : ∀ k ∈ tokens, IsDocumentToken k)
    (hw : text.toList = tokens.flatMap Markup.Token.written)
    (ho : r'.output = r.output ++ text) : Appends tokens r r' :=
  ⟨htok, by rw [ho, String.toList_append, hw]⟩

/-- One token is written. -/
theorem appends_token {k : Markup.Token} (text : String) (hk : IsDocumentToken k)
    (hw : text.toList = k.written) (ho : r'.output = r.output ++ text) : Appends [k] r r' :=
  appends_tokens text (List.forall_mem_singleton.2 hk) (by rw [hw, List.flatMap_singleton]) ho

/-- A start tag without attributes is written. -/
theorem appends_tag (tag : String) (ht : tag ∈ writtenTags)
    (ho : r'.output = r.output ++ ("<" ++ tag ++ ">")) : Appends [.opening tag [] []] r r' := by
  refine appends_token _ (isDocumentToken_tag ht) ?_ ho
  simp [Markup.Token.written, flagAttributes, writtenAttributes]

/-- A start tag with one attribute is written. -/
theorem appends_attribute {value : String} (tag name : String) (ht : tag ∈ writtenTags)
    (hn : name ∈ writtenNames) (hv : '"' ∉ value.toList)
    (ho : r'.output = r.output ++ ("<" ++ tag ++ " " ++ name ++ "=\"" ++ value ++ "\">")) :
    Appends [.opening tag [⟨name, value⟩] []] r r' := by
  refine appends_token _ (isDocumentToken_attribute ht hn hv) ?_ ho
  simp [Markup.Token.written, Attribute.inQuotes, flagAttributes, writtenAttributes]

/-- An end tag is written. -/
theorem appends_closing (tag : String) (ht : tag ∈ writtenTags)
    (ho : r'.output = r.output ++ ("</" ++ tag ++ ">")) : Appends [.closing tag] r r' := by
  refine appends_token _ (isDocumentToken_closing ht) ?_ ho
  simp [Markup.Token.written]

end Appends

/-- **One rendition has written tokens after what another has**, and the
tokens hold a text. -/
def Writes (r r' : Rendition) (text : List Char) : Prop :=
  ∃ tokens : List Markup.Token, (∀ k ∈ tokens, IsDocumentToken k)
    ∧ r'.output.toList = r.output.toList ++ tokens.flatMap Markup.Token.written
    ∧ tokens.flatMap Markup.Token.payload = text

section Writes

variable {r r' r'' : Rendition} {s s' : List Char}

theorem Appends.writes {tokens : List Markup.Token} (h : Appends tokens r r') :
    Writes r r' (tokens.flatMap Markup.Token.payload) :=
  ⟨tokens, h.isDocumentToken, h.output_eq, rfl⟩

/-- Nothing has been written. -/
theorem Writes.of_output_eq (h : r'.output = r.output) : Writes r r' [] :=
  (Appends.of_output_eq h).writes

theorem Writes.trans (h : Writes r r' s) (h' : Writes r' r'' s') : Writes r r'' (s ++ s') := by
  obtain ⟨tokens, htok, hout, rfl⟩ := h
  obtain ⟨tokens', htok', hout', rfl⟩ := h'
  have happend := Appends.trans ⟨htok, hout⟩ ⟨htok', hout'⟩
  exact ⟨_, happend.isDocumentToken, happend.output_eq, List.flatMap_append⟩

end Writes

/-! ## What an event writes -/

/-- **What an event puts into the page as text.** A text that is collected
comes into the page with the code block it belongs to, or not at all. -/
def spoken (r : Rendition) : Event → List Char
  | .text text | .code text => if r.isCapturing then [] else text.toList
  | .softBreak => if r.isCapturing then [] else ['\n']
  | .taskMarker _ => [' ']
  | .stop .codeBlock =>
    match r.captures with
    | .code _ body :: _ => body.toList
    | _ => []
  | _ => []

/-! ## Tags that start and end -/

variable {inline : Bool}

/-- A cell starts with its alignment. -/
theorem exists_appends_openCell (r : Rendition) :
    ∃ attrs, Appends [.opening r.table.cellTag attrs []] r
      (r.openOutside { inline } .tableCell) := by
  have ht := cellTag_mem_writtenTags r.table
  have hcell : ∀ alignment : Alignment, ∃ attrs, Appends [.opening r.table.cellTag attrs []] r
      (r.put ("<" ++ r.table.cellTag ++ alignment.styleAttribute ++ ">")) := by
    intro alignment
    have hstyle : ∀ value, '"' ∉ (value : String).toList →
        alignment.styleAttribute = " style=\"" ++ value ++ "\"" →
        ∃ attrs, Appends [.opening r.table.cellTag attrs []] r
          (r.put ("<" ++ r.table.cellTag ++ alignment.styleAttribute ++ ">")) := by
      intro value hv hs
      refine ⟨_, appends_attribute _ "style" ht (by decide) hv ?_⟩
      exact congrArg (r.output ++ ·) (String.toList_injective (by simp [hs]))
    cases alignment with
    | none =>
      refine ⟨_, appends_tag _ ht ?_⟩
      exact congrArg (r.output ++ ·) (String.toList_injective (by simp [Alignment.styleAttribute]))
    | left => exact hstyle "text-align:left" (by decide) rfl
    | center => exact hstyle "text-align:center" (by decide) rfl
    | right => exact hstyle "text-align:right" (by decide) rfl
  exact hcell _

/-- **A start outside captures** that opens an element writes its tag. -/
theorem exists_appends_openOutside (r : Rendition) {tag : Tag} {t : String} (hv : tag.IsValid)
    (ht : tag.toEnd.element? inline = some t) :
    ∃ attrs, Appends [.opening t attrs []] r (r.openOutside { inline } tag) := by
  have hmem := EndTag.mem_writtenTags hv.toEnd ht
  cases tag with
  | paragraph =>
    cases inline with
    | true => cases ht
    | false =>
      cases ht
      exact ⟨_, appends_tag _ hmem rfl⟩
  | heading level =>
    cases ht
    refine ⟨_, appends_tag _ hmem ?_⟩
    exact congrArg (r.output ++ ·) (String.toList_injective (by simp))
  | list start =>
    cases start with
    | none =>
      cases ht
      exact ⟨_, appends_tag _ hmem rfl⟩
    | some start =>
      cases ht
      unfold openOutside
      dsimp only
      split
      · exact ⟨_, appends_tag _ hmem rfl⟩
      · refine ⟨_, appends_attribute _ "start" hmem (by decide) (fun hq => ?_) rfl⟩
        have hdigits : '"' ∈ Nat.toDigits 10 start := by simpa using hq
        exact absurd (Nat.isDigit_of_mem_toDigits (by decide) (by decide) hdigits) (by decide)
  | link destination title =>
    cases ht
    exact ⟨_, appends_attribute _ "href" hmem (by decide) (by simp) rfl⟩
  | blockQuote | item | tableRow | emphasis | strong | strikethrough | superscript | subscript
  | definitionList | definitionTitle | definition =>
    cases ht
    exact ⟨_, appends_tag _ hmem rfl⟩
  | codeBlock _ | table _ | tableHead | tableCell | image _ _ | htmlBlock | footnoteDefinition _
  | metadata => cases ht

/-- **An end outside captures** that closes an element writes its tag. -/
theorem appends_closeOutside (r : Rendition) {tag : EndTag} {t : String} (hv : tag.IsValid)
    (ht : tag.element? inline = some t) : Appends [.closing t] r (r.closeOutside { inline } tag) := by
  have hmem := EndTag.mem_writtenTags hv ht
  cases tag with
  | paragraph =>
    cases inline with
    | true => cases ht
    | false =>
      cases ht
      exact appends_closing _ hmem rfl
  | heading level =>
    cases ht
    exact appends_closing _ hmem
      (congrArg (r.output ++ ·) (String.toList_injective (by simp)))
  | list ordered =>
    cases ordered <;> cases ht <;> exact appends_closing _ hmem rfl
  | blockQuote | item | tableRow | emphasis | strong | strikethrough | superscript | subscript
  | link | definitionList | definitionTitle | definition =>
    cases ht
    exact appends_closing _ hmem rfl
  | codeBlock | table | tableHead | tableCell | image | htmlBlock | footnoteDefinition
  | metadata => cases ht

/-- A table starts. -/
theorem appends_openTable (r : Rendition) (alignments : List Alignment) :
    Appends [.opening "table" [] []] r (r.openOutside { inline } (.table alignments)) :=
  appends_tag "table" (by decide) rfl

/-- Its head starts, with a row. -/
theorem appends_openHead (r : Rendition) :
    Appends [.opening "thead" [] [], .opening "tr" [] []] r (r.openOutside { inline } .tableHead) :=
  appends_tokens "<thead><tr>"
    (by simp (disch := decide) [isDocumentToken_tag]) rfl rfl

/-- Its head ends, and its body starts. -/
theorem appends_closeHead (r : Rendition) :
    Appends [.closing "tr", .closing "thead", .opening "tbody" [] []] r
      (r.closeOutside { inline } .tableHead) :=
  appends_tokens "</tr></thead><tbody>"
    (by simp (disch := decide) [isDocumentToken_tag, isDocumentToken_closing]) rfl rfl

/-- It ends with its body. -/
theorem appends_closeTable (r : Rendition) :
    Appends [.closing "tbody", .closing "table"] r (r.closeOutside { inline } .table) :=
  appends_tokens "</tbody></table>"
    (by simp (disch := decide) [isDocumentToken_closing]) rfl rfl

/-- A cell ends. -/
theorem appends_closeCell (r : Rendition) :
    Appends [.closing r.table.cellTag] r (r.closeOutside { inline } .tableCell) :=
  appends_closing _ (cellTag_mem_writtenTags r.table) rfl

/-- **A start outside captures** writes a start tag, or two, or nothing. -/
theorem writes_openOutside (r : Rendition) {tag : Tag} (hv : tag.IsValid) :
    Writes r (r.openOutside { inline } tag) [] := by
  cases ht : tag.toEnd.element? inline with
  | some t =>
    obtain ⟨attrs, happend⟩ := exists_appends_openOutside r hv ht
    exact happend.writes
  | none =>
    cases tag with
    | paragraph =>
      cases inline with
      | true => exact .of_output_eq rfl
      | false => cases ht
    | table alignments => exact (appends_openTable r alignments).writes
    | tableHead => exact (appends_openHead r).writes
    | tableCell =>
      obtain ⟨attrs, happend⟩ := exists_appends_openCell r
      exact happend.writes
    | codeBlock _ | image _ _ | htmlBlock | footnoteDefinition _ | metadata =>
      exact .of_output_eq rfl
    | list start => cases start <;> cases ht
    | _ => cases ht

/-- **An end outside captures** writes an end tag, or several tags, or
nothing. -/
theorem writes_closeOutside (r : Rendition) {tag : EndTag} (hv : tag.IsValid) :
    Writes r (r.closeOutside { inline } tag) [] := by
  cases ht : tag.element? inline with
  | some t => exact (appends_closeOutside r hv ht).writes
  | none =>
    cases tag with
    | paragraph =>
      cases inline with
      | true => exact .of_output_eq rfl
      | false => cases ht
    | table => exact (appends_closeTable r).writes
    | tableHead => exact (appends_closeHead r).writes
    | tableCell => exact (appends_closeCell r).writes
    | codeBlock | image | htmlBlock | footnoteDefinition | metadata => exact .of_output_eq rfl
    | list ordered => cases ordered <;> cases ht
    | _ => cases ht

/-- A start begins a capture or is dropped inside one. -/
theorem writes_start (r : Rendition) {tag : Tag} (hv : tag.IsValid) :
    Writes r (r.start { inline } tag) [] := by
  unfold start
  split
  · exact .of_output_eq rfl
  · split
    · exact .of_output_eq rfl
    · exact writes_openOutside r hv

/-! ## Captures that end -/

/-- **An image** is one tag; its text is the value of an attribute. -/
theorem exists_appends_image (r : Rendition) (i : Image) :
    ∃ attrs, Appends [.opening "img" attrs []] r (r.put (Backend.html.image i)) := by
  by_cases ht : i.title = ""
  · have htok : IsDocumentToken
        (.opening "img" [⟨"src", escape i.source⟩, ⟨"alt", escape i.alt⟩] []) :=
      isDocumentToken_opening (by decide)
        (show ∀ name ∈ ["src", "alt"], name ∈ writtenNames by decide)
        (show ["src", "alt"].Nodup by decide) (by simp [flagAttributes])
    refine ⟨_, appends_token _ htok ?_ rfl⟩
    simp [Markup.Token.written, Backend.html, titleAttribute, ht, Attribute.inQuotes, flagAttributes,
      writtenAttributes]
  · have htok : IsDocumentToken (.opening "img"
        [⟨"src", escape i.source⟩, ⟨"title", escape i.title⟩, ⟨"alt", escape i.alt⟩] []) :=
      isDocumentToken_opening (by decide)
        (show ∀ name ∈ ["src", "title", "alt"], name ∈ writtenNames by decide)
        (show ["src", "title", "alt"].Nodup by decide) (by simp [flagAttributes])
    refine ⟨_, appends_token _ htok ?_ rfl⟩
    simp [Markup.Token.written, Backend.html, titleAttribute, ht, Attribute.inQuotes, flagAttributes,
      writtenAttributes]

/-- **A code block** is its code, inside the tags of the block. -/
theorem exists_appends_codeBlock (r : Rendition) (lang : Option String) (body : String) :
    ∃ attrs, Appends [.opening "pre" [] [], .opening "code" attrs [], .text body.toList,
      .closing "code", .closing "pre"] r (r.put (Backend.html.codeBlock lang body)) := by
  have hblock : ∀ k, IsDocumentToken k →
      (Backend.html.codeBlock lang body).toList
        = "<pre>".toList ++ k.written ++ escapeChars body.toList ++ "</code></pre>".toList →
      Appends [.opening "pre" [] [], k, .text body.toList, .closing "code", .closing "pre"] r
        (r.put (Backend.html.codeBlock lang body)) := by
    intro k hk hw
    exact appends_tokens _
      (by simp (disch := decide) [hk, isDocumentToken_text, isDocumentToken_tag,
        isDocumentToken_closing])
      (hw.trans (by simp [Markup.Token.written, flagAttributes, writtenAttributes])) rfl
  cases lang with
  | none =>
    refine ⟨_, hblock (.opening "code" [] []) (isDocumentToken_tag (by decide)) ?_⟩
    simp [Backend.html, Markup.Token.written, flagAttributes, writtenAttributes]
  | some lang =>
    refine ⟨_, hblock (.opening "code" [⟨"class", "language-" ++ escape lang⟩] [])
      (isDocumentToken_attribute (by decide) (by decide) ?_) ?_⟩
    · simp
    · simp [Backend.html, Markup.Token.written, Attribute.inQuotes, flagAttributes, writtenAttributes]

/-- The end of an image writes it, or adds its text to a capture. -/
theorem writes_closeImage (r : Rendition) : Writes r (r.closeImage { inline }) [] := by
  unfold closeImage
  split
  · exact .of_output_eq rfl
  · exact .of_output_eq rfl
  · rename_i i outer _
    unfold pushOr
    split
    · exact .of_output_eq rfl
    · obtain ⟨attrs, happend⟩ := exists_appends_image { r with captures := outer } i
      exact happend.writes

/-- The end of a code block writes it. -/
theorem writes_closeCode (r : Rendition) :
    Writes r (r.closeCode { inline }) (r.spoken (.stop .codeBlock)) := by
  unfold closeCode spoken
  rcases hr : r.captures with _ | ⟨⟨lang, body⟩ | i, outer⟩
  · exact .of_output_eq rfl
  · obtain ⟨attrs, happend⟩ := exists_appends_codeBlock { r with captures := outer } lang body
    have hwrites := happend.writes
    rwa [show ([.opening "pre" [] [], .opening "code" attrs [], .text body.toList, .closing "code",
      .closing "pre"] : List Markup.Token).flatMap Markup.Token.payload = body.toList by simp]
      at hwrites
  · exact .of_output_eq rfl

/-- **An end** closes a capture or is dropped inside one. -/
theorem writes_stop (r : Rendition) {tag : EndTag} (hv : tag.IsValid) :
    Writes r (r.stop { inline } tag) (r.spoken (.stop tag)) := by
  by_cases hcode : tag = .codeBlock
  · rw [hcode]
    exact writes_closeCode r
  · have hspoken : r.spoken (.stop tag) = [] := by
      cases tag <;> simp_all [spoken]
    rw [hspoken]
    unfold stop
    split
    · exact writes_closeImage r
    · exact absurd rfl hcode
    · split
      · exact .of_output_eq rfl
      · exact writes_closeOutside r hv

/-! ## Events -/

/-- A text is collected or written escaped. -/
theorem writes_pushOr (r : Rendition) {text written : String} {s : List Char}
    (h : Writes r (r.put written) s) :
    Writes r (r.pushOr text written) (if r.isCapturing then [] else s) := by
  unfold pushOr isCapturing
  cases r.captures with
  | nil => exact h
  | cons capture outer => exact .of_output_eq rfl

/-- The check box of a task, with a space after it. -/
theorem exists_appends_checkBox (r : Rendition) (checked : Bool) :
    ∃ flags, Appends [.opening "input" [⟨"type", "checkbox"⟩] flags, .text [' ']] r
      (r.put (checkBox checked)) := by
  have hflags : ∀ flags : List String,
      (attributeNames (⟨"type", "checkbox"⟩ :: flagAttributes flags)).Nodup →
      (∀ name ∈ "type" :: flags, name ∈ writtenNames) →
      IsDocumentToken (.opening "input" [⟨"type", "checkbox"⟩] flags) := by
    intro flags hd hn
    refine isDocumentToken_opening (by decide) (fun name hm => hn name ?_) hd (by
      simp [flagAttributes])
    simpa [flagAttributes, attributeNames] using hm
  unfold checkBox
  cases checked with
  | true =>
    exact ⟨["checked", "disabled"], appends_tokens _
      (List.forall_mem_cons.2 ⟨hflags _ (by decide) (by decide),
        List.forall_mem_singleton.2 (isDocumentToken_text [' '])⟩) rfl rfl⟩
  | false =>
    exact ⟨["disabled"], appends_tokens _
      (List.forall_mem_cons.2 ⟨hflags _ (by decide) (by decide),
        List.forall_mem_singleton.2 (isDocumentToken_text [' '])⟩) rfl rfl⟩

/-- A code span is its code inside the tags of one. -/
theorem appends_code (r : Rendition) (text : String) :
    Appends [.opening "code" [] [], .text text.toList, .closing "code"] r
      (r.put ("<code>" ++ escape text ++ "</code>")) :=
  appends_tokens _
    (by simp (disch := decide) [isDocumentToken_text, isDocumentToken_tag, isDocumentToken_closing])
    (by simp [Markup.Token.written, flagAttributes, writtenAttributes]) rfl

/-- **Every event writes tokens** that hold what it puts into the page as
text, unless it copies markup. -/
theorem writes_event (r : Rendition) {e : Event} (hv : e.IsValid) (hm : ¬ e.IsMarkup) :
    Writes r (r.event { inline } e) (r.spoken e) := by
  cases e with
  | start tag => exact writes_start r hv
  | stop tag => exact writes_stop r hv
  | text text =>
    refine writes_pushOr r ?_
    have hput : Writes r (r.put (escape text)) _ :=
      (appends_token _ (isDocumentToken_text text.toList) (toList_escape text) rfl).writes
    simpa using hput
  | code text =>
    refine writes_pushOr r ?_
    have hput := (appends_code r text).writes
    simpa using hput
  | html text => exact absurd trivial hm
  | inlineHtml text => exact absurd trivial hm
  | softBreak =>
    exact writes_pushOr r
      (appends_token "\n" (isDocumentToken_text ['\n']) rfl rfl).writes
  | hardBreak =>
    have hbreak : Writes r (r.pushOr "\n" "<br>") (if r.isCapturing then [] else []) :=
      writes_pushOr r (appends_tag "br" (by decide) rfl).writes
    rwa [ite_self] at hbreak
  | rule => exact (appends_tag "hr" (by decide) rfl).writes
  | taskMarker checked =>
    obtain ⟨flags, happend⟩ := exists_appends_checkBox r checked
    exact happend.writes
  | inlineMath _ | displayMath _ | footnoteReference _ => exact .of_output_eq rfl

/-- **What events put into the page as text**, one after the other. -/
def spokenAll (style : Style) (r : Rendition) : List Event → List Char
  | [] => []
  | e :: events => r.spoken e ++ spokenAll style (r.event style e) events

/-- **A run of events writes tokens.** -/
theorem writes_events (r : Rendition) {events : List Event} (hv : ∀ e ∈ events, e.IsValid)
    (hm : ∀ e ∈ events, ¬ e.IsMarkup) :
    Writes r (events.foldl (event { inline }) r) (r.spokenAll { inline } events) := by
  induction events generalizing r with
  | nil => exact .of_output_eq rfl
  | cons e events ih =>
    exact (writes_event r (hv e List.mem_cons_self) (hm e List.mem_cons_self)).trans
      (ih _ (fun e' he => hv e' (List.mem_cons_of_mem e he))
        fun e' he => hm e' (List.mem_cons_of_mem e he))

/-- **A document is read as texts and elements of documents**, and its
character data are what its events have put there. -/
theorem exists_contents_document (inline : Bool) (table : TableState) {events : List Event}
    (hv : ∀ e ∈ events, e.IsValid) (hm : ∀ e ∈ events, ¬ e.IsMarkup) :
    ∃ cs, (Content.parse (document { inline } { table } events).1).1 = .ok cs
      ∧ (∀ c ∈ cs, c.Only IsDocumentElement)
      ∧ cs.flatMap Content.characters
          = escapeChars (spokenAll { inline } { table } events) := by
  obtain ⟨tokens, htok, hout, hspoken⟩ := writes_events { table } hv hm
  have hempty : Draft.Only IsDocumentElement {} := ⟨nofun, nofun⟩
  have honly : ∀ k ∈ tokens, k.Only IsDocumentElement := fun k hk => (htok k hk).2
  refine ⟨_, Content.parse_tokens (fun k hk => (htok k hk).1) (hout.trans (by simp)),
    (hempty.foldl_take honly).contents, ?_⟩
  have hchars := Draft.characters_foldl_take hempty honly
  rw [hspoken] at hchars
  exact hchars

end Rendition

end PageSlots.Markdown
