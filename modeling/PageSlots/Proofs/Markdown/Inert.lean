import PageSlots.Proofs.Content.Fragment
import PageSlots.Proofs.Markdown.Output

/-!
# A document brings no markup of its own

What a document says – its texts and code, the info strings of its code
blocks, where its links lead, its images with their titles and the text
that stands for them – is never read as markup. Whatever the events are
and however they are nested, as long as none of them copies markup, what
is written can be read, and every element that comes of it is one that a
document is written with (`elements_of_document`).

That is not a property of one event. The page is read as a whole, so an
`&` at the end of one text and a `lt;` at the beginning of the next could
make a reference, and a tag in a value could end the tag around it. It
holds because tokens are read one by one whatever they stand next to.
-/

namespace PageSlots.Markdown

open PageSlots.Markup

/-- **Documents cannot smuggle in markup.** What is written of events that
copy none is read without fault; all its elements have tags and attributes
that documents are written with, and none of its nodes is a comment. The
table that is remembered from an earlier document may be any. -/
theorem elements_of_document (inline : Bool) (table : TableState) {events : List Event}
    (hv : ∀ e ∈ events, e.IsValid) (hm : ∀ e ∈ events, ¬ e.IsMarkup) :
    let r := readFragment (Rendition.document { inline } { table } events).1
    (∃ ids, r.nodes = .ok ids) ∧ ∀ id, r.tree.Within 0 id →
      r.tree.kind id ≠ .comment ∧
      (r.tree.kind id = .element →
        r.tree.tag id ∈ writtenTags ∧ ∀ a ∈ r.tree.attrs id, a.name ∈ writtenNames) := by
  intro r
  obtain ⟨cs, hparse, honly, -⟩ := Rendition.exists_contents_document inline table hv hm
  have hread := readFragment_eq (Rendition.document { inline } { table } events).1
  rw [hparse] at hread
  obtain ⟨hok, -, -, hshows⟩ := hread
  refine ⟨hok, fun id hid => ?_⟩
  have hdocument : (Content.node { kind := .document } cs).Everywhere fun o _ =>
      o.kind ≠ .comment ∧ (o.kind = .element → IsDocumentElement o) := by
    refine .node ⟨nofun, nofun⟩ fun c hc => (honly c hc).mono fun o _ ho => ?_
    rcases ho with ⟨hk, -⟩ | ⟨hk, ho⟩
    · rw [hk]
      exact ⟨nofun, nofun⟩
    · rw [hk]
      exact ⟨nofun, fun _ => ho⟩
  obtain ⟨-, -, hcomment, helement⟩ := hshows.of_everywhere hdocument hid
  refine ⟨hcomment, fun hk => ?_⟩
  obtain ⟨htag, hnames⟩ := helement hk
  exact ⟨htag, fun a ha => hnames a.name (List.mem_map_of_mem ha)⟩

/-- A tag and a quote in a text, in the title of an image that never ends,
and in a code block that has not begun. -/
theorem elements_of_document_unclosed :
    let events : List Event := [.start (.heading 2), .text "<b>", .stop .codeBlock,
      .start (.image "\">" "<script>"), .code "</h2>", .stop .emphasis]
    let r := readFragment (Rendition.document {} {} events).1
    (∀ e ∈ events, e.IsValid) ∧ (∀ e ∈ events, ¬ e.IsMarkup) ∧
      (∃ ids, r.nodes = .ok ids) ∧ ∀ id, r.tree.Within 0 id →
        r.tree.kind id ≠ .comment ∧
        (r.tree.kind id = .element →
          r.tree.tag id ∈ writtenTags ∧ ∀ a ∈ r.tree.attrs id, a.name ∈ writtenNames) :=
  ⟨by decide, by decide, elements_of_document false {} (by decide) (by decide)⟩

end PageSlots.Markdown
