import PageSlots.Proofs.Page.Outcome
import PageSlots.Proofs.Page.Parallel
import PageSlots.Proofs.Slot.MarkerPlace

/-!
# One marker in two spellings

A page may have a marker as `slot="name"` or, at the same place, as
`#name`. The contents of the two pages are alike, the document over them is
the same, and the first pass makes of both the same contents with the same
calls of the renderer. So processing gives the same page, or none for
either (`process_olderSpelling_eq`).

The names are not taken as they are written. The newer spelling is the name
of an attribute, which is read in small letters, and the older one is a
value, which is not; nothing makes up for that later. The newer spelling of
a name is that of the older one in small letters, and the two differ for a
name with a capital letter (`exists_process_olderSpelling_ne`).
-/

namespace PageSlots.Page

open PageSlots.Component PageSlots.Markup PageSlots.Markup.Content PageSlots.Markup.MarkerPlace
open PageSlots.Text

variable {p : Processor} {file : String} {slot : List Char} {m : MarkerPlace} {z : Draft}
variable {attrs : List (List Char × List Char)}

/-- **Both spellings of a marker give the same page.** For every page that
is not markdown, every place outside regions where an element has its only
marker, every name of letters, digits and hyphens, and every renderer: with
the newer spelling of the name and with the older one of the name in small
letters processing succeeds on both or on neither, gives the same text, and
calls the renderer alike. -/
theorem process_olderSpelling_eq (hp : p.rules = builtIn) (hfile : isMarkdownFile file = false)
    (hs : IsSlotText slot) (hm : m.Marks (olderSpelling (asciiLower slot)) z attrs) :
    let older := p.process file (m.page (olderSpelling (asciiLower slot)))
    let newer := p.process file (m.page (newerSpelling slot))
    older.page.toOption = newer.page.toOption ∧ older.calls = newer.calls := by
  intro older newer
  have holder := process_eq_outcome p file (m.page (olderSpelling (asciiLower slot)))
  have hnewer := process_eq_outcome p file (m.page (newerSpelling slot))
  have hmarkup : ∀ content, Value.resolvePage p file content = Value.read content >>= fun cs =>
      Value.resolveTo p p.maxDepth (.node { kind := .document } cs) := fun content => by
    rw [Value.resolvePage, Value.markupOf, if_neg (by simp [hfile]), pure_bind]
  rw [hmarkup] at holder hnewer
  have hrules : ∀ rule ∈ p.rules, ∀ r ∈ rule.renames, r.target ≠ "" := fun rule hrule r hr =>
    ((orderly_of_mem_builtIn (hp ▸ hrule)).target_ne r hr).1
  rcases hm.parse_alike hs with ⟨cs, cs', log, hall, hold, hnew⟩ | ⟨f, f', log, log', hold, hnew⟩
  · have hread : ∀ {content : String} {ds : List Content}, Content.parse content = (.ok ds, log) →
        Value.read content { context := { file } } = .ok ds ⟨{ file }, [], log⟩ := by
      intro content ds h
      rw [Value.read, h]
      rfl
    -- the document is no region, so what hangs from it may differ
    have hinside : AlikeInside (.node { kind := .document } cs) (.node { kind := .document } cs') :=
      .node _ hall fun hne => absurd rfl hne
    rw [bind_of_ok (hread hold), resolveTo_eq_of_alikeInside hrules p.maxDepth hinside] at holder
    rw [bind_of_ok (hread hnew), ← holder] at hnewer
    obtain ⟨hpage, hcalls⟩ := Prod.mk.inj hnewer
    exact ⟨congrArg Except.toOption hpage.symm, hcalls.symm⟩
  · have hread : ∀ {content : String} {fault : MarkupFault} {log : Log},
        Content.parse content = (.error fault, log) →
        Value.read content { context := { file } } = .error (.markup fault) ⟨{ file }, [], log⟩ := by
      intro content fault log h
      rw [Value.read, h]
      rfl
    rw [bind_of_error (hread hold)] at holder
    rw [bind_of_error (hread hnew)] at hnewer
    obtain ⟨hpage, hcalls⟩ := Prod.mk.inj holder
    obtain ⟨hpage', hcalls'⟩ := Prod.mk.inj hnewer
    exact ⟨(congrArg Except.toOption hpage).trans (congrArg Except.toOption hpage').symm,
      hcalls.trans hcalls'.symm⟩

/-- A child of a panel, whose marker stands between two attributes and is
written with a capital letter in the newer spelling. -/
theorem process_olderSpelling_eq_panel :
    let p : Processor := { renderer := .ofFunction fun call => .ok call.source }
    let older := p.process "page.html"
      "<panel><p id=\"i\" slot=\"header\" class=\"c\">t</p></panel>"
    let newer := p.process "page.html" "<panel><p id=\"i\" #Header class=\"c\">t</p></panel>"
    older.page.toOption = newer.page.toOption ∧ older.calls = newer.calls := by
  intro p
  let m : MarkerPlace := {
    front := "<panel>".toList
    name := "p".toList
    earlier := " id=\"i\" ".toList
    later := " class=\"c\"".toList
    rest := "t</p></panel>".toList }
  let slot := "Header".toList
  let spelling := olderSpelling (asciiLower slot)
  let panel : Own := { kind := .element, tag := "panel" }
  let z : Draft := { outer := [(panel, [])] }
  have hadd : Draft.add {} (.startTag "panel".toList) (m.tail spelling)
      = (.ok (m.tail spelling), z) := by
    rw [Draft.add, show Own.ofTag? "panel".toList = .ok panel by decide +kernel]
    rfl
  have hcomes : Draft.ComesTo {} (m.front ++ m.tail spelling) z (m.tail spelling) :=
    .step rfl rfl hadd (.here rfl)
  have hread : readAttribute (m.earlier ++ (spelling ++ unslashed m.later))
      = some (.ok (("id".toList, "i".toList), ' ' :: (spelling ++ unslashed m.later))) := by decide
  have hattrs : AttributesTo (m.earlier ++ (spelling ++ unslashed m.later))
      [("id".toList, "i".toList)] (spelling ++ unslashed m.later) :=
    .step hread (.here _)
  have hm : m.Marks spelling z [("id".toList, "i".toList)] := {
    opens := ⟨'p', [], rfl, by decide⟩
    comes := hcomes
    ends := by decide
    named := by decide
    attributes := hattrs
    outside := by decide
    only := by decide +kernel
    blank := fun c hc => by
      cases hc
      rfl
    noValue := by decide }
  have holder : m.page spelling
      = "<panel><p id=\"i\" slot=\"header\" class=\"c\">t</p></panel>" := by decide
  have hnewer : m.page (newerSpelling slot)
      = "<panel><p id=\"i\" #Header class=\"c\">t</p></panel>" := by decide
  have hfile : isMarkdownFile "page.html" = false := by decide +kernel
  have h := process_olderSpelling_eq (p := p) rfl hfile (by decide : IsSlotText slot) hm
  rwa [holder, hnewer] at h

/-- **A capital letter tells the spellings apart**: the older one keeps it,
the newer one does not. -/
theorem exists_process_olderSpelling_ne :
    ∃ (p : Processor) (slot : List Char) (m : MarkerPlace), p.rules = builtIn ∧ IsSlotText slot
      ∧ m.Marks (olderSpelling slot) {} []
      ∧ (p.process "page.html" (m.page (olderSpelling slot))).page
        = .ok "<template #A><p>t</p></template>"
      ∧ (p.process "page.html" (m.page (newerSpelling slot))).page
        = .ok "<template #a><p>t</p></template>" := by
  let m : MarkerPlace := ⟨[], ['p'], [' '], [], "t</p>".toList⟩
  have hm : m.Marks (olderSpelling ['A']) {} [] := {
    opens := ⟨'p', [], rfl, by decide⟩
    comes := .here rfl
    ends := by decide
    named := by decide
    attributes := .here _
    outside := nofun
    only := by decide +kernel
    blank := nofun
    noValue := by decide }
  exact ⟨{ renderer := .ofFunction fun call => .ok call.source }, ['A'], m, rfl, by decide, hm,
    by decide +kernel, by decide +kernel⟩

end PageSlots.Page
