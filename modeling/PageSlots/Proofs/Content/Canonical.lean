import PageSlots.Proofs.Content.Clean

/-!
# Reading what was written

Most of what stands in a page is simpler than what is clean:
`Content.Canonical` is the grammar of plain tags, plain names and texts in
which nothing opens a construct. Written and read again, a canonical page
is the same page (`readFragment_innerHtml`).
-/

namespace PageSlots.Markup

open PageSlots.Text

namespace Content

/-- **What is read as it is written.** -/
inductive Canonical : Content → Prop where
  /-- A text that is not empty and opens nothing. -/
  | text {text : String} : text ≠ "" → IsPlainText text.toList →
      Canonical (.node { kind := .text, text } [])
  /-- A comment. -/
  | comment {text : String} : IsPlainComment text.toList →
      Canonical (.node { kind := .comment, text } [])
  /-- A void element, without children. -/
  | void {tag : String} {attrs : List Attribute} : IsPlainTag tag → isVoidTag tag = true →
      (∀ a ∈ attrs, a.IsPlain) → (attributeNames attrs).Nodup →
      Canonical (.node { kind := .element, tag, attrs } [])
  /-- A raw text element without a body. -/
  | rawEmpty {tag : String} {attrs : List Attribute} : IsPlainTag tag →
      isRawTextTag tag = true → (∀ a ∈ attrs, a.IsPlain) → (attributeNames attrs).Nodup →
      Canonical (.node { kind := .element, tag, attrs } [])
  /-- A raw text element whose body, not empty, does not hold its end. -/
  | raw {tag : String} {attrs : List Attribute} {text : String} : IsPlainTag tag →
      isRawTextTag tag = true → (∀ a ∈ attrs, a.IsPlain) → (attributeNames attrs).Nodup →
      text ≠ "" → (breakRawText tag.toList text.toList).2 = [] →
      Canonical (.node { kind := .element, tag, attrs } [.node { kind := .text, text } []])
  /-- Any other element, over canonical children. -/
  | element {tag : String} {attrs : List Attribute} {cs : List Content} : IsPlainTag tag →
      isVoidTag tag = false → isRawTextTag tag = false → (∀ a ∈ attrs, a.IsPlain) →
      (attributeNames attrs).Nodup → NoTextsMeet cs → (∀ c ∈ cs, Canonical c) →
      Canonical (.node { kind := .element, tag, attrs } cs)

/-- **A canonical page**: a document over canonical contents. -/
structure CanonicalPage (c : Content) : Prop where
  /-- The page hangs from a document. -/
  own_eq : c.own = { kind := .document }
  /-- No two texts stand side by side. -/
  noTextsMeet : NoTextsMeet c.children
  /-- What hangs from the document is canonical. -/
  canonical : ∀ d ∈ c.children, d.Canonical

variable {c : Content}

/-- **What is canonical is clean.** -/
theorem Canonical.clean (h : c.Canonical) : c.Clean := by
  induction c with
  | node o cs ih =>
    cases h with
    | text hne hplain => exact .text hne (.plain hplain)
    | comment hplain => exact .comment hplain.not_end
    | void ht hv ha hn => exact .void (ht.isCleanStart ha hn) hv
    | rawEmpty ht hr ha hn => exact .raw (ht.isCleanStart ha hn) hr .empty
    | raw ht hr ha hn hne hbody => exact .raw (ht.isCleanStart ha hn) hr (.text hne hbody)
    | element ht hv hr ha hn hm hcs =>
      exact .element (ht.isCleanStart ha hn) hv hr hm fun c hc => ih c hc (hcs c hc)

end Content

/-! ## Pages -/

/-- **Writing a canonical page and reading it again gives the same page**,
up to the numbers of its nodes: what hangs from a document is written, and
the document of the tree that is read shows what the first one showed. -/
theorem readFragment_innerHtml {t : Tree} {root : NodeId} {c : Content} (h : t.WellFormed)
    (hc : t.Shows root c) (hp : c.CanonicalPage) :
    (∃ ids, (readFragment (t.innerHtml root)).nodes = .ok ids)
      ∧ (readFragment (t.innerHtml root)).tree.Shows 0 c := by
  obtain ⟨o, cs⟩ := c
  have ho : o = { kind := .document } := hp.own_eq
  subst ho
  have hcan : ∀ d ∈ cs, d.Canonical := hp.canonical
  have hparse : (Content.parse (t.innerHtml root)).1 = .ok cs :=
    Content.parse_written (fun d hd => (hcan d hd).clean) hp.noTextsMeet
      (h.toList_innerHtml hc.children)
  have hread := readFragment_eq (t.innerHtml root)
  rw [hparse] at hread
  exact ⟨hread.1, hread.2.2.2⟩

open PageSlots.Markup.Tree Content in
/-- A paragraph with an attribute, a text and a line break. -/
theorem readFragment_innerHtml_paragraph :
    let t := (readFragment "<p id=\"a\">x<br></p>").tree
    let c : Content := .node { kind := .document }
      [.node { kind := .element, tag := "p", attrs := [⟨"id", "a"⟩] }
        [.node { kind := .text, text := "x" } [], .node { kind := .element, tag := "br" } []]]
    t.WellFormed ∧ t.Shows 0 c ∧ c.CanonicalPage
      ∧ (∃ ids, (readFragment (t.innerHtml 0)).nodes = .ok ids)
      ∧ (readFragment (t.innerHtml 0)).tree.Shows 0 c := by
  intro t c
  have hok : (readFragment "<p id=\"a\">x<br></p>").nodes = .ok [2] := by decide +kernel
  have hwf : t.WellFormed := (readFragment_of_ok hok).1
  have h₀ : t.children 0 = [2] := by decide +kernel
  have h₂ : t.children 2 = [3, 4] := by decide +kernel
  have h₃ : t.children 3 = [] := by decide +kernel
  have h₄ : t.children 4 = [] := by decide +kernel
  have hs₃ : t.Shows 3 (.node { kind := .text, text := "x" } []) :=
    shows_node.2 ⟨by decide +kernel, h₃ ▸ .nil⟩
  have hs₄ : t.Shows 4 (.node { kind := .element, tag := "br" } []) :=
    shows_node.2 ⟨by decide +kernel, h₄ ▸ .nil⟩
  have hs : t.Shows 0 c := by
    refine shows_node.2 ⟨by decide +kernel, h₀ ▸ .cons (shows_node.2 ⟨by decide +kernel, ?_⟩) .nil⟩
    exact h₂ ▸ .cons hs₃ (.cons hs₄ .nil)
  have hx : Canonical (.node { kind := .text, text := "x" } []) := by
    refine .text (by decide) fun before after h => ?_
    have : '<' ∈ "x".toList := by simp [h]
    exact absurd this (by decide)
  have hbr : Canonical (.node { kind := .element, tag := "br" } []) :=
    .void ⟨'b', ['r'], rfl, rfl, by simp [IsTagChar]⟩ (by decide) nofun (by decide)
  have hp : c.CanonicalPage := {
    own_eq := rfl
    noTextsMeet := .singleton _
    canonical := fun d hd => by
      rw [List.mem_singleton.1 hd]
      refine .element ⟨'p', [], rfl, rfl, nofun⟩ (by decide) (by decide) (fun a ha => ?_)
        (by decide) (.cons_cons (by simp [IsText]) (.singleton _)) fun e he => ?_
      · rw [List.mem_singleton.1 ha]
        refine ⟨by decide, ?_, by decide⟩
        show ∀ c ∈ ['i', 'd'], IsNameChar c
        exact List.forall_mem_cons.2 ⟨by decide, List.forall_mem_singleton.2 (by decide)⟩
      · rcases List.mem_cons.1 he with rfl | he
        · exact hx
        · rw [List.mem_singleton.1 he]
          exact hbr }
  obtain ⟨hread, hback⟩ := readFragment_innerHtml hwf hs hp
  exact ⟨hwf, hs, hp, hread, hback⟩

end PageSlots.Markup
