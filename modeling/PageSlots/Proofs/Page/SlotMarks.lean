import PageSlots.Proofs.Content.Joined
import PageSlots.Proofs.Content.Legible
import PageSlots.Proofs.Page.Idempotence
import PageSlots.Proofs.Page.Made

/-!
# Slots in the written page

The page template is given the written page and reads it again, so the
slots of a page are those that it finds there. Each slot stands in the
name of an attribute of a `template`, and a name is written as it is: it
has to be one that is read as it was.

A name that an author wrote as a name is of this kind. But an older marker
has the slot in its value, and a value can hold anything. What becomes of
it as a name is not always what it was: a name ends at a blank and at an
equals sign, its capital letters are made small, and a quote in it opens a
value (`exists_slotMarks_ne`).

Slots whose names hold neither capital letters nor blanks survive in a page
that is legible (`slotMarks_of_resolvePage`). The page need not be as it
would be read: texts may meet, and blanks at its ends are not written.
Neither makes a difference to what is found in elements.
-/

namespace PageSlots.Markup

open PageSlots.Slot

/-! ## Slots with their elements -/

/-- The tag of an element that fills a slot, and the slot. -/
def Own.slotMark (o : Own) : Option (String × String) :=
  o.slotName.map fun slot => (o.tag, slot)

/-- **The elements that fill slots**, in document order: their tags and
their slots. -/
def Tree.slotMarks (t : Tree) (id : NodeId) : List (String × String) :=
  (t.descendants id).filterMap fun x => (t.slotName x).map fun slot => (t.tag x, slot)

namespace Tree.WellFormed

variable {t : Tree} {id : NodeId} {c : Content}

/-- What is looked for in a node and below it is found in what it shows. -/
theorem filterMap_own_descendants (h : t.WellFormed) (hid : id < t.size) (hc : t.Shows id c)
    {β : Type} (f : Own → Option β) :
    (t.descendants id).filterMap (fun x => f (t.own x)) = c.found f := by
  rw [Content.found, ← h.map_own_descendants hid hc, List.filterMap_map]
  rfl

theorem slotMarks_eq (h : t.WellFormed) (hid : id < t.size) (hc : t.Shows id c) :
    t.slotMarks id = c.found Own.slotMark := by
  rw [← h.filterMap_own_descendants hid hc]
  exact List.filterMap_congr fun x _ => by rw [slotName_eq_own, tag_eq_own, Own.slotMark]

end Tree.WellFormed

theorem Own.slotMark_of_ne {o : Own} (hk : o.kind ≠ .element) : o.slotMark = none := by
  rw [slotMark, slotName, if_neg hk]
  rfl

/-- What is looked for in the own data of quoted contents. -/
theorem Content.found_quoted {β : Type} (f : Own → Option β) (c : Content) :
    c.quoted.found f = c.found fun o => f o.quoted := by
  induction c with
  | node o cs ih =>
    rw [quoted_node, found_node, found_node, List.flatMap_map, List.flatMap_congr ih]

/-- A node without an older marker is marked by names alone. -/
theorem Own.slotMark_quoted {o : Own} (h : o.kind = .element → legacyName ∉ o.names) :
    o.quoted.slotMark = o.slotMark := by
  by_cases hk : o.kind = .element
  · have hnames : o.quoted.names = o.names := attributeNames_map_quoted o.attrs
    have hmarker : o.quoted.marker? = o.marker? := by
      unfold marker? findMarker quoted
      rw [List.find?_map, Option.map_map]
      rfl
    have hlegacy : o.quoted.attr? legacyName = o.attr? legacyName := by
      rw [attr?_eq_none_iff.2 (h hk), attr?_eq_none_iff.2 (hnames ▸ h hk)]
    unfold slotMark slotName
    rw [hmarker, hlegacy]
    rfl
  · rw [slotMark_of_ne hk, slotMark_of_ne (o := o.quoted) hk]

/-! ## Slots that are read -/

/-- The marker for a slot is read as it is if the slot is. -/
theorem isReadName_of_slot {name : String} (h : isMarker name = true)
    (hslot : ∀ c ∈ (slotOfMarker name).toList, IsReadChar c) : IsReadName name := by
  unfold isMarker at h
  split at h
  · rename_i d cs hname
    refine ⟨fun he => ?_, fun c hc => ?_⟩
    · rw [he] at hname
      cases hname
    · rw [slotOfMarker, String.toList_ofList, hname] at hslot
      rw [hname] at hc
      rcases List.mem_cons.1 hc with rfl | hc
      · exact ⟨by decide, by decide⟩
      · exact hslot c hc
  · cases h

namespace Content

variable {c : Content}

/-- In what has been made texts have no children. -/
theorem IsMade.textsAreLeaves (h : c.IsMade) : c.TextsAreLeaves := by
  induction c with
  | node o cs ih =>
    refine .node (fun ht => ?_) fun d hd => ih d hd (h.children d hd)
    cases h with
    | text _ => rfl
    | comment _ => rfl
    | element ho _ _ => exact absurd (ho.kind_eq.symm.trans ht) nofun

/-- **What has been made is read once texts that meet are joined**, if the
names of slots are. -/
theorem IsMade.isRead_joined (h : c.IsMade)
    (hm : ∀ m ∈ c.found Own.slotMark, ∀ char ∈ m.2.toList, IsReadChar char) :
    c.joined.IsRead := by
  induction c with
  | node o cs ih =>
    rw [joined_node]
    rw [found_node] at hm
    have hrow : IsReadRow (joinTexts (cs.map joined)) := isReadRow_joinTexts fun d hd => by
      obtain ⟨e, he, rfl⟩ := List.mem_map.1 hd
      exact ih e he (h.children e he) fun m hme =>
        hm m (List.mem_append_right _ (List.mem_flatMap.2 ⟨e, he, hme⟩))
    cases h with
    | text hne => exact .text hne
    | comment hend => exact .comment hend
    | element ho hv hcs =>
      rw [ho.eq]
      refine .element ⟨ho.tag, fun name hname => ?_, ho.nodup⟩ (fun hvoid => ?_) hrow.noTextsMeet
        hrow.isRead
      · rcases ho.names name hname with hfirst | hread
        · have hslot : o.slotName = some (slotOfMarker name) := by
            rw [Own.slotName, if_pos ho.kind_eq, hfirst]
          refine isReadName_of_slot (Own.isMarker_of_marker? hfirst) (hm (o.tag, _) ?_)
          rw [Own.slotMark, hslot]
          exact List.mem_append_left _ List.mem_cons_self
        · exact hread
      · rw [hv hvoid]
        rfl

/-- **What is written of what has been made is read again**, without the
blanks at its ends, if it is legible once its texts are joined and the names
of its slots are read. What is looked for in elements is found as before,
in quoted data. -/
theorem parse_trim_written {cs : List Content} (h : ∀ d ∈ cs, d.IsMade)
    (hl : ∀ d ∈ joinTexts (cs.map joined), d.Legible)
    (hm : ∀ m ∈ cs.flatMap (found Own.slotMark), ∀ char ∈ m.2.toList, IsReadChar char)
    {page : String} (hpage : page.toList = Text.trim (cs.flatMap written)) :
    ∃ ds, (parse page).1 = .ok ds ∧ ∀ {β : Type} {f : Own → Option β},
      (∀ o : Own, o.kind = .text → f o = none) →
        ds.flatMap (found f) = cs.flatMap (found fun o => f o.quoted) := by
  have hrow : IsReadRow (joinTexts (cs.map joined)) := isReadRow_joinTexts fun d hd => by
    obtain ⟨e, he, rfl⟩ := List.mem_map.1 hd
    exact (h e he).isRead_joined fun m hme => hm m (List.mem_flatMap.2 ⟨e, he, hme⟩)
  have hwritten : ((joinTexts (cs.map joined)).map quoted).flatMap written = cs.flatMap written := by
    rw [flatMap_written_map_quoted, flatMap_written_joinTexts, List.flatMap_map,
      List.flatMap_congr fun d _ => d.written_joined]
  obtain ⟨ds, htrims⟩ := exists_trims (hrow.clean_quoted hl) hrow.noTextsMeet.map_quoted
  refine ⟨ds, parse_written htrims.clean htrims.noTextsMeet ?_, fun {β f} hf => ?_⟩
  · rw [hpage, htrims.written_eq, hwritten]
  · have hq : ∀ o : Own, o.kind = .text → f o.quoted = none := fun o ho => hf o.quoted ho
    have hleaf : ∀ d ∈ cs, d.TextsAreLeaves := fun d hd => (h d hd).textsAreLeaves
    calc ds.flatMap (found f)
        = ((joinTexts (cs.map joined)).map quoted).flatMap (found f) := htrims.found_eq hf
      _ = (joinTexts (cs.map joined)).flatMap (found fun o => f o.quoted) := by
          rw [List.flatMap_map, List.flatMap_congr fun d _ => found_quoted f d]
      _ = (cs.map joined).flatMap (found fun o => f o.quoted) :=
          (found_joinTexts hq fun d hd => by
            obtain ⟨e, he, rfl⟩ := List.mem_map.1 hd
            exact (found_joined hq (hleaf e he)).1).2
      _ = cs.flatMap (found fun o => f o.quoted) := by
          rw [List.flatMap_map, List.flatMap_congr fun d hd => (found_joined hq (hleaf d hd)).2]

end Content

end PageSlots.Markup

/-! ## Pages -/

namespace PageSlots.Page

open PageSlots.Component PageSlots.Markup PageSlots.Markup.Content PageSlots.Markup.Tree
open PageSlots.Slot

/-- **What the passes over a page do**: they read the markup of the page,
resolve it and derive ids, and the page is what is written of it without
the blanks at its ends. -/
theorem exists_of_resolvePage {p : Processor} {file content page : String}
    {calls : List RenderCall} {log : Log} {run : Run}
    (hok : p.resolvePage file content { tree := .empty, context := { file }, calls, log }
      = .ok page run) :
    ∃ (markup : String) (ids : List NodeId) (calls : List RenderCall) (log : Log) (mid : Run),
      (readFragment markup).nodes = .ok ids
        ∧ p.resolve 0 { tree := (readFragment markup).tree, context := { file }, calls, log }
          = .ok () mid
        ∧ run.tree = (p.deriveIds mid.tree 0).2
        ∧ page = String.ofList (Text.trim (run.tree.innerHtml 0).toList) := by
  unfold Processor.resolvePage at hok
  obtain ⟨markup, run₁, hmarkup, hok⟩ := exists_of_bind_ok hok
  have hrun₁ : run₁.tree = .empty ∧ run₁.context = { file } := by
    unfold Processor.markupOf at hmarkup
    split at hmarkup
    · unfold render at hmarkup
      dsimp only at hmarkup
      split at hmarkup
      · cases hmarkup
        exact ⟨rfl, rfl⟩
      · cases hmarkup
    · cases hmarkup
      exact ⟨rfl, rfl⟩
  obtain ⟨tree₁, context₁, calls₁, log₁⟩ := run₁
  obtain ⟨rfl, rfl⟩ := hrun₁
  obtain ⟨root, run₂, hroot, hok⟩ := exists_of_bind_ok hok
  obtain ⟨rfl, rfl⟩ : root = 0 ∧ run₂ = ⟨Tree.empty.createDocument.2, { file }, calls₁, log₁⟩ := by
    cases hroot
    exact ⟨rfl, rfl⟩
  obtain ⟨_, run₃, hread, hok⟩ := exists_of_bind_ok hok
  obtain ⟨⟨ids, hids⟩, log₃, rfl⟩ : (∃ ids, (readFragment markup).nodes = .ok ids)
      ∧ ∃ log₃, run₃ = ⟨(readFragment markup).tree, { file }, calls₁, log₃⟩ := by
    unfold readInto at hread
    dsimp only at hread
    split at hread
    · rename_i ids hids
      cases hread
      exact ⟨⟨ids, hids⟩, _, rfl⟩
    · cases hread
  obtain ⟨_, mid, hresolve, hok⟩ := exists_of_bind_ok hok
  rw [bind_of_ok (editTree_eq _ mid), bind_of_ok (tell_eq _ _), bind_of_ok (getTree_eq _)] at hok
  obtain ⟨rfl, rfl⟩ := EStateM.Result.ok.inj hok
  exact ⟨markup, ids, calls₁, log₃, mid, hids, hresolve, rfl, rfl⟩

/-- **No element of a page that is left alone has an older marker**, so
quoting leaves its marks. -/
theorem LeftAlone.found_slotMark_quoted {p : Processor} {t : Tree} {c : Content}
    (h : LeftAlone p t) (hc : t.Shows 0 c) :
    (c.found fun o => o.quoted.slotMark) = c.found Own.slotMark := by
  rw [← h.wellFormed.filterMap_own_descendants h.pos hc,
    ← h.wellFormed.filterMap_own_descendants h.pos hc]
  refine List.filterMap_congr fun x hx => Own.slotMark_quoted fun hk => ?_
  have hbelow := (h.wellFormed.mem_descendants_iff h.pos).1 hx
  exact ((h.ruled x hbelow (isElement_iff.2 hk)).placed hk).1

/-- **The slots of a page survive in what is written of it.** Whatever the
content, the renderer and the anchor class: if the passes over a page
return, the page is legible once its texts are joined, and no slot has a
capital letter or a blank in its name, then the written page is read, and
the same elements fill the same slots in it, in the same order. -/
theorem slotMarks_of_resolvePage {p : Processor} (hp : p.rules = builtIn)
    {file content page : String} {calls : List RenderCall} {log : Log} {run : Run}
    (hok : p.resolvePage file content { tree := .empty, context := { file }, calls, log }
      = .ok page run)
    {c : Content} (hc : run.tree.Shows 0 c) (hl : ∀ d ∈ c.joined.children, d.Legible)
    (hm : ∀ m ∈ run.tree.slotMarks 0, ∀ char ∈ m.2.toList, IsReadChar char) :
    (∃ ids, (readFragment page).nodes = .ok ids)
      ∧ (readFragment page).tree.slotMarks 0 = run.tree.slotMarks 0 := by
  obtain ⟨markup, ids, calls', log', mid, hread, hresolve, htree, hpage⟩ :=
    exists_of_resolvePage hok
  have hdone := leftAlone_of_readFragment hp hread hresolve
  obtain ⟨hdoc, hmade⟩ := isMade_of_resolve hp hread hresolve (htree ▸ hc)
  rw [← htree] at hdone
  have hquoted := hdone.found_slotMark_quoted hc
  have hmarks := hdone.wellFormed.slotMarks_eq hdone.pos hc
  obtain ⟨o, cs⟩ := c
  dsimp only [own_node, children_node] at hdoc hmade
  -- the document fills no slot, so the slots are those of what hangs from it
  have hne : o.kind ≠ .element := by
    rw [hdoc]
    exact nofun
  rw [found_of_none (f := fun o => o.quoted.slotMark) (Own.slotMark_of_ne (o := o.quoted) hne),
    ← hmarks] at hquoted
  rw [found_of_none (Own.slotMark_of_ne hne)] at hmarks
  have htext : page.toList = Text.trim (cs.flatMap written) := by
    rw [hpage, String.toList_ofList, hdone.wellFormed.toList_innerHtml hc.children,
      children_node]
  rw [joined_node, children_node] at hl
  obtain ⟨ds, hparse, hfound⟩ := parse_trim_written hmade hl (hmarks ▸ hm) htext
  have hagain := readFragment_eq page
  rw [hparse] at hagain
  obtain ⟨hok', hwf', hsize', hshows⟩ := hagain
  refine ⟨hok', ?_⟩
  rw [hwf'.slotMarks_eq hsize' hshows, found_of_none rfl,
    hfound fun o ho => Own.slotMark_of_ne (by rw [ho]; nofun), hquoted]

/-- A paragraph with an older marker. -/
theorem slotMarks_of_resolvePage_paragraph :
    let p : Processor := { renderer := .ofFunction fun call => .ok call.source }
    ∃ page run, p.resolvePage "page.html" "<p slot=\"a\">t</p>"
        { tree := .empty, context := { file := "page.html" } } = .ok page run
      ∧ run.tree.slotMarks 0 = [("template", "a")]
      ∧ (∃ ids, (readFragment page).nodes = .ok ids)
      ∧ (readFragment page).tree.slotMarks 0 = run.tree.slotMarks 0 := by
  intro p
  obtain ⟨page, run, hok⟩ := exists_of_returns (show returns (p.resolvePage "page.html"
    "<p slot=\"a\">t</p>" { tree := .empty, context := { file := "page.html" } }) = true by
    decide +kernel)
  have htree : treeAfter (p.resolvePage "page.html" "<p slot=\"a\">t</p>"
      { tree := .empty, context := { file := "page.html" } }) = run.tree := by
    rw [hok]
    rfl
  let text : Content := .node { kind := .text, text := "t" } []
  let paragraph : Content := .node { kind := .element, tag := "p" } [text]
  let host : Content := .node (Own.wrapper "#a") [paragraph]
  have h₀ : run.tree.own 0 = { kind := .document } ∧ run.tree.children 0 = [4] := by
    rw [← htree]
    decide +kernel
  have h₄ : run.tree.own 4 = Own.wrapper "#a" ∧ run.tree.children 4 = [2] := by
    rw [← htree]
    decide +kernel
  have h₂ : run.tree.own 2 = { kind := .element, tag := "p" } ∧ run.tree.children 2 = [3] := by
    rw [← htree]
    decide +kernel
  have h₃ : run.tree.own 3 = { kind := .text, text := "t" } ∧ run.tree.children 3 = [] := by
    rw [← htree]
    decide +kernel
  have hs₃ : run.tree.Shows 3 text := shows_node.2 ⟨h₃.1, h₃.2 ▸ .nil⟩
  have hs₂ : run.tree.Shows 2 paragraph := shows_node.2 ⟨h₂.1, h₂.2 ▸ .cons hs₃ .nil⟩
  have hs₄ : run.tree.Shows 4 host := shows_node.2 ⟨h₄.1, h₄.2 ▸ .cons hs₂ .nil⟩
  have hs₀ : run.tree.Shows 0 (.node { kind := .document } [host]) :=
    shows_node.2 ⟨h₀.1, h₀.2 ▸ .cons hs₄ .nil⟩
  have hmarks : run.tree.slotMarks 0 = [("template", "a")] := by
    rw [← htree]
    decide +kernel
  -- no texts meet, so the page is as it is joined
  have hjoined : (Content.node { kind := .document } [host]).joined.children = [host] := by
    simp only [host, paragraph, text, joined_node, List.map_cons, List.map_nil, joinTexts, joinText,
      children_node]
  have hplain : IsPlainText "t".toList := isPlainText_of_breakAtConstruct (by decide)
  have hlegible : host.Legible := by
    refine .element rfl (by decide) (by decide)
      (List.forall_mem_singleton.2 ?_)
    refine .element rfl (by decide) (by decide)
      (List.forall_mem_singleton.2 ?_)
    exact .text rfl (.plain hplain)
  obtain ⟨hread, hsame⟩ := slotMarks_of_resolvePage rfl hok hs₀
    (by rw [hjoined]; exact List.forall_mem_singleton.2 hlegible)
    (by
      rw [hmarks]
      exact List.forall_mem_singleton.2 (List.all_iff_forall_prop.1 (by decide)))
  exact ⟨page, run, hok, hmarks, hread, hsame⟩

/-- **A slot may be another one when the page is read**: a name ends at an
equals sign, and a value begins there. -/
theorem exists_slotMarks_ne :
    let p : Processor := { renderer := .ofFunction fun call => .ok call.source }
    let pass := p.resolvePage "page.html" "<p slot=\"a=b\">t</p>"
      { tree := .empty, context := { file := "page.html" } }
    let page := "<template #a=b><p>t</p></template>"
    (p.process "page.html" "<p slot=\"a=b\">t</p>").page = .ok page
      ∧ (treeAfter pass).slotMarks 0 = [("template", "a=b")]
      ∧ (readFragment page).nodes = .ok [2]
      ∧ (readFragment page).tree.slotMarks 0 = [("template", "a")] := by
  decide +kernel

end PageSlots.Page
