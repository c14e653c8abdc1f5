import PageSlots.Proofs.Page.NormalForm
import PageSlots.Proofs.Page.SecondPass
import PageSlots.Proofs.Page.Simulation
import PageSlots.Proofs.Slot.Below

/-!
# The pass over a page of markers

A page may hold nothing that concerns the first pass but slot markers: no
region, no heading and no component. Then the pass does what the two
sweeps do (`innerHtml_resolve_eq_sweeps`), though the trees in between are
never the same. The sweeps go over a list of nodes that was made before
there were any wrappers. The pass normalizes the children of a node and
then goes on to them: it enters every wrapper, and normalizes the node in
it once more.

That this does nothing is where one needs that no element has two
shorthand markers. Wrapping takes the first one off, so with a second one
left the pass would wrap the node again, and the sweeps do not.

Each wrapper is one more level, so the pass has to go twice as deep as the
page is.
-/

namespace PageSlots.Markup

open PageSlots.Slot

namespace Own

variable {o : Own}

/-- A migration makes a second marker of no node. -/
theorem length_markers_migrate (h : o.markers.length ≤ 1) : o.migrate.markers.length ≤ 1 := by
  by_cases hk : o.kind = .element
  · rcases migrate_cases hk with ⟨-, he⟩ | ⟨_, -, -, he⟩
      | ⟨slot, pre, post, -, -, hnone, hattrs, he, -, -⟩
    · rwa [he]
    · rw [he]
      exact Nat.le_trans (List.eraseP_sublist.filter _).length_le h
    · have hall := findMarker_eq_none_iff.1 hnone
      rw [hattrs] at hall
      rw [markers, he, List.filter_append, List.filter_cons,
        List.filter_eq_nil_iff.2 fun a ha => by simp [hall a (List.mem_append_left _ ha)],
        List.filter_eq_nil_iff.2 fun a ha => by
          simp [hall a (List.mem_append_right _ (List.mem_cons_of_mem _ ha))]]
      split <;> simp
  · rwa [migrate, if_neg hk]

end Own

namespace Content

variable {o : Own} {cs : List Content} {P : Own → Prop}

/-- **What the edits keep and a wrapper has** holds everywhere in what is
swept. -/
theorem Everywhere.swept (hmigrate : ∀ o, P o → P o.migrate)
    (hremove : ∀ o name, P o → P (o.removeAttr name)) (hwrapper : ∀ name, P (Own.wrapper name))
    {c : Content} (h : c.Everywhere fun o _ => P o) : c.swept.Everywhere fun o _ => P o := by
  induction c with
  | node o cs ih =>
    obtain ⟨ho, hcs⟩ := everywhere_node.1 h
    have hkids : ∀ d ∈ cs.map Content.swept, d.Everywhere fun o _ => P o :=
      List.forall_mem_map.2 fun d hd => ih d hd (hcs d hd)
    rw [swept_node, normalize_node]
    cases hm : o.migrate.movedMarker? with
    | none =>
      rw [wrapMarked_node_of_none hm]
      exact .node (hmigrate o ho) hkids
    | some name =>
      rw [wrapMarked_node_of_some hm]
      exact .node (hwrapper name)
        (List.forall_mem_singleton.2 (.node (hremove _ name (hmigrate o ho)) hkids))

end Content

end PageSlots.Markup

namespace PageSlots.Page

open PageSlots.Component PageSlots.Markup PageSlots.Markup.Content PageSlots.Markup.Tree
open PageSlots.Slot

/-! ## Nothing but markers -/

/-- **A tag means nothing to the first pass**, by the rules of a table. -/
structure Indifferent (table : RuleTable) (tag : String) : Prop where
  /-- It is no region. -/
  not_region : tag ≠ "md" ∧ tag ≠ "markdown"
  /-- It is no heading. -/
  not_heading : tag ∉ headingTags
  /-- It has no rule. -/
  no_rule : table.find tag = none

/-- **An element concerns the first pass by a marker at most**, and has no
second one. -/
structure OnlyMarked (table : RuleTable) (o : Own) : Prop where
  /-- The tag means nothing. -/
  indifferent : Indifferent table o.tag
  /-- There is no second shorthand marker. -/
  one_marker : o.markers.length ≤ 1

instance (table : RuleTable) (tag : String) : Decidable (Indifferent table tag) :=
  decidable_of_iff ((tag ≠ "md" ∧ tag ≠ "markdown") ∧ tag ∉ headingTags ∧ table.find tag = none)
    ⟨fun h => ⟨h.1, h.2.1, h.2.2⟩, fun h => ⟨h.not_region, h.not_heading, h.no_rule⟩⟩

instance (table : RuleTable) (o : Own) : Decidable (OnlyMarked table o) :=
  decidable_of_iff (Indifferent table o.tag ∧ o.markers.length ≤ 1)
    ⟨fun h => ⟨h.1, h.2⟩, fun h => ⟨h.indifferent, h.one_marker⟩⟩

/-- The tag of wrappers means nothing to the pass by the known rules. -/
theorem indifferent_wrapperTag : Indifferent builtIn wrapperTag := by
  decide

section Values

variable {p : Processor} {o : Own} {cs : List Content} {c : Content} {depth : Nat}

/-- There is nothing to do at a node whose tag means nothing. -/
theorem visit_of_indifferent (h : o.kind = .element → Indifferent p.rules o.tag)
    (cs : List Content) : Value.visit p (.node o cs) = pure (.node o cs) := by
  unfold Value.visit
  by_cases hk : o.kind = .element
  · obtain ⟨hregion, hheading, hrule⟩ := h hk
    have hh : ¬ o.isHeading = true := fun hh => hheading (Own.tag_mem_of_isHeading hh)
    rw [own_node, if_pos (Own.isElement_iff.2 hk), Value.visitElement, Value.renderRegion,
      own_node, regionOf_eq_none_iff.2 hregion]
    simp only [pure_bind, own_node, if_neg hh, Value.applyRules, hrule]
  · rw [own_node, if_neg fun he => hk (Own.isElement_iff.1 he)]

/-- Steps that change nothing but what they are given. -/
theorem mapM_eq_map {f : Content → ValueM Content} {g : Content → Content}
    (h : ∀ c ∈ cs, ∀ notes, f c notes = .ok (g c) notes) (notes : Notes) :
    cs.mapM f notes = .ok (cs.map g) notes := by
  induction cs with
  | nil => rfl
  | cons c cs ih =>
    rw [List.mapM_cons, bind_of_ok (h c List.mem_cons_self notes),
      bind_of_ok (ih fun d hd => h d (List.mem_cons_of_mem c hd))]
    rfl

/-- **The pass goes through a node whose tag means nothing**: it does to
the children what it does to each of them, and leaves no trace. -/
theorem resolveTo_of_indifferent (ho : o.kind = .element → Indifferent p.rules o.tag)
    {g : Content → Content}
    (hcs : ∀ c ∈ cs, ∀ notes, Value.resolveTo p depth c.normalize notes = .ok (g c) notes)
    (notes : Notes) :
    Value.resolveTo p (depth + 1) (.node o cs) notes = .ok (.node o (cs.map g)) notes := by
  have hkids : ∀ notes, (cs.map normalize).mapM (Value.resolveTo p depth) notes
      = .ok (cs.map g) notes := fun notes => by
    rw [List.mapM_map]
    exact mapM_eq_map hcs notes
  unfold Value.resolveTo Value.descend
  rw [visit_of_indifferent ho, pure_bind, own_node, children_node]
  split
  · rw [bind_of_ok (value_modifyContext_eq _ notes), children_node, bind_of_ok (hkids _),
      bind_of_ok (value_modifyContext_eq _ _)]
    rfl
  · rw [children_node, bind_of_ok (hkids notes)]
    rfl

/-- A node that has been migrated and wrapped is normalized. -/
theorem normalize_removeAttr_migrate {name : String} (hn : o.names.Nodup)
    (hone : o.markers.length ≤ 1) (hm : o.migrate.movedMarker? = some name) :
    (Content.node (o.migrate.removeAttr name) cs).normalize
      = .node (o.migrate.removeAttr name) cs := by
  obtain ⟨⟨hk, -⟩, hmark⟩ := Own.movedMarker?_eq_some_iff.1 hm
  have hmig : (o.migrate.removeAttr name).migrate = o.migrate.removeAttr name :=
    Own.migrate_eq_self fun _ hmem => Own.notMem_names_migrate ((Own.kind_migrate o).symm.trans hk)
      hn ((attributeNames_sublist List.eraseP_sublist).subset hmem)
  have hnone : (o.migrate.removeAttr name).movedMarker? = none := by
    rw [Own.movedMarker?, (Own.marker?_removeAttr_self_iff hmark).2 (Own.length_markers_migrate hone),
      ite_self]
  rw [normalize_node, hmig, wrapMarked_node_of_none hnone]

/-- **The pass over a normalized content sweeps it**, if nothing in the
content but markers concerns the pass and the pass goes twice as deep. -/
theorem resolveTo_normalize {t : Tree} (hwrap : Indifferent p.rules wrapperTag) {levels : Nat} :
    ∀ {depth : Nat} {id : NodeId} {c : Content}, t.Shows id c → t.FitsIn levels id →
      2 * levels ≤ depth →
      (c.Everywhere fun o _ => o.names.Nodup ∧ (o.kind = .element → OnlyMarked p.rules o)) →
      ∀ notes, Value.resolveTo p depth c.normalize notes = .ok c.swept notes := by
  induction levels with
  | zero => exact fun _ hfit => absurd hfit id
  | succ levels ih =>
    intro depth id c hc hfit hdepth hall notes
    obtain ⟨o, cs⟩ := c
    obtain ⟨-, hcs⟩ := shows_node.1 hc
    obtain ⟨⟨hn, ho⟩, hkids⟩ := everywhere_node.1 hall
    obtain ⟨depth, rfl⟩ : ∃ d, depth = d + 2 := ⟨depth - 2, by omega⟩
    -- the children of the node are swept, from either depth
    have hswept : ∀ d, 2 * levels ≤ d → ∀ c ∈ cs, ∀ notes,
        Value.resolveTo p d c.normalize notes = .ok c.swept notes := fun d hd c hc notes => by
      obtain ⟨i, hi, hs⟩ := exists_mem_of_forall₂ hcs hc
      exact ih hs (hfit i hi) hd (hkids c hc) notes
    have htag : o.migrate.kind = .element → Indifferent p.rules o.migrate.tag := fun hk => by
      rw [Own.migrate_eq]
      exact (ho ((Own.kind_migrate o).symm.trans hk)).indifferent
    rw [swept_node, normalize_node, normalize_node]
    cases hm : o.migrate.movedMarker? with
    | none =>
      rw [wrapMarked_node_of_none hm, wrapMarked_node_of_none hm]
      exact resolveTo_of_indifferent htag (hswept (depth + 1) (by omega)) notes
    | some name =>
      rw [wrapMarked_node_of_some hm, wrapMarked_node_of_some hm]
      have hk := (Own.kind_migrate o).symm.trans (Own.movedMarker?_eq_some_iff.1 hm).1.1
      -- the pass enters the wrapper, and there it finds the node normalized
      have hinside : ∀ c ∈ [Content.node (o.migrate.removeAttr name) cs], ∀ notes,
          Value.resolveTo p (depth + 1) c.normalize notes
            = .ok (.node (o.migrate.removeAttr name) (cs.map swept)) notes :=
        List.forall_mem_singleton.2 fun notes => by
          rw [normalize_removeAttr_migrate hn (ho hk).one_marker hm]
          exact resolveTo_of_indifferent (o := o.migrate.removeAttr name) htag
            (hswept depth (by omega)) notes
      exact resolveTo_of_indifferent (fun _ => hwrap) hinside notes

end Values

/-! ## Pages of markers -/

section Pages

variable {p : Processor} {t : Tree} {id : NodeId} {c : Content}

/-- Where no tag means anything, there is no id to give. -/
theorem deriveIds_of_indifferent (hc : t.Shows id c)
    (hall : c.Everywhere fun o _ => o.kind = .element → Indifferent p.rules o.tag) :
    (p.deriveIds t id).2 = t := by
  have hdone : ∀ x, t.Within id x → Derived p t x := fun x hx he _ slot hslot => by
    obtain ⟨cs, -, hx⟩ := hc.of_everywhere hall hx
    rw [tag_eq_own, (hx (isElement_iff.1 he)).no_rule] at hslot
    cases hslot
  rw [Processor.deriveIds, Processor.deriveIdsTo_eq_self t.size hdone]

/-- **The pass and the sweeps agree.** On a page in which nothing but slot
markers concerns the first pass, and no element has two shorthand markers,
both passes return without a call of the renderer and leave what the two
sweeps leave. -/
theorem innerHtml_resolve_eq_sweeps (hp : p.rules = builtIn) {markup : String} {ids : List NodeId}
    (hread : (readFragment markup).nodes = .ok ids) {start : Run}
    (hstart : start.tree = (readFragment markup).tree)
    (honly : ∀ x, start.tree.Within 0 x → start.tree.isElement x = true →
      OnlyMarked builtIn (start.tree.own x))
    {levels : Nat} (hfit : start.tree.FitsIn levels 0) (hdepth : 2 * levels ≤ p.maxDepth) :
    ∃ next, p.resolve 0 start = .ok () next ∧ next.calls = start.calls
      ∧ next.tree.innerHtml 0
        = ((start.tree.migrateMarkersBelow 0).wrapMarkedBelow 0).2.innerHtml 0
      ∧ (p.deriveIds next.tree 0).2.innerHtml 0
        = ((start.tree.migrateMarkersBelow 0).wrapMarkedBelow 0).2.innerHtml 0 := by
  obtain ⟨hwf, hpos, cs, hc⟩ := readFragment_of_ok hread
  rw [← hstart] at hwf hpos hc
  have hroot : (start.tree.own 0).kind ≠ .element := by
    rw [hc.own_eq]
    exact nofun
  have hwrap : Indifferent p.rules wrapperTag := hp ▸ indifferent_wrapperTag
  have hall : (Content.node { kind := .document } cs).Everywhere fun o _ =>
      o.names.Nodup ∧ (o.kind = .element → OnlyMarked p.rules o) :=
    hc.everywhere (P := fun o => o.names.Nodup ∧ (o.kind = .element → OnlyMarked p.rules o))
      fun x hx => ⟨hwf.nodup_names x, fun hk => hp ▸ honly x hx (isElement_iff.2 hk)⟩
  obtain ⟨hwf', hswept⟩ := hwf.shows_swept hpos hc hroot
  -- the document keeps its place, so the pass sweeps what it shows
  have hnormal : (Content.node { kind := .document } cs).normalize = .node { kind := .document } cs :=
    wrapMarked_node_of_none rfl
  have hvalue := resolveTo_normalize hwrap hc hfit hdepth hall start.notes
  rw [hnormal] at hvalue
  have hagree := agree_resolveTo p p.maxDepth hwf hpos hc
  rw [hvalue] at hagree
  obtain ⟨_, next, hok, hnotes, hshows⟩ := hagree.exists_of_ok
  have hnext : next.tree.WellFormed := by
    have h := hagree.wellFormed
    rwa [hok] at h
  have hsame : next.tree.innerHtml 0
      = ((start.tree.migrateMarkersBelow 0).wrapMarkedBelow 0).2.innerHtml 0 :=
    String.toList_inj.1 ((hnext.toList_innerHtml hshows.children).trans
      (hwf'.toList_innerHtml hswept.children).symm)
  have hindifferent : (Content.node { kind := .document } cs).swept.Everywhere fun o _ =>
      o.kind = .element → Indifferent p.rules o.tag := by
    refine (hall.mono fun o _ ho hk => (ho.2 hk).indifferent).swept (fun o ho hk => ?_)
      (fun _ _ ho => ho) fun _ _ => hwrap
    rw [Own.migrate_eq]
    exact ho ((Own.kind_migrate o).symm.trans hk)
  refine ⟨next, hok, congrArg Notes.calls hnotes, hsame, ?_⟩
  rw [deriveIds_of_indifferent hshows hindifferent]
  exact hsame

/-- A page with an older marker beside a shorthand, on one element and
inside another marked one. -/
theorem innerHtml_resolve_eq_sweeps_nested :
    let p : Processor := { renderer := .ofFunction fun _ => .error { reason := "no markdown" } }
    let start : Run := {
      tree := (readFragment
        "<div><p slot=a #b>x</p><section slot=\"c\"><i #d>y</i></section></div>").tree
      context := { file := "page.html" } }
    ∃ next, p.resolve 0 start = .ok () next ∧ next.calls = []
      ∧ next.tree.innerHtml 0
        = ((start.tree.migrateMarkersBelow 0).wrapMarkedBelow 0).2.innerHtml 0
      ∧ (p.deriveIds next.tree 0).2.innerHtml 0
        = ((start.tree.migrateMarkersBelow 0).wrapMarkedBelow 0).2.innerHtml 0 := by
  intro p start
  have hread : (readFragment
      "<div><p slot=a #b>x</p><section slot=\"c\"><i #d>y</i></section></div>").nodes
      = .ok [2] := by
    decide +kernel
  obtain ⟨hwf, hpos, -⟩ := readFragment_of_ok hread
  have honly : ∀ x < start.tree.size, start.tree.isElement x = true →
      OnlyMarked builtIn (start.tree.own x) := by
    decide +kernel
  exact innerHtml_resolve_eq_sweeps rfl hread rfl
    (fun x hx => honly x (hwf.lt_of_within hpos hx)) (hwf.fitsIn_size hpos) (by decide +kernel)

end Pages

end PageSlots.Page
