import PageSlots.Proofs.Page.GainedIds
import PageSlots.Proofs.Page.HeadingIds
import PageSlots.Proofs.Page.Stable

/-!
# Resolving a page again

One would like a page that has been resolved to come out the same when it
is resolved again. Both passes leave everything in its final place but
one thing: a heading gets its id and its anchor when it is visited, before
an attribute in it has been promoted, a region in it rendered or a child
put into a `template`. So a heading may be left that has an id without
an anchor in front, or a text with a slug but no id, and the second time
it gets what it lacks.

That is the only way in which a page can change. It comes out the same,
without a call of the renderer, if every heading in it is settled, and
only then (`resolve_again`).

If all nodes are stable, the whole pass is idle. For the converse, follow
the visits of the pass that is run again up to the first heading that is
not settled. So far nothing has changed, so this heading finds what the
page holds. It is given a new node or an id; no later visit takes nodes or
ids away.
-/

namespace PageSlots.Page

open PageSlots.Component PageSlots.Markup PageSlots.Markup.Content PageSlots.Markup.Tree
open PageSlots.Slot

/-! ## What both passes leave -/

section Labels

variable {table : RuleTable} {rule : Rule} {slots : List String} {o o' : Own} {t t' : Tree}

/-- A finished rule stays finished when its component gains an id. -/
theorem Finished.of_labelled (ho : Orderly rule) (hr : Repeatable rule) (hl : Labelled o o')
    (h : Finished rule slots o) : Finished rule slots o' := by
  cases hl with
  | same => exact h
  | gained value _ hn =>
    refine ⟨⟨fun promotion hp hm => ?_, h.tidied.2⟩, h.filled, fun fixup hf ha => ?_⟩
    · rcases Own.mem_names_setAttr hm with hm | hm
      · exact h.tidied.1 promotion hp hm
      · exact (ho.attr_ne promotion hp).2.2 hm
    · obtain ⟨hflag, hattr⟩ := hr.id_ne fixup hf
      rw [Own.applies_setAttr hattr.symm] at ha
      rw [Own.attr?_setAttr_of_ne hflag.symm]
      exact h.flagged fixup hf ha

/-- An element is left as its rule leaves it when it gains an id. -/
theorem Ruled.of_labelled (ho : ∀ rule ∈ table, Orderly rule) (hr : ∀ rule ∈ table, Repeatable rule)
    (hl : Labelled o o') (h : Ruled table Finished slots o) : Ruled table Finished slots o' where
  placed := h.placed.of_markedAs hl.markedAs fun hne => hl.tag_eq ▸ hne
  no_region := hl.tag_eq ▸ h.no_region
  of_rule rule hf := by
    have hmem := List.mem_of_find?_eq_some hf
    rw [hl.tag_eq] at hf
    exact (h.of_rule rule hf).of_labelled (ho rule hmem) (hr rule hmem) hl

/-- The second pass leaves the slots that are filled. -/
theorem Labels.slotsBelow_eq (h : Labels t t') (x : NodeId) :
    t'.slotsBelow x = t.slotsBelow x := by
  unfold slotsBelow
  rw [h.children_eq]
  exact List.filterMap_congr fun c _ => h.slotName_eq c

end Labels

/-- **What the first pass leaves fits in as many levels as it was
followed.** -/
theorem ensures_fitsIn (p : Processor) (depth : Nat) : ∀ c : Content,
    Ensures (Value.resolveTo p depth c) fun c' =>
      ∀ (t : Tree) (id : NodeId), t.Shows id c' → t.FitsIn depth id := by
  induction depth with
  | zero =>
    intro c notes notes' c' h
    cases h
  | succ depth ih =>
    intro c
    unfold Value.resolveTo
    refine (Ensures.any _).bind fun c₁ _ => ?_
    refine (ensures_descend fun d _ => ih d).mono ?_
    rintro ⟨o, cs⟩ ⟨-, hcs⟩ t id hs i hi
    obtain ⟨-, hkids⟩ := shows_node.1 hs
    obtain ⟨d, hd, hi⟩ := exists_mem_of_forall₂ hkids.flip hi
    obtain ⟨_, -, hfit⟩ := exists_mem_of_forall₂ hcs hd
    exact hfit t i hi

section Pass

variable {p : Processor} {run next second : Run} {t : Tree} {x : NodeId}

/-- **A tree is left alone but for its headings**: it is well formed and
not too deep, and there is nothing to do for an element that is no
heading. -/
structure LeftAlone (p : Processor) (t : Tree) : Prop where
  /-- The tree is well formed. -/
  wellFormed : t.WellFormed
  /-- It has a document. -/
  pos : 0 < t.size
  /-- The pass goes deep enough. -/
  fitsIn : t.FitsIn p.maxDepth 0
  /-- An element is left as its rule leaves it. -/
  ruled : ∀ x, t.Within 0 x → t.isElement x = true →
    Ruled p.rules Finished (t.slotsBelow x) (t.own x)

/-- **Both passes leave a page alone but for its headings.** -/
theorem leftAlone_of_resolve (ho : ∀ rule ∈ p.rules, Orderly rule)
    (hr : ∀ rule ∈ p.rules, Repeatable rule) (h : run.tree.WellFormed) (hpos : 0 < run.tree.size)
    (hp : (run.tree.own 0).Placed) (hok : p.resolve 0 run = .ok () next) :
    LeftAlone p (p.deriveIds next.tree 0).2 := by
  have hl := p.labels_deriveIds next.tree 0
  obtain ⟨hwf, hcf⟩ := confined_of_resolveTo h hpos hok
  have hfits : next.tree.FitsIn p.maxDepth 0 := by
    obtain ⟨c, hc⟩ := h.exists_shows 0
    have hagree := agree_resolveTo p p.maxDepth h hpos hc
    rw [show p.resolveTo p.maxDepth 0 run = .ok () next from hok] at hagree
    obtain ⟨c', hv, hs⟩ := hagree.exists_value_of_ok
    exact ensures_fitsIn p p.maxDepth c _ _ _ hv _ _ hs
  refine ⟨hl.wellFormed hwf, ?_, hfits.congr hl.children_eq, fun x hx he => ?_⟩
  · rw [hl.size_eq]
    exact Nat.lt_of_lt_of_le hpos hcf.size_le
  · obtain ⟨cs, hcs, hnode⟩ := ruledNode_of_resolveTo
      (fun rule hm => establishes_finished (ho rule hm) (hr rule hm)) h hpos hp hok
      ((within_congr hl.children_eq).1 hx)
    have hk := (hl.own x).markedAs.kind_eq.symm.trans (isElement_iff.1 he)
    rw [hl.slotsBelow_eq, slotsBelow, slotsOf_eq hcs]
    exact (hnode hk).of_labelled ho hr (hl.own x)

/-- Both passes leave a page of the known components alone. -/
theorem leftAlone_of_readFragment {p : Processor} (hp : p.rules = builtIn) {markup file : String}
    {ids : List NodeId} {calls : List RenderCall} {log : Log} {run : Run}
    (hread : (readFragment markup).nodes = .ok ids)
    (hok : p.resolve 0 { tree := (readFragment markup).tree, context := { file }, calls, log }
      = .ok () run) : LeftAlone p (p.deriveIds run.tree 0).2 := by
  obtain ⟨hwf, hsize, cs, hs⟩ := readFragment_of_ok hread
  have hplaced : ((readFragment markup).tree.own 0).Placed := by
    rw [hs.own_eq]
    exact nofun
  exact leftAlone_of_resolve (fun rule hr => orderly_of_mem_builtIn (hp ▸ hr))
    (fun rule hr => repeatable_of_mem_builtIn (hp ▸ hr)) hwf hsize hplaced hok

/-! ## Resolving again -/

/-- **The headings below the document are settled.** -/
def HeadingsDone (anchorClass : String) (t : Tree) : Prop :=
  ∀ x, t.Within 0 x → t.isHeading x = true → SettledHeading anchorClass t x

/-- **A page whose headings are settled** comes out of the first pass as
it is, without a call of the renderer. -/
theorem LeftAlone.idle_resolve (h : LeftAlone p second.tree)
    (hs : HeadingsDone p.anchorClass second.tree) : Idle (p.resolve 0) second :=
  idle_resolveTo h.wellFormed p.maxDepth h.pos h.fitsIn
    (fun x hx => ⟨h.ruled x hx, hs x hx⟩) second rfl

/-- **The headings are settled that are visited without being given
anything**, neither a node nor an id. -/
theorem Leads.settledHeading (hrules : ∀ rule ∈ p.rules, LeavesIds rule) (h : LeftAlone p t)
    {visits : List Visit} (hlead : Leads p run visits next) (ht : run.tree = t)
    (hnodup : (visits.map Visit.id).Nodup) (hwithin : ∀ v ∈ visits, t.Within 0 v.id)
    (hsize : next.tree.size = t.size)
    (hids : ∀ v ∈ visits, t.isHeading v.id = true → next.tree.attr? v.id "id" = t.attr? v.id "id") :
    ∀ v ∈ visits, t.isHeading v.id = true → SettledHeading p.anchorClass t v.id := by
  induction hlead with
  | stay ancestors => exact nofun
  | @enter run run' mid id visits ancestors hwf hid hok hlead ih =>
    subst ht
    rw [List.map_cons, List.nodup_cons] at hnodup
    obtain ⟨hout, hnodup⟩ := hnodup
    have hmem : (⟨id, run.inside ancestors⟩ : Visit) ∈ ⟨id, run.inside ancestors⟩ :: visits :=
      List.mem_cons_self
    obtain ⟨hgives, hs⟩ := steady_enter hrules (show (run.inside ancestors).tree.WellFormed from hwf)
      hid hok
    have hrest := hlead.steady hrules
    have hhead : run.tree.isHeading id = true → SettledHeading p.anchorClass run.tree id := by
      intro hh
      have hgives := hgives hh
      -- the visit has given it the id that the page holds
      have hgiven := hgives.given
      rw [← hrest.id_eq id (Nat.lt_of_lt_of_le hid hs.size_le) hout, hids _ hmem hh] at hgiven
      refine ⟨fun hne => ?_, fun hnone => ?_⟩
      · by_contra ha
        have hlt := hgives.lt_size hne (Bool.eq_false_iff.2 ha)
        exact absurd hsize (Nat.ne_of_gt (Nat.lt_of_lt_of_le hlt hrest.size_le))
      · rw [hnone] at hgiven
        cases hgiven with
        | without _ hslug => exact hslug
    have hw := hwithin _ hmem
    obtain ⟨_, mid', hok', ht, -⟩ := idle_enter (p := p)
      (show (run.inside ancestors).tree.WellFormed from hwf) hid ⟨h.ruled id hw, hhead⟩
      fun c hc hk =>
        (h.ruled c (hw.trans (Within.refl.child hc)) (isElement_iff.2 hk)).placed hk
    rw [hok] at hok'
    cases hok'
    intro v hv hh
    rcases List.mem_cons.1 hv with rfl | hv
    · exact hhead hh
    · exact ih ht hnodup (fun w hw => hwithin w (List.mem_cons_of_mem _ hw)) hsize
        (fun w hw => hids w (List.mem_cons_of_mem _ hw)) v hv hh

/-- **If a page comes out of both passes as it is**, its headings are
settled. -/
theorem LeftAlone.headingsDone (hrules : ∀ rule ∈ p.rules, LeavesIds rule)
    (hspares : SparesHeadings p.rules) (h : LeftAlone p second.tree)
    (hok : p.resolve 0 second = .ok () next)
    (hsame : (p.deriveIds next.tree 0).2 = second.tree) :
    HeadingsDone p.anchorClass second.tree := by
  have hl := p.labelsOthers_deriveIdsTo hspares next.tree.size ([], next.tree) 0
  rw [show (p.deriveIdsTo next.tree.size ([], next.tree) 0).2 = second.tree from hsame] at hl
  have hvisits : (p.visits p.maxDepth 0 second).map Visit.id = second.tree.descendants 0 :=
    (map_id_visits p.maxDepth h.wellFormed h.pos hok).trans (hl.descendants_eq 0).symm
  have hmem : ∀ x, x ∈ (p.visits p.maxDepth 0 second).map Visit.id ↔ second.tree.Within 0 x :=
    fun x => by rw [hvisits, h.wellFormed.mem_descendants_iff h.pos]
  have hsettled := (leads_resolveTo p.maxDepth h.wellFormed h.pos hok).settledHeading hrules h rfl
    (hvisits ▸ h.wellFormed.nodup_descendants 0)
    (fun v hv => (hmem v.id).1 (List.mem_map_of_mem hv)) hl.labels.size_eq.symm
    fun v _ hh => by
      rw [attr?_eq_own, attr?_eq_own, hl.heading_eq v.id ((hl.isHeading_eq v.id).symm.trans hh)]
  intro x hx hh
  obtain ⟨v, hv, rfl⟩ := List.mem_map.1 ((hmem x).2 hx)
  exact hsettled v hv hh

end Pass

/-! ## Pages -/

/-- **Resolving a page again.** When both passes have been run over a page,
run them again over the tree that they leave, in any context: if the
headings in it are settled, the first pass returns and both leave the tree
as it is, without a call of the renderer; and if both leave the tree as it
is, the headings in it are settled. -/
theorem resolve_again {p : Processor} (hp : p.rules = builtIn) {markup file : String}
    {ids : List NodeId} {calls : List RenderCall} {log : Log} {run second : Run}
    (hread : (readFragment markup).nodes = .ok ids)
    (hok : p.resolve 0 { tree := (readFragment markup).tree, context := { file }, calls, log }
      = .ok () run)
    (hsecond : second.tree = (p.deriveIds run.tree 0).2) :
    (HeadingsDone p.anchorClass second.tree → ∃ next, p.resolve 0 second = .ok () next
        ∧ (p.deriveIds next.tree 0).2 = second.tree ∧ next.calls = second.calls)
      ∧ ∀ next, p.resolve 0 second = .ok () next → (p.deriveIds next.tree 0).2 = second.tree →
        HeadingsDone p.anchorClass second.tree := by
  obtain ⟨hwf, hsize, -⟩ := readFragment_of_ok hread
  have hspares : SparesHeadings p.rules := hp ▸ sparesHeadings_builtIn
  have hleft : LeftAlone p second.tree := hsecond ▸ leftAlone_of_readFragment hp hread hok
  refine ⟨fun hdone => ?_, fun next => hleft.headingsDone
    (fun rule hm => leavesIds_of_mem_builtIn (hp ▸ hm)) hspares⟩
  obtain ⟨_, next, hnext, ht, hcalls⟩ := hleft.idle_resolve hdone
  refine ⟨next, hnext, ?_, hcalls⟩
  obtain ⟨hwf', hcf⟩ := confined_of_resolveTo hwf hsize hok
  rw [ht, hsecond]
  exact deriveIds_deriveIds hwf' (Nat.lt_of_lt_of_le hsize hcf.size_le)

/-- A heading with an id and a region. -/
theorem resolve_again_region :
    let p : Processor := { renderer := .ofFunction fun call => .ok call.source }
    let start : Run := { tree := (readFragment "<h2 id=\"a\"><md>x</md></h2>").tree
                         context := { file := "page.md" } }
    let second : Run := { tree := (p.deriveIds (treeAfter (p.resolve 0 start)) 0).2
                          context := { file := "page.md" } }
    (HeadingsDone p.anchorClass second.tree → ∃ next, p.resolve 0 second = .ok () next
        ∧ (p.deriveIds next.tree 0).2 = second.tree ∧ next.calls = second.calls)
      ∧ ∀ next, p.resolve 0 second = .ok () next → (p.deriveIds next.tree 0).2 = second.tree →
        HeadingsDone p.anchorClass second.tree := by
  intro p start second
  have hread : (readFragment "<h2 id=\"a\"><md>x</md></h2>").nodes = .ok [2] := by decide +kernel
  obtain ⟨_, run, hok⟩ := exists_of_returns (show returns (p.resolve 0 start) = true by
    decide +kernel)
  refine resolve_again rfl hread hok ?_
  show (p.deriveIds (treeAfter (p.resolve 0 start)) 0).2 = _
  rw [hok]
  rfl

/-- **A page need not come out the same**: what is promoted in a heading
is part of its text only when it is visited again. -/
theorem exists_innerHtml_resolve_again_ne :
    let p : Processor := { renderer := .ofFunction fun call => .ok call.source }
    let start : Run := { tree := (readFragment "<h2><tooltip content=\"x\"></tooltip></h2>").tree
                         context := { file := "page.html" } }
    let second : Run := { tree := (p.deriveIds (treeAfter (p.resolve 0 start)) 0).2
                          context := { file := "page.html" } }
    returns (p.resolve 0 start) = true ∧ returns (p.resolve 0 second) = true
      ∧ (p.deriveIds (treeAfter (p.resolve 0 second)) 0).2.innerHtml 0
        ≠ second.tree.innerHtml 0 := by
  decide +kernel

end PageSlots.Page
