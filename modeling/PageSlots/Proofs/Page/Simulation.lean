import PageSlots.Proofs.Page.Agreement

/-!
# The first pass does what it says of values

Each step of the first pass on a node that shows a content agrees with the
step of the same name on the content: regions, headings, promotions,
rules, and in the end the pass itself (`agree_resolveTo`). Along the way
the rule of a component is followed more closely: which nodes its children
are afterwards (`agree_applyRule`).

The page is a tree, so the passes over the children of a node do not meet:
each is confined to a subtree of its own, and what the others show stays
(`agree_forM`).
-/

namespace PageSlots.Page

open PageSlots.Component PageSlots.Markup PageSlots.Markup.Content PageSlots.Markup.Tree
open PageSlots.Slot

variable {run : Run} {id : NodeId} {c : Content} {cs : List Content}

/-! ## Regions and headings -/

/-- Rendering a region. -/
theorem agree_renderRegion (h : run.tree.WellFormed) (hid : id < run.tree.size)
    (hc : run.tree.Shows id c) (p : Processor) :
    Agree [id] run.tree (fun _ t c' => t.Shows id c') (p.renderRegion id run)
      (Value.renderRegion p c run.notes) := by
  unfold Processor.renderRegion Value.renderRegion
  rw [bind_of_ok (getTree_eq run), tag_eq_own, hc.own_eq]
  cases regionOf c.own.tag with
  | none => exact .ok run h (.refl _ _) hc
  | some region =>
    obtain ⟨mode, tag⟩ := region
    have hinner : String.ofList (c.children.flatMap Content.written) = run.tree.innerHtml id := by
      rw [← h.toList_innerHtml hc.children, String.ofList_toList]
    dsimp only
    rw [hinner]
    refine (agree_render run h [id] p.renderer mode _).bind fun markup b run₁ hwf hcf ⟨hb, ht⟩ => ?_
    rw [bind_of_ok (modifyTree_eq _ run₁), ← hb, ht]
    -- the element has its new tag and no children when the markup is read
    have hr := recast_setTag hid tag
    have hwf₁ := h.recast hr (h.nodup_names id)
    have hcf₁ := (hr.confined .refl).trans (hwf₁.confined_clearChildren id) h hwf₁
    have hs := hwf₁.shows_clearChildren (hr.shows_self h hc)
    rw [own_mapOwn] at hs
    have hid₁ : id < ((run.tree.setTag id tag).clearChildren id).size :=
      Nat.lt_of_lt_of_le hid hcf₁.size_le
    have hwf₂ := hwf₁.clearChildren id
    refine ((agree_readInto { run₁ with tree := _ } hwf₂ hid₁ markup).after hcf₁ h hwf₂).map
      fun _ t cs _ _ ⟨ids, hrec⟩ => ?_
    exact hrec.shows_self hwf₂ hs

/-- Taking the id of a heading. -/
theorem agree_headingId (h : run.tree.WellFormed) (hid : id < run.tree.size)
    (hc : run.tree.Shows id c) :
    Agree [id] run.tree (fun made t b => made = b.1 ∧ t.Shows id b.2) (headingId id run)
      (Value.headingId c run.notes) := by
  unfold headingId Value.headingId
  rw [bind_of_ok (get_eq run), bind_of_ok (get_eq run.notes), attr?_eq_own, hc.own_eq]
  cases c.own.attr? "id" with
  | some written =>
    cases hn : run.context.registerHeadingId written with
    | mk isNew context =>
      dsimp only [Run.notes]
      rw [hn]
      cases isNew with
      | true => exact Agree.ok { run with context } h (.refl _ _) ⟨rfl, hc⟩
      | false =>
        exact Agree.ok { run with context, log := run.log ++ [_] } h (.refl _ _) ⟨rfl, hc⟩
  | none =>
    rw [h.textContent_eq hid hc]
    cases hn : run.context.uniqueHeadingId (decodeReferences c.textContent) with
    | mk made context =>
      dsimp only [Run.notes]
      rw [hn]
      cases made with
      | none => exact Agree.ok { run with context } h (.refl _ _) ⟨rfl, hc⟩
      | some made =>
        have hr := recast_setAttr hid "id" made
        exact Agree.ok { run with context, tree := run.tree.setAttr id "id" made }
          (h.recast hr (Own.nodup_names_setAttr "id" made (h.nodup_names id)))
          (hr.confined .refl) ⟨rfl, hr.shows_self h hc⟩

/-- A node begins with an anchor if what it shows does. -/
theorem hasAnchor_eq {t : Tree} (hc : t.Shows id c) (anchorClass : String) :
    hasAnchor t id anchorClass = Value.hasAnchor anchorClass c.children := by
  unfold hasAnchor Value.hasAnchor
  have hch := hc.children
  revert hch
  generalize t.children id = ids, c.children = cs
  rintro (_ | ⟨hf, -⟩)
  · rfl
  · show (t.isElement _ && _) = _
    rw [List.head?_cons]
    dsimp only
    rw [← hf.own_eq]
    rfl

/-- An anchor is a new node that is put under the heading. -/
theorem exists_adds_insertAnchor (t : Tree) (id : NodeId) (anchorClass made : String) :
    ∃ t', insertAnchor t id anchorClass made = t'.insertChild id t.size 0
      ∧ Adds (Value.anchor anchorClass made) t t' := by
  have ha := adds_createElement t "span"
  have ha := ha.recast (recast_setAttr ha.lt_size "id" made)
  exact ⟨_, rfl, ha.recast (recast_setAttr ha.lt_size "class" anchorClass)⟩

/-- An anchor that is inserted comes first. -/
theorem shows_insertAnchor {t : Tree} (h : t.WellFormed) (hid : id < t.size) (hc : t.Shows id c)
    (anchorClass made : String) :
    (insertAnchor t id anchorClass made).WellFormed
      ∧ Confined [id] t (insertAnchor t id anchorClass made)
      ∧ (insertAnchor t id anchorClass made).Shows id
          (.node c.own (.node (Value.anchor anchorClass made) [] :: c.children)) := by
  obtain ⟨t₁, he, ha⟩ := exists_adds_insertAnchor t id anchorClass made
  have hn : (Value.anchor anchorClass made).names.Nodup :=
    Own.nodup_names_setAttr _ _ (Own.nodup_names_setAttr _ _ List.nodup_nil)
  rw [he]
  obtain ⟨hwf, hcf, hs, -⟩ := ha.insertChild h hn (.refl (ha.wellFormed h hn) _) hid hc 0
  rw [Nat.zero_min] at hs
  exact ⟨hwf, hcf, hs⟩

/-- **Giving a heading its id and its anchor.** -/
theorem agree_anchorHeading (h : run.tree.WellFormed) (hid : id < run.tree.size)
    (hc : run.tree.Shows id c) (anchorClass : String) :
    Agree [id] run.tree (fun _ t c' => t.Shows id c') (anchorHeading anchorClass id run)
      (Value.anchorHeading anchorClass c run.notes) := by
  unfold anchorHeading Value.anchorHeading
  refine (agree_headingId h hid hc).bind ?_
  rintro made ⟨made', c'⟩ run₁ hwf hcf ⟨hm, hc'⟩
  obtain rfl : made = made' := hm
  replace hc' : run₁.tree.Shows id c' := hc'
  have hid₁ : id < run₁.tree.size := Nat.lt_of_lt_of_le hid hcf.size_le
  cases made with
  | none => exact .ok run₁ hwf hcf hc'
  | some made =>
    dsimp only
    rw [modifyTree_eq, hasAnchor_eq hc']
    by_cases ha : Value.hasAnchor anchorClass c'.children = true
    · rw [if_pos ha, if_pos ha]
      exact Agree.ok run₁ hwf hcf hc'
    · rw [if_neg ha, if_neg ha]
      obtain ⟨hwf₂, hcf₂, hs⟩ := shows_insertAnchor hwf hid₁ hc' anchorClass made
      generalize insertAnchor run₁.tree id anchorClass made = t₂ at hwf₂ hcf₂ hs ⊢
      exact Agree.ok { run₁ with tree := t₂ } hwf₂ (hcf.trans hcf₂ h hwf) hs

/-- The own data of nodes are those of what they show. -/
theorem map_own_eq {t : Tree} {ids : List NodeId} (h : List.Forall₂ t.Shows ids cs) :
    ids.map t.own = cs.map Content.own :=
  map_eq_of_forall₂ h fun _ _ hs => hs.own_eq

/-- A node fills the slot that what it shows does. -/
theorem slotName_eq {t : Tree} (hc : t.Shows id c) : t.slotName id = Value.slotOf c := by
  rw [slotName_eq_own, hc.own_eq, Value.slotOf]

/-- A slot is filled if it is in what a node shows. -/
theorem findSlot_eq {t : Tree} (hc : t.Shows id c) (slot : String) :
    (t.findSlot id slot).isSome = Value.filled c slot := by
  rw [isSome_findSlot, map_own_eq hc.children, Value.filled]

/-- Creating a template adds an element that is marked for its slot. -/
theorem adds_template (t : Tree) (slot : String) :
    Adds (Own.wrapper (marker slot)) t
      ((t.createElement wrapperTag).2.setAttr t.size (marker slot) "") := by
  have ha := adds_createElement t wrapperTag
  exact ha.recast (recast_setAttr ha.lt_size (marker slot) "")

/-- **Applying a promotion.** A new template stands after the earlier
ones. -/
theorem agree_promote (h : run.tree.WellFormed) (hid : id < run.tree.size)
    (hc : run.tree.Shows id c) {before old : List NodeId}
    (hch : run.tree.children id = before ++ old) (renderer : Renderer) (promotion : Promotion) :
    Agree [id] run.tree
      (fun added t b => added = b.1 ∧ t.Shows id b.2 ∧ ∃ ts, t.children id = ts ++ old
        ∧ ts.length = if added then before.length + 1 else before.length)
      (promote renderer id before.length promotion run)
      (Value.promote renderer before.length promotion c run.notes) := by
  unfold promote Value.promote
  rw [bind_of_ok (takeAttr_eq id promotion.attr run), bind_of_ok (getTree_eq _), fst_removeAttr,
    hc.own_eq]
  have hr := recast_removeAttr hid promotion.attr
  have hwf₁ := h.recast hr (Own.nodup_names_removeAttr promotion.attr (h.nodup_names id))
  have hs₁ := hr.shows_self h hc
  have hcf₁ := hr.confined .refl
  have hch₁ := (hr.children_eq id).trans hch
  dsimp only
  rw [findSlot_eq hs₁, tag_eq_own, hs₁.own_eq]
  -- from here on the tree is the one without the attribute
  generalize (run.tree.removeAttr id promotion.attr).2 = t₁ at *
  generalize c.own.attr? promotion.attr = value
  generalize c.mapOwn (Own.removeAttr promotion.attr) = c₁ at *
  by_cases hf : Value.filled c₁ promotion.slot = true
  · rw [if_pos hf, if_pos hf]
    by_cases hv : value.isSome = true
    · rw [if_pos hv, if_pos hv]
      exact Agree.ok { run with tree := t₁, log := run.log ++ [_] } hwf₁ hcf₁
        ⟨rfl, hs₁, before, hch₁, rfl⟩
    · rw [if_neg hv, if_neg hv]
      exact Agree.ok { run with tree := t₁ } hwf₁ hcf₁ ⟨rfl, hs₁, before, hch₁, rfl⟩
  · rw [if_neg hf, if_neg hf]
    cases value.or promotion.fallback with
    | none =>
      exact Agree.ok { run with tree := t₁ } hwf₁ hcf₁ ⟨rfl, hs₁, before, hch₁, rfl⟩
    | some source =>
      refine Agree.bind ((agree_render { run with tree := t₁ } hwf₁ [id] renderer
        promotion.content source).after hcf₁ h hwf₁) ?_
      rintro markup _ ⟨t₂, context, calls, log⟩ - - ⟨rfl, ht⟩
      obtain rfl : t₂ = t₁ := ht
      have hid₂ : id < t₂.size := Nat.lt_of_lt_of_le hid hcf₁.size_le
      have ha := adds_template t₂ promotion.slot
      have hn := Own.nodup_names_wrapper (marker promotion.slot)
      rw [bind_of_ok (createTemplate_eq _ _)]
      dsimp only
      generalize (t₂.createElement wrapperTag).2.setAttr t₂.size (marker promotion.slot) "" = t₃
        at ha ⊢
      refine Agree.bind ((agree_readInto ⟨t₃, _, _, _⟩ (ha.wellFormed hwf₁ hn) ha.lt_size
        markup).mono (fun t' _ hc' => hcf₁.trans (ha.confined_of_confined hc' hid₂) h hwf₁)
        fun _ _ _ _ _ hp => hp) ?_
      rintro ⟨⟩ cs run₄ - - ⟨ids, hrec⟩
      obtain ⟨hwf₅, hcf₅, hs₅, hch₅⟩ := ha.insertChild hwf₁ hn hrec hid₂ hs₁ before.length
      rw [hch₁, insertIdx_append] at hch₅
      rw [bind_of_ok (modifyTree_eq _ run₄), bind_of_ok (tell_eq _ _)]
      generalize run₄.tree.insertChild id t₂.size before.length = t₅ at *
      exact Agree.ok { run₄ with tree := t₅, log := run₄.log ++ [_] } hwf₅
        (hcf₁.trans hcf₅ h hwf₁) ⟨rfl, hs₅, before ++ [t₂.size],
          hch₅.trans (List.append_cons _ _ _), List.length_append⟩

/-- **Applying promotions** puts templates before the other children. -/
theorem agree_promoteAll (renderer : Renderer) (promotions : List Promotion) {old : List NodeId} :
    ∀ (run : Run) {c : Content} (before : List NodeId), run.tree.WellFormed → id < run.tree.size →
      run.tree.Shows id c → run.tree.children id = before ++ old →
      Agree [id] run.tree (fun _ t c' => t.Shows id c' ∧ ∃ ts, t.children id = ts ++ old)
        (promoteAll renderer id before.length promotions run)
        (Value.promoteAll renderer before.length promotions c run.notes) := by
  induction promotions with
  | nil =>
    intro run c before h _ hc hch
    exact Agree.ok run h (.refl _ _) ⟨hc, before, hch⟩
  | cons promotion promotions ih =>
    intro run c before h hid hc hch
    refine (agree_promote h hid hc hch renderer promotion).bind ?_
    rintro added ⟨_, c'⟩ run' hwf hcf ⟨rfl, hs, ts, hch', hlen⟩
    dsimp only at hlen ⊢
    rw [← hlen]
    exact (ih run' ts hwf (Nat.lt_of_lt_of_le hid hcf.size_le) hs hch').after hcf h hwf

/-- **The explicit children** are what is left after renaming and dropping. -/
theorem explicit_children {t : Tree} (h : t.WellFormed) (hc : t.Shows id c)
    (renames : List Rename) :
    let t₁ := (t.renameSlots id renames).2
    let t₂ := (t₁.dedupeSlots id).2
    t₂.WellFormed ∧ Confined [id] t t₂
      ∧ t₂.Shows id (.node c.own (Value.explicit renames c.children))
      ∧ t₂.children id
          = keepFirst (fun k => ((t.own k).renameSlot renames).slotName) [] (t.children id)
      ∧ (t.renameSlots id renames).1 ++ (t₁.dedupeSlots id).1
          = Value.slotsLog c.own.tag renames c.children := by
  intro t₁ t₂
  obtain ⟨hr, hlog⟩ := recastAll_renameSlots h id renames
  have hwf₁ : t₁.WellFormed := h.recastAll hr fun o => Own.nodup_names_renameSlot renames
  obtain ⟨hd, hlog'⟩ := drops_dedupeSlots hwf₁ id
  have hch₁ := hr.children_eq id
  have hown₁ : t₁.own id = c.own := by
    rw [hr.own_eq, if_neg fun hm => h.not_within_of_mem hm .refl, hc.own_eq]
  have hs₁ : List.Forall₂ t₁.Shows (t₁.children id) (Value.renameSlots renames c.children) :=
    hr.shows_children h hc.children
  obtain ⟨hkeep, hrep⟩ := forall₂_keepFirst hs₁ t₁.slotName Value.slotOf
    (fun _ _ => slotName_eq) []
  have hch₂ : t₂.children id = keepFirst t₁.slotName [] (t₁.children id) := by
    rw [hd.children_eq, if_pos rfl, keepFirst_eq_filter _ (hwf₁.nodup_children id)]
  have hsub := keepFirst_sublist t₁.slotName [] (t₁.children id)
  have hrepsub := (repeats_sublist t₁.slotName [] (t₁.children id)).subset
  refine ⟨hd.wellFormed, ?_, shows_node.2 ⟨(hd.own_eq id).trans hown₁, ?_⟩, ?_, ?_⟩
  · refine (hr.confined fun i hi => Within.refl.child hi).trans
      (hd.confined hwf₁ fun i hi => hrepsub hi) h hwf₁
  · rw [hch₂]
    refine List.forall₂_iff_zip.2 ⟨hkeep.length_eq, fun {b e} hb => ?_⟩
    exact hd.shows (hwf₁.not_within_of_mem (hsub.subset (List.of_mem_zip hb).1))
      (List.forall₂_zip hkeep hb)
  · rw [hch₂, hch₁]
    exact keepFirst_congr (fun k hk => by rw [slotName_eq_own, hr.own_eq, if_pos hk]) []
  · rw [hlog, hlog', tag_eq_own, tag_eq_own, hown₁, hc.own_eq, Value.slotsLog]
    congr 1
    · exact filterMap_eq_of_forall₂ hc.children fun k d hs => by rw [hs.own_eq]
    · exact map_eq_of_forall₂ hrep fun k d hs => by rw [slotName_eq hs]

/-- Looking at the place of a component. -/
theorem agree_checkPlace (h : run.tree.WellFormed) (hc : run.tree.Shows id c) (rule : Rule) :
    Agree [id] run.tree (fun _ t _ => t = run.tree) (checkPlace id rule run)
      (Value.checkPlace rule c.own.tag run.notes) := by
  unfold checkPlace Value.checkPlace
  rw [bind_of_ok (get_eq run), bind_of_ok (get_eq run.notes), tag_eq_own, hc.own_eq]
  by_cases hp : rule.isPlaced run.context = true
  · rw [if_pos hp, if_pos (show rule.isPlaced run.notes.context = true from hp)]
    exact .ok run h (.refl _ _) rfl
  · rw [if_neg hp, if_neg (show ¬ rule.isPlaced run.notes.context = true from hp)]
    exact Agree.ok { run with log := run.log ++ [_] } h (.refl _ _) rfl

/-- **Applying the rule of a component.** The templates stand before the
explicit children. -/
theorem agree_applyRule (h : run.tree.WellFormed) (hid : id < run.tree.size)
    (hc : run.tree.Shows id c) (renderer : Renderer) (rule : Rule) :
    Agree [id] run.tree
      (fun _ t c' => t.Shows id c' ∧ ∃ ts, t.children id = ts ++ keepFirst
        (fun k => ((run.tree.own k).renameSlot rule.renames).slotName) [] (run.tree.children id))
      (applyRule renderer id rule run) (Value.applyRule renderer rule c run.notes) := by
  unfold applyRule Value.applyRule
  refine (agree_checkPlace h hc rule).bind ?_
  rintro - - ⟨t, context, calls, log⟩ - - rfl
  obtain ⟨hwf, hcf, hs, hch, hlog⟩ := explicit_children h hc rule.renames
  rw [bind_of_ok (editTree_eq _ _), bind_of_ok (editTree_eq _ _),
    bind_of_ok (value_tell_eq _ _)]
  dsimp only
  rw [List.append_assoc, hlog]
  generalize (run.tree.renameSlots id rule.renames).2.dedupeSlots id = told at *
  have hid' := Nat.lt_of_lt_of_le hid hcf.size_le
  refine Agree.bind ((agree_promoteAll renderer rule.promotions ⟨told.2, _, _, _⟩ [] hwf hid' hs
    hch).after hcf h hwf) ?_
  rintro - c' run₁ hwf₁ hcf₁ ⟨hs₁, ts, hch₁⟩
  have hr := recast_applyFixups hwf₁ (Nat.lt_of_lt_of_le hid hcf₁.size_le) rule.fixups
  rw [map_own_eq hs₁.children] at hr
  rw [modifyTree_eq]
  exact Agree.ok { run₁ with tree := run₁.tree.applyFixups id rule.fixups }
    (hwf₁.recast hr (Own.nodup_names_applyFixups _ _ (hwf₁.nodup_names id)))
    (hcf₁.trans (hr.confined .refl) h hwf₁)
    ⟨hr.shows_self hwf₁ hs₁, ts, (hr.children_eq id).trans hch₁⟩

/-- Applying the rule of a component, if there is one. -/
theorem agree_applyRules (h : run.tree.WellFormed) (hid : id < run.tree.size)
    (hc : run.tree.Shows id c) (p : Processor) :
    Agree [id] run.tree (fun _ t c' => t.Shows id c')
      ((getTree >>= fun t => match p.rules.find (t.tag id) with
        | none => pure ()
        | some rule => applyRule p.renderer id rule) run)
      (Value.applyRules p c run.notes) := by
  unfold Value.applyRules
  rw [bind_of_ok (getTree_eq run), tag_eq_own, hc.own_eq]
  cases p.rules.find c.own.tag with
  | none => exact .ok run h (.refl _ _) hc
  | some rule =>
    exact (agree_applyRule h hid hc p.renderer rule).mono (fun _ _ hcf => hcf)
      fun _ _ _ _ _ hp => hp.1

theorem isHeading_eq {t : Tree} (hc : t.Shows id c) : t.isHeading id = c.own.isHeading := by
  rw [← hc.own_eq]
  rfl

theorem isElement_eq {t : Tree} (hc : t.Shows id c) : t.isElement id = c.own.isElement := by
  rw [← hc.own_eq]
  rfl

/-- What the first pass does to an element. -/
theorem agree_visitElement (h : run.tree.WellFormed) (hid : id < run.tree.size)
    (hc : run.tree.Shows id c) (p : Processor) :
    Agree [id] run.tree (fun _ t c' => t.Shows id c') (p.visitElement id run)
      (Value.visitElement p c run.notes) := by
  unfold Processor.visitElement Value.visitElement
  refine (agree_renderRegion h hid hc p).bind ?_
  rintro - c₁ run₁ hwf₁ hcf₁ hs₁
  have hid₁ := Nat.lt_of_lt_of_le hid hcf₁.size_le
  rw [bind_of_ok (getTree_eq run₁), isHeading_eq hs₁]
  by_cases hh : c₁.own.isHeading = true
  · dsimp only
    rw [if_pos hh, if_pos hh]
    refine ((agree_anchorHeading hwf₁ hid₁ hs₁ p.anchorClass).after hcf₁ h hwf₁).bind ?_
    rintro - c₂ run₂ hwf₂ hcf₂ hs₂
    exact (agree_applyRules hwf₂ (Nat.lt_of_lt_of_le hid hcf₂.size_le) hs₂ p).after hcf₂ h hwf₂
  · dsimp only
    rw [if_neg hh, if_neg hh, pure_bind]
    exact (agree_applyRules hwf₁ hid₁ hs₁ p).after hcf₁ h hwf₁

/-- **The first pass over nodes that are apart** is confined to them, and
what each one shows afterwards does not depend on the others. -/
theorem agree_forM {f : NodeId → PageM Unit} {g : Content → ValueM Content}
    (hf : ∀ {run : Run} {id : NodeId} {c : Content}, run.tree.WellFormed → id < run.tree.size →
      run.tree.Shows id c →
      Agree [id] run.tree (fun _ t c' => t.Shows id c') (f id run) (g c run.notes))
    {ids : List NodeId} :
    ∀ {cs : List Content} {run : Run}, run.tree.WellFormed → (∀ i ∈ ids, i < run.tree.size) →
      ids.Pairwise run.tree.Apart → List.Forall₂ run.tree.Shows ids cs →
      Agree ids run.tree (fun _ t cs' => List.Forall₂ t.Shows ids cs') (ids.forM f run)
        (cs.mapM g run.notes) := by
  induction ids with
  | nil =>
    rintro _ run h - - (_ | _)
    exact .ok run h (.refl _ _) .nil
  | cons i ids ih =>
    rintro _ run h hsize hapart (_ | ⟨hi, hids⟩)
    rename_i c cs
    have hia := (List.pairwise_cons.1 hapart).1
    have his := hsize i List.mem_cons_self
    have hsize := fun k hk => hsize k (List.mem_cons_of_mem i hk)
    have hroot : ∀ k ∈ ids, ∀ r ∈ [i], run.tree.Apart r k := fun k hk =>
      List.forall_mem_singleton.2 (hia k hk)
    -- the pass over the first node keeps the places of the others
    have hfirst : Agree (i :: ids) run.tree (fun _ t c' => Confined [i] run.tree t ∧ t.Shows i c')
        (f i run) (g c run.notes) :=
      (hf h his hi).mono (fun t _ hcf => hcf.widen (List.cons_subset_cons i (List.nil_subset ids))
        fun s hs hne =>
          have hs := (List.mem_cons.1 hs).resolve_left fun he => hne (List.mem_singleton.2 he)
          ⟨hsize s hs, fun r hr => (hroot s hs r hr).left⟩) fun _ _ _ _ hcf hs => ⟨hcf, hs⟩
    rw [List.forM_eq_forM, List.forM_cons, List.mapM_cons]
    refine hfirst.bind ?_
    rintro - c' run₁ hwf₁ hcf₁ ⟨hcfi, hs₁⟩
    obtain ⟨hia₁, hapart₁⟩ := List.pairwise_cons.1 (hcfi.pairwise_apart h hwf₁ hsize hapart)
    have his₁ := Nat.lt_of_lt_of_le his hcfi.size_le
    have hids₁ : List.Forall₂ run₁.tree.Shows ids cs :=
      List.forall₂_iff_zip.2 ⟨hids.length_eq, fun {k d} hk =>
        have hkm := (List.of_mem_zip hk).1
        hcfi.shows h (hsize k hkm) (hroot k hkm) (List.forall₂_zip hids hk)⟩
    -- and the pass over the others keeps what the first one shows
    have hnext : Agree (i :: ids) run.tree
        (fun _ t cs' => t.Shows i c' ∧ List.Forall₂ t.Shows ids cs')
        (ids.forM f run₁) (cs.mapM g run₁.notes) :=
      (ih hwf₁ (fun k hk => Nat.lt_of_lt_of_le (hsize k hk) hcfi.size_le) hapart₁ hids₁).mono
        (fun t _ hcf => hcf₁.trans (hcf.widen (List.subset_cons_self i ids) fun s hs hne =>
          (List.mem_cons.1 hs).resolve_right hne ▸ ⟨his₁, fun r hr => (hia₁ r hr).right⟩) h hwf₁)
        fun _ _ _ _ hcf hs => ⟨hcf.shows hwf₁ his₁ (fun r hr => (hia₁ r hr).symm) hs₁, hs⟩
    exact hnext.map fun _ _ _ _ _ ⟨hs, hss⟩ => .cons hs hss

/-- The first pass over the children of a node. -/
theorem agree_forM_children {f : NodeId → PageM Unit} {g : Content → ValueM Content}
    (hf : ∀ {run : Run} {id : NodeId} {c : Content}, run.tree.WellFormed → id < run.tree.size →
      run.tree.Shows id c →
      Agree [id] run.tree (fun _ t c' => t.Shows id c') (f id run) (g c run.notes))
    (run : Run) (h : run.tree.WellFormed) (hid : id < run.tree.size) (hc : run.tree.Shows id c) :
    Agree [id] run.tree (fun _ t cs' => t.Shows id (.node c.own cs'))
      ((run.tree.children id).forM f run) (c.children.mapM g run.notes) := by
  have hout : ∀ r ∈ run.tree.children id, ¬ run.tree.Within r id := fun r hr =>
    h.not_within_of_mem hr
  refine (agree_forM hf h (fun i hi => h.lt_of_mem hi) (h.pairwise_apart_children id)
    hc.children).mono (fun t _ hcf => ?_) fun _ t cs' _ hcf hs => ?_
  · refine hcf.weaken (fun r hr => ⟨id, List.mem_cons_self, Within.refl.child hr⟩) fun s hs => ?_
    rw [List.mem_singleton.1 hs]
    exact hcf.parent_eq_of_outside hid hout
  · refine shows_node.2 ⟨(hcf.own_eq hid hout).trans hc.own_eq, ?_⟩
    rw [hcf.children_eq hid hout]
    exact hs

/-- Going on to the children, with the element among the enclosing
ones. -/
theorem agree_descend {f : NodeId → PageM Unit} {g : Content → ValueM Content}
    (hf : ∀ {run : Run} {id : NodeId} {c : Content}, run.tree.WellFormed → id < run.tree.size →
      run.tree.Shows id c →
      Agree [id] run.tree (fun _ t c' => t.Shows id c') (f id run) (g c run.notes))
    (run : Run) (h : run.tree.WellFormed) (hid : id < run.tree.size) (hc : run.tree.Shows id c) :
    Agree [id] run.tree (fun _ t c' => t.Shows id c')
      ((getTree >>= fun t =>
        if t.isElement id = true then
          modifyContext (·.pushAncestor (t.tag id)) >>= fun _ => (t.children id).forM f >>= fun _ =>
            modifyContext (·.popAncestor.2)
        else (t.children id).forM f) run)
      (Value.descend g c run.notes) := by
  unfold Value.descend
  rw [bind_of_ok (getTree_eq run), isElement_eq hc, tag_eq_own, hc.own_eq]
  by_cases he : c.own.isElement = true
  · rw [if_pos he, if_pos he, bind_of_ok (modifyContext_eq _ _),
      bind_of_ok (value_modifyContext_eq _ _)]
    refine Agree.bind (agree_forM_children hf
      { run with context := run.context.pushAncestor c.own.tag } h hid hc) ?_
    rintro ⟨⟩ cs run₁ hwf₁ hcf₁ hs₁
    exact Agree.ok { run₁ with context := run₁.context.popAncestor.2 } hwf₁ hcf₁ hs₁
  · rw [if_neg he, if_neg he]
    exact (agree_forM_children hf run h hid hc).map fun _ _ _ _ _ hs => hs

/-- **The first pass does what it says of values.** -/
theorem agree_resolveTo (p : Processor) (depth : Nat) :
    ∀ {run : Run} {id : NodeId} {c : Content}, run.tree.WellFormed → id < run.tree.size →
      run.tree.Shows id c →
      Agree [id] run.tree (fun _ t c' => t.Shows id c') (p.resolveTo depth id run)
        (Value.resolveTo p depth c run.notes) := by
  induction depth with
  | zero => exact fun h _ _ => Agree.error _ h (.refl _ _)
  | succ depth ih =>
    intro run id c h hid hc
    unfold Processor.resolveTo Value.resolveTo Value.visit
    rw [bind_of_ok (getTree_eq run), isElement_eq hc]
    -- an element is visited first, and then any node is gone on from
    have hrest : ∀ (run₁ : Run) (c₁ : Content), run₁.tree.WellFormed →
        Confined [id] run.tree run₁.tree → run₁.tree.Shows id c₁ →
        Agree [id] run.tree (fun _ t c' => t.Shows id c')
          ((modifyTree (Processor.normalizeChildren · id) >>= fun _ => getTree >>= fun t =>
            if t.isElement id = true then
              modifyContext (·.pushAncestor (t.tag id)) >>= fun _ =>
                (t.children id).forM (p.resolveTo depth) >>= fun _ =>
                  modifyContext (·.popAncestor.2)
            else (t.children id).forM (p.resolveTo depth)) run₁)
          (Value.descend (Value.resolveTo p depth)
            (.node c₁.own (c₁.children.map Content.normalize)) run₁.notes) := by
      intro run₁ c₁ hwf₁ hcf₁ hs₁
      obtain ⟨hwf₂, hcf₂, hown, hch⟩ := hwf₁.normalizeChildren hs₁.children
      rw [bind_of_ok (modifyTree_eq _ run₁)]
      have hcf := hcf₁.trans hcf₂ h hwf₁
      exact (agree_descend ih { run₁ with tree := _ } hwf₂ (Nat.lt_of_lt_of_le hid hcf.size_le)
        (shows_node.2 ⟨hown.trans hs₁.own_eq, hch⟩)).after hcf h hwf₂
    by_cases he : c.own.isElement = true
    · dsimp only
      rw [if_pos he, if_pos he]
      exact (agree_visitElement h hid hc p).bind fun _ c₁ run₁ hwf₁ hcf₁ hs₁ =>
        hrest run₁ c₁ hwf₁ hcf₁ hs₁
    · dsimp only
      rw [if_neg he, if_neg he, pure_bind]
      exact hrest run c h (.refl _ _) hc

/-- **The first pass leaves a well formed tree**, also if it fails. -/
theorem wellFormed_resolve (p : Processor) (run : Run) (h : run.tree.WellFormed)
    (hid : id < run.tree.size) : (treeAfter (p.resolve id run)).WellFormed := by
  obtain ⟨c, hc⟩ := h.exists_shows id
  exact (agree_resolveTo p p.maxDepth h hid hc).wellFormed

end PageSlots.Page
