import PageSlots.Page.Processor
import PageSlots.Proofs.Content.Basic
import PageSlots.Proofs.Slot.Own
import PageSlots.Proofs.Tree.Wrap

/-!
# Normalizing the children of a node

Before the children of a node are visited, the marker of each is given its
place on a `template`: an older marker is migrated, and a shorthand marker
moves onto a new `template` around the child. Either way the child list of
the node keeps its length, and at the place of the child stands the child
itself or its new wrapper. `Tree.Exchanges` is this relation between two
trees, and `WellFormed.normalizeChildren` says what the children show once
all of them have been normalized: `Content.normalize` of what they showed.
-/

namespace PageSlots.Markup

open PageSlots.Slot PageSlots.Page

/-! ## Contents -/

namespace Content

/-- Move the shorthand marker of a content onto a `template` around it. -/
def wrapMarked (c : Content) : Content :=
  if c.own.kind = .element ∧ c.own.tag ≠ wrapperTag then
    match c.own.marker? with
    | none => c
    | some name => .node (Own.wrapper name) [c.mapOwn (Own.removeAttr name)]
  else c

/-- Give the marker of a content its place on a `template`. -/
def normalize (c : Content) : Content :=
  (c.mapOwn Own.migrate).wrapMarked

end Content

namespace Tree

variable {t t' t'' : Tree} {p i i' id : NodeId} {c : Content} {cs : List Content}

/-! ## Markers of a node -/

theorem marker?_eq_own (t : Tree) (id : NodeId) : t.marker? id = (t.own id).marker? := rfl

theorem slotName_eq_own (t : Tree) (id : NodeId) : t.slotName id = (t.own id).slotName := by
  unfold slotName Own.slotName
  by_cases hk : (t.own id).kind = .element
  · rw [if_pos (isElement_iff.2 hk), if_pos hk]
    rfl
  · rw [if_neg (fun he => hk (isElement_iff.1 he)), if_neg hk]

theorem recast_setSlotName (h : id < t.size) (slot : String) :
    Recast id (Own.setSlotName slot) t (t.setSlotName id slot) := by
  unfold setSlotName
  split
  · rename_i name hm
    refine (recast_renameAttr h name (marker slot)).congr ?_
    rw [Own.setSlotName, ← marker?_eq_own, hm]
  · rename_i hm
    rw [hasAttr_eq_own]
    split
    · rename_i ha
      refine (recast_setAttr h legacyName slot).congr ?_
      rw [Own.setSlotName, ← marker?_eq_own, hm]
      exact (if_pos ha).symm
    · rename_i ha
      refine Recast.refl ?_
      rw [Own.setSlotName, ← marker?_eq_own, hm]
      exact if_neg ha

theorem recast_migrateMarker (h : id < t.size) :
    Recast id Own.migrate t (t.migrateMarker id).2 := by
  unfold migrateMarker
  rw [attr?_eq_own, marker?_eq_own]
  by_cases hk : (t.own id).kind = .element
  · rw [if_pos (isElement_iff.2 hk)]
    split
    · rename_i hv
      refine Recast.refl ?_
      rw [Own.migrate, if_pos hk, hv]
    · rename_i slot hv
      split
      · rename_i hd
        refine (recast_removeAttr h legacyName).congr ?_
        rw [Own.migrate, if_pos hk, hv]
        exact (if_pos hd).symm
      · rename_i hd
        have hr := recast_renameAttr h legacyName (marker slot)
        refine (hr.trans (recast_setAttr (hr.size_eq ▸ h) (marker slot) "")).congr ?_
        rw [Own.migrate, if_pos hk, hv]
        exact (if_neg hd).symm
  · rw [if_neg (fun he => hk (isElement_iff.1 he))]
    exact Recast.refl (by rw [Own.migrate, if_neg hk])

/-! ## Exchanging a child -/

/-- **One tree is another with one child of a node exchanged**, and with
what its other children show as it was. -/
structure Exchanges (p i i' : NodeId) (t t' : Tree) : Prop where
  /-- The tree is well formed. -/
  wellFormed : t'.WellFormed
  /-- Nothing changes outside the node. -/
  confined : Confined [p] t t'
  /-- The node keeps its own data. -/
  own_eq : t'.own p = t.own p
  /-- In its child list one number stands for another. -/
  children_eq : t'.children p = (t.children p).map fun b => if b = i then i' else b
  /-- The other children show what they showed. -/
  shows : ∀ b ∈ t.children p, b ≠ i → ∀ d, t.Shows b d → t'.Shows b d

theorem map_exchange_self (l : List NodeId) (i : NodeId) :
    (l.map fun b => if b = i then i else b) = l := by
  refine (List.map_congr_left fun b _ => ?_).trans (List.map_id l)
  split
  · rename_i hb
    exact hb.symm
  · rfl

namespace Exchanges

/-- An edit of a child's own data keeps the child. -/
theorem of_recast {f : Own → Own} (h : t.WellFormed) (hi : i ∈ t.children p)
    (hr : Recast i f t t') (hf : (f (t.own i)).names.Nodup) : Exchanges p i i t t' where
  wellFormed := h.recast hr hf
  confined := hr.confined (Within.refl.child hi)
  own_eq := hr.own_ne (by
    rintro rfl
    exact h.not_within_of_mem hi .refl)
  children_eq := by rw [hr.children_eq, map_exchange_self]
  shows _ hb hne _ hd := hr.shows (h.not_within_sibling hb hi hne) hd

theorem trans (h : Exchanges p i i t t') (h' : Exchanges p i i' t' t'') (hwf : t.WellFormed) :
    Exchanges p i i' t t'' where
  wellFormed := h'.wellFormed
  confined := h.confined.trans h'.confined hwf h.wellFormed
  own_eq := h'.own_eq.trans h.own_eq
  children_eq := by rw [h'.children_eq, h.children_eq, map_exchange_self]
  shows b hb hne d hd := h'.shows b (by rwa [h.children_eq, map_exchange_self]) hne d
    (h.shows b hb hne d hd)

/-- **Wrapping a child** exchanges it for the wrapper. -/
theorem of_wrap (h : t.WellFormed) (hi : i ∈ t.children p) (tag : String)
    {attrs : List Attribute} (hn : (attributeNames attrs).Nodup) :
    Exchanges p i t.size t (t.wrap i tag attrs).2 := by
  have his := h.lt_of_mem hi
  have hps := lt_of_mem_children hi
  have hch := children_wrap h his tag hn
  have hpar := parent_wrap h his tag hn
  have hpi : p ≠ i := by
    rintro rfl
    exact h.not_within_of_mem hi .refl
  have hkeep : ∀ x < t.size, x ≠ p → (t.wrap i tag attrs).2.children x = t.children x := by
    intro x hx hxp
    have hpx : t.parent i ≠ some x := fun he =>
      hxp (Option.some.inj (he.symm.trans ((h.parent_iff i p).2 hi)))
    rw [hch, if_neg (Nat.ne_of_lt hx), h.map_replace_of_parent_ne hpx]
  have hown : ∀ x < t.size, (t.wrap i tag attrs).2.own x = t.own x := fun x hx => by
    rw [own_wrap, if_neg (Nat.ne_of_lt hx)]
  exact {
    wellFormed := h.wrap his tag hn
    confined := {
      size_le := by rw [size_wrap]; exact Nat.le_succ _
      node_eq := fun x hx hout => by
        have hxp : x ≠ p := by
          rintro rfl
          exact hout x List.mem_cons_self .refl
        have hxi : x ≠ i := by
          rintro rfl
          exact hout p List.mem_cons_self (Within.refl.child hi)
        refine node_ext (hown x hx) (hkeep x hx hxp) ?_
        rw [hpar, if_neg hxi, if_neg (Nat.ne_of_lt hx)]
      parent_eq := fun r hr => by
        rw [List.mem_singleton.1 hr, hpar, if_neg hpi, if_neg (Nat.ne_of_lt hps)] }
    own_eq := hown p hps
    children_eq := by rw [hch, if_neg (Nat.ne_of_lt hps)]
    shows := fun b hb _ d hd => hd.congr fun x hx => by
      have hxs := h.lt_of_within (h.lt_of_mem hb) hx
      refine ⟨hown x hxs, hkeep x hxs ?_⟩
      rintro rfl
      exact h.not_within_of_mem hb hx }

end Exchanges

/-- A wrapper shows itself around what the wrapped node showed. -/
theorem WellFormed.shows_wrap (h : t.WellFormed) (hi : i < t.size) (tag : String)
    {attrs : List Attribute} (hn : (attributeNames attrs).Nodup) (hc : t.Shows i c) :
    (t.wrap i tag attrs).2.Shows t.size (.node { kind := .element, tag, attrs } [c]) := by
  refine shows_node.2 ⟨by rw [own_wrap, if_pos rfl], ?_⟩
  rw [children_wrap h hi tag hn, if_pos rfl]
  refine .cons (hc.congr fun x hx => ?_) .nil
  have hxs := h.lt_of_within hi hx
  -- the parent of the wrapped node does not stand below it
  have hpx : t.parent i ≠ some x := fun he => h.acyclic i x he hx
  rw [own_wrap, if_neg (Nat.ne_of_lt hxs), children_wrap h hi tag hn,
    if_neg (Nat.ne_of_lt hxs), h.map_replace_of_parent_ne hpx]
  exact ⟨rfl, rfl⟩

/-! ## Normalizing -/

/-- **Wrapping a marked child.** -/
theorem WellFormed.exchanges_wrapMarked (h : t.WellFormed) (hi : i ∈ t.children p)
    (hc : t.Shows i c) :
    ∃ i', Exchanges p i i' t (t.wrapMarked i).2 ∧ (t.wrapMarked i).2.Shows i' c.wrapMarked := by
  obtain ⟨o, cs⟩ := c
  have ho := hc.own_eq
  rw [Content.own_node] at ho
  have hsame : Exchanges p i i t t :=
    .of_recast (f := id) h hi (Recast.refl rfl) (h.nodup_names i)
  unfold wrapMarked Content.wrapMarked
  rw [tag_eq_own, marker?_eq_own, ho, Content.own_node]
  by_cases hm : o.kind = .element ∧ o.tag ≠ wrapperTag
  · rw [if_pos hm, if_pos (by
      rw [Bool.and_eq_true, isElement_iff, ho]
      simpa using hm)]
    cases hmark : o.marker? with
    | none => exact ⟨i, hsame, hc⟩
    | some name =>
      have hr := recast_removeAttr (h.lt_of_mem hi) name
      have hnodup := Own.nodup_names_removeAttr name (h.nodup_names i)
      have he := Exchanges.of_recast h hi hr hnodup
      have hw := Exchanges.of_wrap he.wellFormed (p := p) (i := i)
        (by rw [he.children_eq, map_exchange_self]; exact hi) wrapperTag
        (Own.nodup_names_wrapper name)
      exact ⟨_, he.trans hw h, he.wellFormed.shows_wrap (hr.size_eq ▸ h.lt_of_mem hi) wrapperTag
        (Own.nodup_names_wrapper name) (hr.shows_self h hc)⟩
  · rw [if_neg hm, if_neg (by
      rw [Bool.and_eq_true, isElement_iff, ho]
      simpa using hm)]
    exact ⟨i, hsame, hc⟩

/-- **Normalizing a child.** -/
theorem WellFormed.exchanges_normalizeChild (h : t.WellFormed) (hi : i ∈ t.children p)
    (hc : t.Shows i c) :
    ∃ i', Exchanges p i i' t (Processor.normalizeChild t i)
      ∧ (Processor.normalizeChild t i).Shows i' c.normalize := by
  obtain ⟨o, cs⟩ := c
  have hr := recast_migrateMarker (h.lt_of_mem hi)
  have he := Exchanges.of_recast h hi hr (Own.nodup_names_migrate (h.nodup_names i))
  obtain ⟨i', he', hs⟩ := he.wellFormed.exchanges_wrapMarked (p := p) (i := i)
    (by rw [he.children_eq, map_exchange_self]; exact hi) (hr.shows_self h hc)
  exact ⟨i', he.trans he' h, hs⟩

/-- Normalizing the children of a node from one of them on. -/
private theorem foldl_normalizeChild {rest : List NodeId} :
    ∀ (done : List NodeId) (ds : List Content) (t : Tree), t.WellFormed →
      t.children p = done ++ rest → List.Forall₂ t.Shows done ds → List.Forall₂ t.Shows rest cs →
      let t' := rest.foldl Processor.normalizeChild t
      t'.WellFormed ∧ Confined [p] t t' ∧ t'.own p = t.own p
        ∧ List.Forall₂ t'.Shows (t'.children p) (ds ++ cs.map Content.normalize) := by
  induction rest generalizing cs with
  | nil =>
    intro done ds t h hch hd hr
    cases hr
    rw [List.append_nil] at hch
    refine ⟨h, Confined.refl _ t, rfl, ?_⟩
    rw [List.map_nil, List.append_nil, List.foldl_nil, hch]
    exact hd
  | cons i rest ih =>
    intro done ds t h hch hd hr
    obtain ⟨c, cs, hc, hcs, rfl⟩ := List.forall₂_cons_left_iff.1 hr
    have hmem : ∀ b, b ∈ done ∨ b = i ∨ b ∈ rest → b ∈ t.children p := fun b hb => by
      rw [hch]
      simpa using hb
    have hnd := h.nodup_children p
    rw [hch, List.nodup_append, List.nodup_cons] at hnd
    have hdone : ∀ b ∈ done, b ≠ i := fun b hb he => hnd.2.2 b hb i List.mem_cons_self he
    have hrest : ∀ b ∈ rest, b ≠ i := fun b hb he => hnd.2.1.1 (he ▸ hb)
    obtain ⟨i', he, hs⟩ := h.exchanges_normalizeChild (hmem i (Or.inr (Or.inl rfl))) hc
    -- the child list names one node in place of another, and the others show what they showed
    have hkeep : ∀ l : List NodeId, (∀ b ∈ l, b ≠ i) →
        (l.map fun b => if b = i then i' else b) = l := fun l hl =>
      (List.map_congr_left fun b hb => if_neg (hl b hb)).trans (List.map_id l)
    have hshow : ∀ (l : List NodeId) (es : List Content), (∀ b ∈ l, b ∈ t.children p ∧ b ≠ i) →
        List.Forall₂ t.Shows l es → List.Forall₂ (Processor.normalizeChild t i).Shows l es :=
      fun l es hl hes => List.forall₂_iff_zip.2 ⟨hes.length_eq, fun {b d} hb => by
        have hbm := hl b (List.of_mem_zip hb).1
        exact he.shows b hbm.1 hbm.2 d (List.forall₂_zip hes hb)⟩
    obtain ⟨hwf, hconf, hown, hall⟩ := ih (done ++ [i']) (ds ++ [c.normalize])
      (Processor.normalizeChild t i) he.wellFormed
      (by rw [he.children_eq, hch, List.map_append, List.map_cons, if_pos rfl, hkeep done hdone,
        hkeep rest hrest, List.append_assoc, List.singleton_append])
      (List.rel_append (hshow done ds (fun b hb => ⟨hmem b (Or.inl hb), hdone b hb⟩) hd)
        (.cons hs .nil))
      (hshow rest cs (fun b hb => ⟨hmem b (Or.inr (Or.inr hb)), hrest b hb⟩) hcs)
    refine ⟨hwf, he.confined.trans hconf h he.wellFormed, hown.trans he.own_eq, ?_⟩
    rwa [List.append_assoc, List.singleton_append] at hall

/-- **Normalizing the children of a node** normalizes what they show. -/
theorem WellFormed.normalizeChildren (h : t.WellFormed)
    (hcs : List.Forall₂ t.Shows (t.children p) cs) :
    (Processor.normalizeChildren t p).WellFormed
      ∧ Confined [p] t (Processor.normalizeChildren t p)
      ∧ (Processor.normalizeChildren t p).own p = t.own p
      ∧ List.Forall₂ (Processor.normalizeChildren t p).Shows
          ((Processor.normalizeChildren t p).children p) (cs.map Content.normalize) :=
  foldl_normalizeChild [] [] t h rfl .nil hcs

end Tree

end PageSlots.Markup
