import PageSlots.Component.Slots
import PageSlots.Proofs.Content.Fragment
import PageSlots.Proofs.Slot.Below

/-!
# Normalizing keeps the slots of a component

The slot of a child is asked for before its marker is normalized and after
it: slots that are filled twice are found on the first tree, and the id of
a heading is looked for in the second one. Three functions have to agree
about every mix of markers. The reading prefers the first shorthand marker
to the older one; the migration drops the older marker beside a shorthand
one, or when it is empty, and renames it otherwise; and the wrapping takes
only the first shorthand marker off. They do agree: once the older marker
has been migrated, the first shorthand marker *is* the slot
(`Own.marker?_migrate`), and it is the one that moves to the wrapper.

The children are normalized one after the other, each migrated and wrapped
before the next one is looked at. The tree is the same as if all of them
had been migrated first (`exists_wrapped_normalizeChildren`), because a
migration leaves whatever the wrapping of another child has made. So what
is known of a sweep that wraps (`Wrapped`) is known here: each place of the
child list holds the old child or its wrapper. `KeepsSlots` is what this
comes to for the slots of the parent.
-/

namespace PageSlots.Markup

open PageSlots.Page PageSlots.Slot

/-! ## The slot and the marker of a node -/

namespace Own

variable {o : Own} {name : String}

/-- **After a migration the first marker of an element names its slot**,
and an element without a slot has no marker. -/
theorem marker?_migrate (hk : o.kind = .element) (hn : o.names.Nodup) :
    o.migrate.marker? = o.slotName.map marker := by
  have hnone : o.migrate.attr? legacyName = none := attr?_eq_none_iff.2 (notMem_names_migrate hk hn)
  rw [← slotName_migrate hn, slotName, if_pos ((kind_migrate o).trans hk), hnone]
  cases hm : o.migrate.marker? with
  | none => rfl
  | some name => exact congrArg some (marker_slotOfMarker (isMarker_of_marker? hm)).symm

theorem slotName_of_kind_ne (hk : o.kind ≠ .element) : o.slotName = none := by
  rw [slotName, if_neg hk]

/-- **A marker that moves is that of the slot.** -/
theorem slotName_of_movedMarker? (hn : o.names.Nodup) (h : o.migrate.movedMarker? = some name) :
    o.slotName = some (slotOfMarker name) := by
  obtain ⟨⟨hk, -⟩, hm⟩ := movedMarker?_eq_some_iff.1 h
  rw [← slotName_migrate hn, slotName, if_pos hk, hm]

/-- **What keeps its place with a slot is a `template`** that has the
marker of this slot. -/
theorem template_of_movedMarker?_eq_none {slot : String} (hn : o.names.Nodup)
    (h : o.migrate.movedMarker? = none) (hs : o.slotName = some slot) :
    o.migrate.kind = .element ∧ o.migrate.tag = wrapperTag
      ∧ o.migrate.marker? = some (marker slot) := by
  have hk : o.kind = .element := by
    by_contra hk
    rw [slotName_of_kind_ne hk] at hs
    cases hs
  have hm : o.migrate.marker? = some (marker slot) := by
    rw [marker?_migrate hk hn, hs]
    rfl
  have hk' : o.migrate.kind = .element := (kind_migrate o).trans hk
  refine ⟨hk', ?_, hm⟩
  by_contra ht
  rw [movedMarker?_eq_some_iff.2 ⟨⟨hk', ht⟩, hm⟩] at h
  cases h

end Own

namespace Tree

variable {t t' t₁ t₂ : Tree} {p i : NodeId} {done : List NodeId} {f : Own → Own}

/-! ## Positions -/

/-- **The position of the child that fills a slot.** -/
def slotIndex (t : Tree) (p : NodeId) (slot : String) : Option Nat :=
  (t.findSlot p slot).bind (t.children p).idxOf?

/-- The first entry that is found is nowhere before the place where it is
found. -/
theorem bind_idxOf?_find? (q : NodeId → Bool) (l : List NodeId) :
    (l.find? q).bind l.idxOf? = l.findIdx? q := by
  induction l with
  | nil => rfl
  | cons a l ih =>
    rw [List.findIdx?_cons]
    by_cases ha : q a = true
    · rw [List.find?_cons_of_pos ha, if_pos ha, Option.bind_some, List.idxOf?_cons]
      simp
    · rw [List.find?_cons_of_neg ha, if_neg ha, ← ih]
      cases hf : l.find? q with
      | none => rfl
      | some c =>
        have hca : a ≠ c := by
          rintro rfl
          exact ha (List.find?_some hf)
        rw [Option.bind_some, Option.bind_some, List.idxOf?_cons]
        simp [hca]

/-- **Where a slot is filled** is told by the slots of the children. -/
theorem slotIndex_eq (t : Tree) (p : NodeId) (slot : String) :
    t.slotIndex p slot = ((t.children p).map t.slotName).findIdx? (· = some slot) := by
  rw [slotIndex, findSlot, bind_idxOf?_find?, List.findIdx?_map]
  rfl

/-! ## One child after the other -/

/-- One more node, edited after the others. -/
theorem RecastAll.concat (h : RecastAll done f t t₁) (h' : Recast i f t₁ t₂) (hi : i ∉ done) :
    RecastAll (done ++ [i]) f t t₂ where
  size_eq := h'.size_eq.trans h.size_eq
  own_eq x := by
    rw [h'.own_eq, h.own_eq]
    by_cases hx : x = i
    · rw [hx, if_pos rfl, if_neg hi, if_pos (by simp)]
    · simp [hx]
  children_eq x := (h'.children_eq x).trans (h.children_eq x)
  parent_eq x := (h'.parent_eq x).trans (h.parent_eq x)

/-- **An edit of a node that is still to be taken** may be made before the
sweep or now. -/
theorem Wrapped.recast {top : NodeId → NodeId} (h : Wrapped done top t t')
    (hr : Recast i f t t₁) (hr' : Recast i f t' t₂) (hi : i < t.size) (hid : i ∉ done)
    (hf : (f (t.own i)).names.Nodup) : Wrapped done top t₁ t₂ := by
  have hown : t'.own i = t.own i := (h.own_eq i hi).trans (if_neg hid)
  have hdone : ∀ x ∈ done, t₁.own x = t.own x := fun x hx => hr.own_ne fun he => hid (he ▸ hx)
  exact {
    wellFormed := h.wellFormed.recast hr' (hown.symm ▸ hf)
    size_le := by
      rw [hr.size_eq, hr'.size_eq]
      exact h.size_le
    own_eq := fun x hx => by
      rw [hr.size_eq] at hx
      by_cases hxi : x = i
      · rw [hxi, if_neg hid, hr'.own_self, hr.own_self, hown]
      · rw [hr'.own_ne hxi, hr.own_ne hxi, h.own_eq x hx]
    children_eq := fun x hx => by
      rw [hr'.children_eq, hr.children_eq, h.children_eq x (hr.size_eq ▸ hx)]
    top_eq := fun x hx => h.top_eq x fun hxd => hdone x hxd ▸ hx hxd
    wrapper := fun x hxd name hname => by
      rw [hdone x hxd] at hname
      rw [hr.size_eq, hr'.children_eq,
        hr'.own_ne (h.top_ne hi fun he => hid (he ▸ hxd))]
      exact h.wrapper x hxd name hname
    new_eq := fun w hle hlt => by
      rw [hr.size_eq] at hle
      rw [hr'.size_eq] at hlt
      obtain ⟨x, hxd, hm, hw⟩ := h.new_eq w hle hlt
      exact ⟨x, hxd, hdone x hxd ▸ hm, hw⟩ }

/-- Normalizing listed nodes one after the other. -/
theorem WellFormed.exists_wrapped_foldl (h : t.WellFormed) {ids : List NodeId} (hnd : ids.Nodup)
    (hsize : ∀ i ∈ ids, i < t.size) :
    ∃ t₁ top, RecastAll ids Own.migrate t t₁
      ∧ Wrapped ids top t₁ (ids.foldl Processor.normalizeChild t) := by
  induction ids using List.reverseRecOn with
  | nil => exact ⟨t, _, RecastAll.nil Own.migrate t, Wrapped.nil h⟩
  | append_singleton ids i ih =>
    obtain ⟨hids, -, hdis⟩ := List.nodup_append.1 hnd
    have hi : i < t.size := hsize i (by simp)
    have hid : i ∉ ids := fun hm => hdis i hm i List.mem_cons_self rfl
    obtain ⟨t₁, top, hall, hw⟩ := ih hids fun k hk => hsize k (List.mem_append_left [i] hk)
    have hi₁ : i < t₁.size := hall.size_eq.symm ▸ hi
    -- the child is migrated in both trees, and only then wrapped in the second one
    have hr := recast_migrateMarker hi₁
    have hr' := recast_migrateMarker (Nat.lt_of_lt_of_le hi₁ hw.size_le)
    have hown : t₁.own i = t.own i := (hall.own_eq i).trans (if_neg hid)
    have hn := Own.nodup_names_migrate (hown.symm ▸ h.nodup_names i)
    obtain ⟨top', hstep⟩ := (hw.recast hr hr' hi₁ hid hn).step (hr.size_eq.symm ▸ hi₁) hid
    rw [List.foldl_concat]
    exact ⟨_, top', hall.concat hr hid, hstep⟩

/-- **Normalizing the children of a node** is migrating all of them and
then wrapping them. -/
theorem WellFormed.exists_wrapped_normalizeChildren (h : t.WellFormed) (p : NodeId) :
    ∃ t₁ top, RecastAll (t.children p) Own.migrate t t₁
      ∧ Wrapped (t.children p) top t₁ (Processor.normalizeChildren t p) :=
  h.exists_wrapped_foldl (h.nodup_children p) fun _ hi => h.lt_of_mem hi

/-! ## The slots of a node -/

/-- **One tree is another with the slots of a node kept**: the children
have become `template`s, or stay, and each place of the child list is that
of the slot that it was. -/
structure KeepsSlots (p : NodeId) (t t' : Tree) : Prop where
  /-- The tree is well formed. -/
  wellFormed : t'.WellFormed
  /-- Nothing changes outside the node. -/
  confined : Confined [p] t t'
  /-- The node has as many children as it had. -/
  length_eq : (t'.children p).length = (t.children p).length
  /-- The child at each place fills the slot that was filled there. -/
  slotName_eq : (t'.children p).map t'.slotName = (t.children p).map t.slotName
  /-- So each slot is found at the same place. -/
  slotIndex_eq : ∀ slot, t'.slotIndex p slot = t.slotIndex p slot
  /-- At each place stands the old child, or a new `template` that has the
  old child as its only one. -/
  child : ∀ (k : Nat) (old new : NodeId), (t.children p)[k]? = some old → (t'.children p)[k]? = some new →
    new = old ∨ t.size ≤ new ∧ t'.isElement new = true ∧ t'.tag new = wrapperTag
      ∧ t'.children new = [old]
  /-- Whatever fills a slot is a `template` with the marker of the slot. -/
  marked : ∀ c ∈ t'.children p, ∀ slot, t'.slotName c = some slot →
    t'.isElement c = true ∧ t'.tag c = wrapperTag ∧ t'.marker? c = some (marker slot)

/-- What stands in the place of a child that has been migrated and
wrapped. -/
theorem Wrapped.top_cases_of_recastAll {top : NodeId → NodeId} (hw : Wrapped done top t₁ t')
    (hall : RecastAll done Own.migrate t t₁) (h : t.WellFormed) (hi : i ∈ done) (his : i < t.size) :
    (top i = i ∧ t'.own i = (t.own i).migrate ∧ (t.own i).migrate.movedMarker? = none)
      ∨ ∃ name, (t.own i).slotName = some (slotOfMarker name) ∧ isMarker name = true
        ∧ t.size ≤ top i ∧ t'.own (top i) = Own.wrapper name ∧ t'.children (top i) = [i] := by
  have hown : t₁.own i = (t.own i).migrate := (hall.own_eq i).trans (if_pos hi)
  cases hm : (t.own i).migrate.movedMarker? with
  | none =>
    have hsame : t'.own i = (t₁.own i).withoutMarker :=
      (hw.own_eq i (hall.size_eq.symm ▸ his)).trans (if_pos hi)
    refine .inl ⟨hw.top_eq i fun _ => hown ▸ hm, ?_, rfl⟩
    rw [hsame, hown, Own.withoutMarker_of_none hm]
  | some name =>
    obtain ⟨hle, ho, hc⟩ := hw.wrapper i hi name (hown ▸ hm)
    rw [hall.size_eq] at hle
    exact .inr ⟨name, Own.slotName_of_movedMarker? (h.nodup_names i) hm,
      Own.isMarker_of_marker? (Own.movedMarker?_eq_some_iff.1 hm).2, hle, ho, hc⟩

/-- The place of such a child keeps its slot. -/
theorem Wrapped.slotName_top {top : NodeId → NodeId} (hw : Wrapped done top t₁ t')
    (hall : RecastAll done Own.migrate t t₁) (h : t.WellFormed) (hi : i ∈ done) (his : i < t.size) :
    t'.slotName (top i) = t.slotName i := by
  rw [slotName_eq_own, slotName_eq_own]
  rcases hw.top_cases_of_recastAll hall h hi his with ⟨htop, ho, -⟩ | ⟨name, hs, hm, -, ho, -⟩
  · rw [htop, ho, Own.slotName_migrate (h.nodup_names i)]
  · rw [ho, hs, Own.slotName_wrapper hm]

/-- If it fills a slot, there is a `template` with the marker of the
slot. -/
theorem Wrapped.marked_top {top : NodeId → NodeId} {slot : String} (hw : Wrapped done top t₁ t')
    (hall : RecastAll done Own.migrate t t₁) (h : t.WellFormed) (hi : i ∈ done) (his : i < t.size)
    (hs : t.slotName i = some slot) :
    t'.isElement (top i) = true ∧ t'.tag (top i) = wrapperTag
      ∧ t'.marker? (top i) = some (marker slot) := by
  rw [slotName_eq_own] at hs
  rw [marker?_eq_own, tag_eq_own, isElement_iff]
  rcases hw.top_cases_of_recastAll hall h hi his with
    ⟨htop, ho, hnone⟩ | ⟨name, hname, hm, -, ho, -⟩
  · rw [htop, ho]
    exact Own.template_of_movedMarker?_eq_none (h.nodup_names i) hnone hs
  · obtain rfl : slotOfMarker name = slot := Option.some.inj (hname.symm.trans hs)
    rw [ho, Own.marker?_wrapper hm, marker_slotOfMarker hm]
    exact ⟨rfl, rfl, rfl⟩

/-- **Normalizing the children of a node keeps its slots.** -/
theorem WellFormed.keepsSlots_normalizeChildren (h : t.WellFormed) (p : NodeId) :
    KeepsSlots p t (Processor.normalizeChildren t p) := by
  obtain ⟨t₁, top, hall, hw⟩ := h.exists_wrapped_normalizeChildren p
  obtain ⟨cs, hcs⟩ := exists_forall₂_shows fun i (_ : i ∈ t.children p) => h.exists_shows i
  obtain ⟨hwf, hconf, -, -⟩ := h.normalizeChildren hcs
  have hch : (Processor.normalizeChildren t p).children p = (t.children p).map top := by
    rcases Nat.lt_or_ge p t.size with hp | hp
    · rw [hw.children_eq p (hall.size_eq.symm ▸ hp), hall.children_eq]
    · rw [Processor.normalizeChildren, children_of_le hp]
      exact children_of_le hp
  generalize Processor.normalizeChildren t p = t' at hw hwf hconf hch
  have hlt : ∀ i ∈ t.children p, i < t.size := fun i hi => h.lt_of_mem hi
  have hslot : ∀ i ∈ t.children p, t'.slotName (top i) = t.slotName i :=
    fun i hi => hw.slotName_top hall h hi (hlt i hi)
  have hslots : (t'.children p).map t'.slotName = (t.children p).map t.slotName := by
    rw [hch, List.map_map]
    exact List.map_congr_left hslot
  refine {
    wellFormed := hwf
    confined := hconf
    length_eq := by rw [hch, List.length_map]
    slotName_eq := hslots
    slotIndex_eq := fun slot => by rw [slotIndex_eq, slotIndex_eq, hslots]
    child := fun k old new hold hnew => ?_
    marked := fun c hc slot hs => ?_ }
  · have hmem : old ∈ t.children p := List.mem_of_getElem? hold
    rw [hch, List.getElem?_map, hold, Option.map_some, Option.some.injEq] at hnew
    subst hnew
    rcases hw.top_cases_of_recastAll hall h hmem (hlt old hmem) with
      ⟨htop, -⟩ | ⟨name, -, -, hle, ho, hc⟩
    · exact .inl htop
    · exact .inr ⟨hle, isElement_iff.2 (ho ▸ rfl), by rw [tag_eq_own, ho]; rfl, hc⟩
  · rw [hch] at hc
    obtain ⟨i, hi, rfl⟩ := List.mem_map.1 hc
    exact hw.marked_top hall h hi (hlt i hi) (hslot i hi ▸ hs)

/-- A child with two markers, one with the older marker, one with both, a
`template` and a text. -/
theorem keepsSlots_normalizeChildren_panel :
    let t := (readFragment ("<panel><p slot=x #a #b></p><i slot=y></i><b slot=y #b></b>"
      ++ "<template slot=z></template>t</panel>")).tree
    let t' := Processor.normalizeChildren t 2
    t.WellFormed ∧ KeepsSlots 2 t t'
      ∧ (t'.children 2).map t'.slotName = [some "a", some "y", some "b", some "z", none]
      ∧ t'.size = t.size + 3 := by
  intro t t'
  have hok : (readFragment ("<panel><p slot=x #a #b></p><i slot=y></i><b slot=y #b></b>"
      ++ "<template slot=z></template>t</panel>")).nodes = .ok [2] := by decide +kernel
  have hwf : t.WellFormed := (readFragment_of_ok hok).1
  have hslots : (t'.children 2).map t'.slotName = [some "a", some "y", some "b", some "z", none]
      ∧ t'.size = t.size + 3 := by decide +kernel
  exact ⟨hwf, hwf.keepsSlots_normalizeChildren 2, hslots⟩

end Tree

end PageSlots.Markup
