import PageSlots.Proofs.Component.Finished
import PageSlots.Proofs.Content.Splice
import PageSlots.Proofs.Slot.Below

/-!
# Migrating the markers of a subtree

The older marker of an element is one entry of an ordered list, and its
migration has to replace, drop or leave that entry without moving another
one. Three edits of the list do it – a renaming that takes the new name off
any other attribute, a value that is set, a removal – and each of them
searches the list again. What they come to is one pass:
`Own.newerMarker` says of each attribute what stands in its place, and the
migrated list is the list of these (`Own.attrs_migrate`).

The edits agree with the pass because a name is there at most once, and
because a marker is made only where no marker is, so that the renaming
finds nothing to take off.
-/

namespace PageSlots.Markup

open PageSlots.Slot

/-! ## Attributes -/

namespace Own

variable {o : Own} {pre post : List Attribute} {slot : String}

/-- **What stands in the place of an attribute of an element** once its
older marker has been migrated: the shorthand marker of the same slot in
place of the older marker, or nothing if that is empty or stands beside a
shorthand marker. -/
def newerMarker (o : Own) (a : Attribute) : Option Attribute :=
  if a.name = legacyName then
    if a.value = "" ∨ o.marker?.isSome = true then none else some ⟨marker a.value, ""⟩
  else some a

/-- Attributes that are no older marker keep their places. -/
theorem filterMap_newerMarker_of_notMem {attrs : List Attribute} (o : Own)
    (h : legacyName ∉ attributeNames attrs) : attrs.filterMap o.newerMarker = attrs := by
  have hall : ∀ a ∈ attrs, o.newerMarker a = some a := fun a ha =>
    if_neg fun he => h (mem_attributeNames.2 ⟨a, ha, he⟩)
  rw [List.filterMap_congr hall, List.filterMap_some]

/-- What stands before the older marker and after it stays there. -/
theorem filterMap_newerMarker_append (hattrs : o.attrs = pre ++ ⟨legacyName, slot⟩ :: post)
    (hn : o.names.Nodup) :
    o.attrs.filterMap o.newerMarker
      = pre ++ (o.newerMarker ⟨legacyName, slot⟩).toList ++ post := by
  rw [names, hattrs, attributeNames_append, attributeNames_cons] at hn
  obtain ⟨-, hpost, hdis⟩ := List.nodup_append.1 hn
  have hpre : legacyName ∉ attributeNames pre := fun hm => hdis _ hm _ List.mem_cons_self rfl
  rw [hattrs, List.filterMap_append, List.filterMap_cons,
    filterMap_newerMarker_of_notMem o hpre,
    filterMap_newerMarker_of_notMem o (List.nodup_cons.1 hpost).1]
  cases o.newerMarker ⟨legacyName, slot⟩ <;> simp

/-- **The migration of an element in one pass** over its attributes. -/
theorem attrs_migrate (hk : o.kind = .element) (hn : o.names.Nodup) :
    o.migrate.attrs = o.attrs.filterMap o.newerMarker := by
  rcases migrate_cases hk with ⟨hnone, h⟩ | ⟨slot, hv, hdrop, h⟩
    | ⟨slot, pre, post, -, hne, hnone, hattrs, hmig, -, -⟩
  · rw [h, filterMap_newerMarker_of_notMem o (attr?_eq_none_iff.1 hnone)]
  · obtain ⟨pre, a, post, hattrs, rfl, hpre⟩ := exists_of_attr?_eq_some hv
    have hgone : o.newerMarker ⟨legacyName, slot⟩ = none := by
      rw [newerMarker, if_pos rfl, if_pos hdrop]
    rw [h, filterMap_newerMarker_append hattrs hn, hgone, attrs_removeAttr_append hattrs hpre]
    simp
  · have hnew : o.newerMarker ⟨legacyName, slot⟩ = some ⟨marker slot, ""⟩ := by
      rw [newerMarker, if_pos rfl, if_neg (by simp [hne, hnone])]
    rw [hmig, filterMap_newerMarker_append hattrs hn, hnew]
    simp

end Own

/-! ## Subtrees -/

namespace Tree

variable {t t' : Tree} {r x : NodeId}

/-- **One tree is another with the older markers migrated** on a node and
below it. -/
structure MarkersMigrated (r : NodeId) (t t' : Tree) : Prop where
  /-- No node comes or goes. -/
  size_eq : t'.size = t.size
  /-- Each node keeps its children. -/
  children_eq : ∀ x, t'.children x = t.children x
  /-- It keeps its parent. -/
  parent_eq : ∀ x, t'.parent x = t.parent x
  /-- It stays what it is. -/
  kind_eq : ∀ x, t'.kind x = t.kind x
  /-- It keeps its tag. -/
  tag_eq : ∀ x, t'.tag x = t.tag x
  /-- It keeps its character data. -/
  text_eq : ∀ x, t'.text x = t.text x
  /-- It fills the slot that it filled. -/
  slotName_eq : ∀ x, t'.slotName x = t.slotName x
  /-- Outside the subtree nothing changes. -/
  get?_eq : ∀ x, ¬ t.Within r x → t'.get? x = t.get? x
  /-- Neither does a node that is no element. -/
  get?_eq_of_isElement_eq : ∀ x, t.isElement x = false → t'.get? x = t.get? x
  /-- An element of the subtree keeps its attributes in their order, but for
  what stands in the place of the older marker. -/
  attrs_eq : ∀ x, t.Within r x → t.isElement x = true →
    t'.attrs x = (t.attrs x).filterMap (t.own x).newerMarker
  /-- It has no older marker. -/
  hasAttr_eq : ∀ x, t.Within r x → t.isElement x = true → t'.hasAttr x legacyName = false

/-- Migrating the nodes of a subtree migrates its markers. -/
theorem RecastAll.markersMigrated (hm : RecastAll (t.descendants r) Own.migrate t t')
    (h : t.WellFormed) (hr : r < t.size) : MarkersMigrated r t t' := by
  have hown : ∀ x, t'.own x = t.own x ∨ t.Within r x ∧ t'.own x = (t.own x).migrate := fun x => by
    rw [hm.own_eq]
    split
    · rename_i hx
      exact .inr ⟨(h.mem_descendants_iff hr).1 hx, rfl⟩
    · exact .inl rfl
  have hmigrate : ∀ {x}, t.Within r x → t'.own x = (t.own x).migrate := fun hx =>
    (hm.own_eq _).trans (if_pos ((h.mem_descendants_iff hr).2 hx))
  -- a migration leaves all own data but the attributes
  have hsame : ∀ x, t'.own x = { t.own x with attrs := t'.attrs x } := fun x => by
    rcases hown x with he | ⟨-, he⟩
    · rw [attrs_eq_own, he]
    · rw [attrs_eq_own, he]
      exact Own.migrate_eq _
  have hnode : ∀ x, t'.own x = t.own x → t'.get? x = t.get? x := fun x hx => by
    have hn := node_ext hx (hm.children_eq x) (hm.parent_eq x)
    by_cases hlt : x < t.size
    · exact get?_eq_of_node_eq (Nat.le_of_eq hm.size_eq.symm) hlt hn
    · rw [(get?_eq_none_iff t x).2 (Nat.le_of_not_lt hlt),
        (get?_eq_none_iff t' x).2 (hm.size_eq ▸ Nat.le_of_not_lt hlt)]
  refine {
    size_eq := hm.size_eq
    children_eq := hm.children_eq
    parent_eq := hm.parent_eq
    kind_eq := fun x => congrArg Own.kind (hsame x)
    tag_eq := fun x => congrArg Own.tag (hsame x)
    text_eq := fun x => congrArg Own.text (hsame x)
    slotName_eq := fun x => ?_
    get?_eq := fun x hx => hnode x ((hown x).resolve_right fun hw => hx hw.1)
    get?_eq_of_isElement_eq := fun x hx => hnode x ?_
    attrs_eq := fun x hx hk => ?_
    hasAttr_eq := fun x hx hk => ?_ }
  · rw [slotName_eq_own, slotName_eq_own]
    rcases hown x with he | ⟨-, he⟩
    · rw [he]
    · rw [he, Own.slotName_migrate (h.nodup_names x)]
  · rcases hown x with he | ⟨-, he⟩
    · exact he
    · rw [he, Own.migrate_eq_self fun hk => ?_]
      rw [isElement_iff.2 hk] at hx
      cases hx
  · rw [attrs_eq_own, hmigrate hx, Own.attrs_migrate (isElement_iff.1 hk) (h.nodup_names x)]
    rfl
  · rw [hasAttr_eq_own, hmigrate hx, Bool.eq_false_iff]
    exact fun hhas => Own.notMem_names_migrate (isElement_iff.1 hk) (h.nodup_names x)
      (Own.hasAttr_iff.1 hhas)

/-- Where the markers have been migrated, there is nothing to migrate. -/
theorem MarkersMigrated.migrateMarkersBelow_eq_self (hm : MarkersMigrated r t t')
    (h : t'.WellFormed) (hr : r < t'.size) : t'.migrateMarkersBelow r = t' := by
  refine (h.recastAll_migrateMarkersBelow hr).eq_self fun x hx => Own.migrate_eq_self fun hk hl => ?_
  have hw := (within_congr hm.children_eq).1 ((h.mem_descendants_iff hr).1 hx)
  have hk' : t.isElement x = true := by
    rw [isElement, ← hm.kind_eq]
    exact isElement_iff.2 hk
  have hnone := hm.hasAttr_eq x hw hk'
  rw [hasAttr_eq_own, Own.hasAttr_iff.2 hl] at hnone
  cases hnone

/-- **Migrating the older markers below a node** replaces each of them in
its place, keeps the slot that each node fills, and changes nothing else.
Doing it again changes nothing. -/
theorem WellFormed.markersMigrated_migrateMarkersBelow (h : t.WellFormed) (hr : r < t.size) :
    MarkersMigrated r t (t.migrateMarkersBelow r)
      ∧ (t.migrateMarkersBelow r).migrateMarkersBelow r = t.migrateMarkersBelow r := by
  have hall := h.recastAll_migrateMarkersBelow hr
  have hm := hall.markersMigrated h hr
  have hwf : (t.migrateMarkersBelow r).WellFormed := h.recastAll hall fun _ => Own.nodup_names_migrate
  exact ⟨hm, hm.migrateMarkersBelow_eq_self hwf (hall.size_eq.symm ▸ hr)⟩

/-- A marker between two attributes, an empty one and one beside a
shorthand marker. -/
theorem markersMigrated_migrateMarkersBelow_panel :
    let t := (readFragment
      "<panel><p class=a slot=x id=b></p><i slot></i><b slot=y #z></b></panel><u slot=v></u>").tree
    let t' := t.migrateMarkersBelow 2
    t.WellFormed ∧ 2 < t.size ∧ MarkersMigrated 2 t t' ∧ t'.migrateMarkersBelow 2 = t'
      ∧ t'.attrs 3 = [⟨"class", "a"⟩, ⟨"#x", ""⟩, ⟨"id", "b"⟩] ∧ t'.attrs 4 = []
      ∧ t'.attrs 5 = [⟨"#z", ""⟩] ∧ t'.attrs 6 = [⟨"slot", "v"⟩] := by
  intro t t'
  have hok : (readFragment
      "<panel><p class=a slot=x id=b></p><i slot></i><b slot=y #z></b></panel><u slot=v></u>").nodes
        = .ok [2, 6] := by decide +kernel
  have hwf : t.WellFormed := (readFragment_of_ok hok).1
  have hr : 2 < t.size := by decide +kernel
  obtain ⟨hm, hagain⟩ := hwf.markersMigrated_migrateMarkersBelow hr
  have hattrs : t'.attrs 3 = [⟨"class", "a"⟩, ⟨"#x", ""⟩, ⟨"id", "b"⟩] ∧ t'.attrs 4 = []
      ∧ t'.attrs 5 = [⟨"#z", ""⟩] ∧ t'.attrs 6 = [⟨"slot", "v"⟩] := by decide +kernel
  exact ⟨hwf, hr, hm, hagain, hattrs⟩

end Tree

end PageSlots.Markup
