import PageSlots.Proofs.Component.Slots
import PageSlots.Proofs.Slot.Below

/-!
# The two spellings of a marker

An element that carries one slot marker can have it in the older spelling
or, at the same place among its attributes, in the newer one. The two
elements differ in that attribute only (`Own.Respelled`). They fill the
same slot, are migrated to the same element and stay such a pair when the
slot is renamed.

Two contents are `Alike` if they are the same but for elements that may be
respelled. A region is rendered from what is written of its inside, with
the markers as they are, so inside a region alike contents are equal.
Normalizing levels the difference at the top: what is left is contents
that are alike inside (`Alike.normalize`).
-/

namespace PageSlots.Markup

open PageSlots.Component PageSlots.Page PageSlots.Slot

/-! ## Own data -/

/-- No attribute of a list is a slot marker. -/
def NoMarkers (attrs : List Attribute) : Prop :=
  ∀ a ∈ attrs, a.name ≠ legacyName ∧ isMarker a.name = false

namespace NoMarkers

variable {attrs pre post : List Attribute} {slot name : String}

theorem append_iff : NoMarkers (pre ++ post) ↔ NoMarkers pre ∧ NoMarkers post :=
  List.forall_mem_append

theorem legacy_notMem (h : NoMarkers attrs) : legacyName ∉ attributeNames attrs := fun hm => by
  obtain ⟨a, ha, hn⟩ := mem_attributeNames.1 hm
  exact (h a ha).1 hn

theorem marker_notMem (h : NoMarkers attrs) (hs : slot ≠ "") :
    marker slot ∉ attributeNames attrs := fun hm => by
  obtain ⟨a, ha, hn⟩ := mem_attributeNames.1 hm
  have := isMarker_marker hs
  rw [← hn, (h a ha).2] at this
  cases this

/-- The newer spelling is the first marker. -/
theorem findMarker_eq (h : NoMarkers pre) (hs : slot ≠ "") :
    findMarker (pre ++ ⟨marker slot, ""⟩ :: post) = some (marker slot) :=
  findMarker_eq_some_iff.2 ⟨pre, _, post, rfl, rfl, isMarker_marker hs, fun b hb => (h b hb).2⟩

/-- The older spelling is no shorthand. -/
theorem findMarker_legacy (h : NoMarkers (pre ++ post)) :
    findMarker (pre ++ ⟨legacyName, slot⟩ :: post) = none := by
  obtain ⟨hpre, hpost⟩ := append_iff.1 h
  refine findMarker_eq_none_iff.2 fun a ha => ?_
  rcases List.mem_append.1 ha with ha | ha
  · exact (hpre a ha).2
  · rcases List.mem_cons.1 ha with rfl | ha
    · exact isMarker_legacyName
    · exact (hpost a ha).2

end NoMarkers

namespace Own

variable {o o' : Own} {slot target name : String} {pre post : List Attribute}

/-- **An element in both spellings of its marker**: the older one, and at
the same place among the attributes the newer one. It has no other
marker. -/
inductive Respelled : Own → Own → Prop where
  /-- The attributes around the marker are the same. -/
  | intro (tag text : String) {slot : String} {pre post : List Attribute} : slot ≠ "" →
      NoMarkers (pre ++ post) →
      Respelled ⟨.element, tag, pre ++ ⟨legacyName, slot⟩ :: post, text⟩
        ⟨.element, tag, pre ++ ⟨marker slot, ""⟩ :: post, text⟩

/-- **Two own data are alike** if they are the same but for the spelling of
one marker. -/
def Alike (o o' : Own) : Prop :=
  o = o' ∨ Respelled o o'

namespace Respelled

/-- Both spellings name the same slot. -/
theorem slotName_eq (h : Respelled o o') : o.slotName = o'.slotName := by
  cases h with
  | @intro tag text slot pre post hs hn =>
    obtain ⟨hpre, -⟩ := NoMarkers.append_iff.1 hn
    rw [slotName, slotName, if_pos rfl, if_pos rfl, marker?, marker?, hn.findMarker_legacy,
      hpre.findMarker_eq hs]
    dsimp only
    rw [attr?_of_append rfl hpre.legacy_notMem, Option.filter_some, if_pos (by simpa using hs),
      slotOfMarker_marker]

/-- **Both are migrated to the newer one.** -/
theorem migrate_eq (h : Respelled o o') : o.migrate = o'.migrate := by
  cases h with
  | @intro tag text slot pre post hs hn =>
    obtain ⟨hpre, hpost⟩ := NoMarkers.append_iff.1 hn
    -- the newer one has no older marker
    have hnew : Own.migrate ⟨.element, tag, pre ++ ⟨marker slot, ""⟩ :: post, text⟩
        = ⟨.element, tag, pre ++ ⟨marker slot, ""⟩ :: post, text⟩ := by
      refine migrate_eq_self fun _ hm => ?_
      rw [names, attributeNames_append, attributeNames_cons, List.mem_append, List.mem_cons] at hm
      rcases hm with hm | hm | hm
      · exact hpre.legacy_notMem hm
      · have := isMarker_marker hs
        rw [← show legacyName = marker slot from hm, isMarker_legacyName] at this
        cases this
      · exact hpost.legacy_notMem hm
    have hold := migrate_eq ⟨.element, tag, pre ++ ⟨legacyName, slot⟩ :: post, text⟩
    have hmark : (⟨.element, tag, pre ++ ⟨legacyName, slot⟩ :: post, text⟩ : Own).marker? = none :=
      hn.findMarker_legacy
    have hattrs : (Own.migrate ⟨.element, tag, pre ++ ⟨legacyName, slot⟩ :: post, text⟩).attrs
        = pre ++ ⟨marker slot, ""⟩ :: post := by
      rw [migrate, if_pos rfl, attr?_of_append rfl hpre.legacy_notMem]
      dsimp only
      rw [if_neg (by simp [hs, hmark])]
      exact attrs_renameAttr_marker rfl hpre.legacy_notMem hmark hs
    rw [hnew, hold, hattrs]

/-- The value of an attribute that is no marker. -/
theorem attr?_eq (h : Respelled o o') (hl : name ≠ legacyName) (hm : isMarker name = false) :
    o.attr? name = o'.attr? name := by
  cases h with
  | @intro tag text slot pre post hs hn =>
    have hne : marker slot ≠ name := by
      rintro rfl
      rw [isMarker_marker hs] at hm
      cases hm
    rw [attr?, attr?, List.find?_append, List.find?_append, List.find?_cons_of_neg (by simpa using hl.symm),
      List.find?_cons_of_neg (by simpa using hne)]

/-- **Renaming the slot** keeps both spellings. -/
theorem setSlotName (h : Respelled o o') (ht : target ≠ "") :
    Respelled (o.setSlotName target) (o'.setSlotName target) := by
  cases h with
  | @intro tag text slot pre post hs hn =>
    obtain ⟨hpre, hpost⟩ := NoMarkers.append_iff.1 hn
    have hold : Own.setSlotName target ⟨.element, tag, pre ++ ⟨legacyName, slot⟩ :: post, text⟩
        = ⟨.element, tag, pre ++ ⟨legacyName, target⟩ :: post, text⟩ := by
      rw [Own.setSlotName, marker?, hn.findMarker_legacy]
      dsimp only
      rw [if_pos (hasAttr_iff.2 (by simp [names])), setAttr]
      dsimp only
      rw [setAttribute_append (a := ⟨legacyName, slot⟩) hpre.legacy_notMem]
    have hnew : Own.setSlotName target ⟨.element, tag, pre ++ ⟨marker slot, ""⟩ :: post, text⟩
        = ⟨.element, tag, pre ++ ⟨marker target, ""⟩ :: post, text⟩ := by
      rw [Own.setSlotName, marker?, hpre.findMarker_eq hs]
      dsimp only
      by_cases he : marker slot = marker target
      · rw [renameAttr, if_neg (by simp [he]), he]
      · have hkeep : ∀ attrs, NoMarkers attrs → attrs.filter (·.name ≠ marker target) = attrs :=
          fun attrs ha => List.filter_eq_self.2 fun a hm => decide_eq_true fun hn =>
            ha.marker_notMem ht (mem_attributeNames.2 ⟨a, hm, hn⟩)
        rw [renameAttr, if_pos ⟨he, hasAttr_iff.2 (by simp [names])⟩]
        dsimp only
        rw [renameAttribute_append (a := ⟨marker slot, ""⟩) (hpre.marker_notMem hs), hkeep pre hpre,
          hkeep post hpost]
    rw [hold, hnew]
    exact .intro tag text ht hn

end Respelled

namespace Alike

theorem kind_eq (h : Alike o o') : o.kind = o'.kind := by
  rcases h with rfl | h
  · rfl
  · cases h
    rfl

theorem tag_eq (h : Alike o o') : o.tag = o'.tag := by
  rcases h with rfl | h
  · rfl
  · cases h
    rfl

theorem text_eq (h : Alike o o') : o.text = o'.text := by
  rcases h with rfl | h
  · rfl
  · cases h
    rfl

theorem slotName_eq (h : Alike o o') : o.slotName = o'.slotName := by
  rcases h with rfl | h
  · rfl
  · exact h.slotName_eq

theorem migrate_eq (h : Alike o o') : o.migrate = o'.migrate := by
  rcases h with rfl | h
  · rfl
  · exact h.migrate_eq

theorem attr?_eq (h : Alike o o') (hl : name ≠ legacyName) (hm : isMarker name = false) :
    o.attr? name = o'.attr? name := by
  rcases h with rfl | h
  · rfl
  · exact h.attr?_eq hl hm

theorem renamed?_eq (h : Alike o o') (renames : List Rename) :
    o.renamed? renames = o'.renamed? renames := by
  rw [renamed?, renamed?, h.slotName_eq]

/-- **Replacing an old slot name** keeps own data alike. -/
theorem renameSlot {renames : List Rename} (h : Alike o o') (hr : ∀ r ∈ renames, r.target ≠ "") :
    Alike (o.renameSlot renames) (o'.renameSlot renames) := by
  unfold Own.renameSlot
  rw [h.renamed?_eq]
  cases hn : o'.renamed? renames with
  | none => exact h
  | some rename =>
    obtain ⟨slot, -, hfind⟩ := Option.bind_eq_some_iff.1 hn
    rcases h with rfl | h
    · exact .inl rfl
    · exact .inr (h.setSlotName (hr rename (List.mem_of_find?_eq_some hfind)))

end Alike

end Own

/-! ## Contents -/

namespace Content

/-- **Two contents are alike** if they are the same but for the spelling of
markers outside regions. -/
inductive Alike : Content → Content → Prop where
  /-- The topmost nodes are alike, and so are their children; those of a
  region are the same. -/
  | node {o o' : Own} {cs cs' : List Content} : o.Alike o' → List.Forall₂ Alike cs cs' →
      (regionOf o.tag ≠ none → cs = cs') → Alike (node o cs) (node o' cs')

variable {o o' : Own} {c c' : Content} {cs cs' : List Content}

theorem alike_node : Alike (node o cs) (node o' cs')
    ↔ o.Alike o' ∧ List.Forall₂ Alike cs cs' ∧ (regionOf o.tag ≠ none → cs = cs') :=
  ⟨fun | .node ho hcs hr => ⟨ho, hcs, hr⟩, fun h => .node h.1 h.2.1 h.2.2⟩

namespace Alike

theorem own (h : Alike c c') : c.own.Alike c'.own := by
  cases h with
  | node ho _ _ => exact ho

@[refl]
theorem refl (c : Content) : Alike c c := by
  induction c with
  | node o cs ih => exact .node (.inl rfl) (List.forall₂_same.2 ih) fun _ => rfl

/-- Contents are alike as they are. -/
theorem refl_list (cs : List Content) : List.Forall₂ Alike cs cs :=
  List.forall₂_same.2 fun c _ => refl c

/-- Alike contents have the same text. -/
theorem textContent_eq (h : Alike c c') : c.textContent = c'.textContent := by
  have hall : List.Forall₂ Own.Alike c.inOrder c'.inOrder := by
    induction c generalizing c' with
    | node o cs ih =>
      obtain ⟨o', cs'⟩ := c'
      obtain ⟨ho, hcs, -⟩ := alike_node.1 h
      rw [inOrder_node, inOrder_node]
      refine .cons ho ?_
      clear h
      induction hcs with
      | nil => exact .nil
      | @cons d d' ds ds' hd hds ihd =>
        rw [List.flatMap_cons, List.flatMap_cons]
        exact List.rel_append (ih d List.mem_cons_self hd)
          (ihd fun e he => ih e (List.mem_cons_of_mem d he))
  unfold textContent
  generalize c.inOrder = os at hall
  generalize c'.inOrder = os' at hall
  refine congrArg String.join ?_
  induction hall with
  | nil => rfl
  | @cons o o' os os' ho _ ih =>
    rw [List.filter_cons, List.filter_cons, ho.kind_eq]
    split
    · rw [List.map_cons, List.map_cons, ih, ho.text_eq]
    · exact ih

end Alike

/-- **Two contents are alike inside**: the topmost nodes are the same, and
the children are alike. -/
inductive AlikeInside : Content → Content → Prop where
  /-- The children of a region are the same. -/
  | node {cs cs' : List Content} (o : Own) : List.Forall₂ Alike cs cs' →
      (regionOf o.tag ≠ none → cs = cs') → AlikeInside (node o cs) (node o cs')

namespace AlikeInside

theorem refl (c : Content) : AlikeInside c c := by
  obtain ⟨o, cs⟩ := c
  exact .node o (Alike.refl_list cs) fun _ => rfl

theorem own_eq (h : AlikeInside c c') : c.own = c'.own := by
  cases h
  rfl

theorem children (h : AlikeInside c c') : List.Forall₂ Alike c.children c'.children := by
  cases h with
  | node o hcs _ => exact hcs

theorem alike (h : AlikeInside c c') : Alike c c' := by
  cases h with
  | node o hcs hr => exact .node (.inl rfl) hcs hr

/-- The own data at the top may change if the tag stays. -/
theorem mapOwn (h : AlikeInside c c') {f : Own → Own} (hf : ∀ o, (f o).tag = o.tag) :
    AlikeInside (c.mapOwn f) (c'.mapOwn f) := by
  cases h with
  | node o hcs hr => exact .node (f o) hcs fun hne => hr (hf o ▸ hne)

/-- What is made of the children may depend on what alike contents have in
common. -/
theorem mapChildren (h : AlikeInside c c') {f : List Content → List Content}
    (hf : ∀ cs cs', List.Forall₂ Alike cs cs' → List.Forall₂ Alike (f cs) (f cs')) :
    AlikeInside (.node c.own (f c.children)) (.node c'.own (f c'.children)) := by
  cases h with
  | @node cs cs' o hcs hr => exact .node o (hf cs cs' hcs) fun hne => congrArg f (hr hne)

end AlikeInside

/-- **Normalizing levels the spelling** of the marker at the top. -/
theorem Alike.normalize (h : Alike c c') : AlikeInside c.normalize c'.normalize := by
  cases h with
  | @node o o' cs cs' ho hcs hr =>
    have htag : o'.migrate.tag = o.tag := by
      rw [← ho.migrate_eq, Own.migrate_eq o]
    rw [normalize_node, normalize_node, ho.migrate_eq]
    cases hm : o'.migrate.movedMarker? with
    | none =>
      rw [wrapMarked_node_of_none hm, wrapMarked_node_of_none hm]
      exact .node _ hcs fun hne => hr (htag ▸ hne)
    | some name =>
      rw [wrapMarked_node_of_some hm, wrapMarked_node_of_some hm]
      have hinside : Alike (.node (o'.migrate.removeAttr name) cs)
          (.node (o'.migrate.removeAttr name) cs') :=
        .node (.inl rfl) hcs fun hne => hr (htag ▸ hne)
      exact .node _ (.cons hinside .nil) fun hne => absurd rfl hne

end Content

end PageSlots.Markup
