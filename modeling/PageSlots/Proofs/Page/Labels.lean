import PageSlots.Proofs.Slot.Children

/-!
# The second pass gives ids

The second pass changes nothing but own data, and of these only by adding
an `id` to a node that has none: it `Labels` nodes. So the shape of the
tree stays, and with it everything that depends on the shape and on
attributes other than `id`.
-/

namespace PageSlots.Page

open PageSlots.Markup PageSlots.Markup.Tree PageSlots.Slot

variable {t t' t'' : Tree} {id x : NodeId} {o o' o'' : Own}

/-- **A node is as before or is an element that has gained an `id`.** -/
inductive Labelled (o : Own) : Own → Prop where
  /-- It is as before. -/
  | same : Labelled o o
  /-- It had no `id` and has one now. -/
  | gained (value : String) : o.kind = .element → "id" ∉ o.names →
      Labelled o (o.setAttr "id" value)

namespace Labelled

theorem trans (h : Labelled o o') (h' : Labelled o' o'') : Labelled o o'' := by
  cases h with
  | same => exact h'
  | gained value hk hn =>
    cases h' with
    | same => exact .gained value hk hn
    | gained value' _ hn' =>
      have := Own.attr?_setAttr_self "id" value o
      rw [Own.attr?_eq_none_iff.2 hn'] at this
      cases this

/-- Markers stay. -/
theorem markedAs (h : Labelled o o') : o.MarkedAs o' := by
  cases h with
  | same => exact .refl o
  | gained value _ _ => exact .setAttr (by decide) (by decide) value o

theorem tag_eq (h : Labelled o o') : o'.tag = o.tag := by
  cases h <;> rfl

theorem text_eq (h : Labelled o o') : o'.text = o.text := by
  cases h <;> rfl

theorem nodup_names (h : Labelled o o') (hn : o.names.Nodup) : o'.names.Nodup := by
  cases h with
  | same => exact hn
  | gained value _ _ => exact Own.nodup_names_setAttr _ _ hn

theorem mem_names (h : Labelled o o') {name : String} (hm : name ∈ o'.names) :
    name ∈ o.names ∨ name = "id" := by
  cases h with
  | same => exact .inl hm
  | gained value _ _ => exact Own.mem_names_setAttr hm

end Labelled

/-- **Nodes gain ids**, and nothing else changes. -/
structure Labels (t t' : Tree) : Prop where
  /-- No node comes or goes. -/
  size_eq : t'.size = t.size
  /-- Each node is as before or has gained an `id`. -/
  own : ∀ x, Labelled (t.own x) (t'.own x)
  /-- The children stay. -/
  children_eq : ∀ x, t'.children x = t.children x
  /-- The parents stay. -/
  parent_eq : ∀ x, t'.parent x = t.parent x

namespace Labels

theorem refl (t : Tree) : Labels t t := ⟨rfl, fun _ => .same, fun _ => rfl, fun _ => rfl⟩

theorem trans (h : Labels t t') (h' : Labels t' t'') : Labels t t'' where
  size_eq := h'.size_eq.trans h.size_eq
  own x := (h.own x).trans (h'.own x)
  children_eq x := (h'.children_eq x).trans (h.children_eq x)
  parent_eq x := (h'.parent_eq x).trans (h.parent_eq x)

/-- An element without an `id` gains one. -/
theorem of_setAttr (he : t.isElement id = true) (hi : t.hasAttr id "id" = false) (value : String) :
    Labels t (t.setAttr id "id" value) := by
  have hid : id < t.size := by
    by_contra hle
    rw [isElement, kind, node_of_le (Nat.le_of_not_lt hle)] at he
    cases he
  have hr := recast_setAttr hid "id" value
  refine ⟨hr.size_eq, fun x => ?_, hr.children_eq, hr.parent_eq⟩
  by_cases hx : x = id
  · rw [hx, hr.own_self]
    refine .gained value (isElement_iff.1 he) fun hm => ?_
    rw [hasAttr_eq_own, Own.hasAttr_iff.2 hm] at hi
    cases hi
  · rw [hr.own_ne hx]
    exact .same

theorem wellFormed (h : Labels t t') (hwf : t.WellFormed) : t'.WellFormed :=
  hwf.of_shape h.children_eq h.parent_eq fun x => (h.own x).nodup_names (hwf.nodup_names x)

theorem slotName_eq (h : Labels t t') (x : NodeId) : t'.slotName x = t.slotName x := by
  rw [slotName_eq_own, slotName_eq_own, (h.own x).markedAs.slotName_eq]

end Labels

namespace Processor

variable (p : Processor)

theorem labels_deriveId (step : Log × Tree) (id : NodeId) :
    Labels step.2 (p.deriveId step id).2 := by
  obtain ⟨log, t⟩ := step
  unfold deriveId
  dsimp only
  split
  · exact .refl t
  · rename_i hk
    split
    · exact .refl t
    · split
      · exact .refl t
      · simp only [Bool.or_eq_true, Bool.not_eq_eq_eq_not, Bool.not_true, not_or,
          Bool.not_eq_false, Bool.not_eq_true] at hk
        exact .of_setAttr hk.1 hk.2 _

theorem labels_deriveIdsTo (depth : Nat) :
    ∀ (step : Log × Tree) (id : NodeId), Labels step.2 (p.deriveIdsTo depth step id).2 := by
  induction depth with
  | zero => exact fun step _ => .refl step.2
  | succ depth ih =>
    intro step id
    have hfold : ∀ (ids : List NodeId) (step : Log × Tree),
        Labels step.2 (ids.foldl (p.deriveIdsTo depth) step).2 := by
      intro ids
      induction ids with
      | nil => exact fun step => .refl step.2
      | cons i ids ih' => exact fun step => (ih step i).trans (ih' _)
    exact (hfold _ step).trans (p.labels_deriveId _ id)

/-- Several nodes one after the other. -/
theorem labels_foldl_deriveIdsTo (depth : Nat) (ids : List NodeId) : ∀ step : Log × Tree,
    Labels step.2 (ids.foldl (p.deriveIdsTo depth) step).2 := by
  induction ids with
  | nil => exact fun step => .refl step.2
  | cons i ids ih => exact fun step => (p.labels_deriveIdsTo depth step i).trans (ih _)

/-- **The second pass gives ids** and changes nothing else. -/
theorem labels_deriveIds (t : Tree) (id : NodeId) : Labels t (p.deriveIds t id).2 :=
  p.labels_deriveIdsTo t.size ([], t) id

end Processor

end PageSlots.Page
