import PageSlots.Proofs.Content.Walk
import PageSlots.Proofs.Page.Labels
import PageSlots.Proofs.Page.Value

/-!
# What the second pass does not touch

The second pass gives a component the id of the first heading in one of
its slots. If no rule gives an id to a heading, the headings are the same
all through the pass (`labelsOthers_deriveIdsTo`).

A node is done with if it has an id or finds none (`Derived`). Where all
nodes are done with, the pass has nothing to do (`deriveIdsTo_eq_self`).
-/

namespace PageSlots.Page

open PageSlots.Component PageSlots.Markup PageSlots.Markup.Tree PageSlots.Slot

/-- **No heading gets an id in the second pass**, by the rules of a table. -/
def SparesHeadings (table : RuleTable) : Prop :=
  ∀ tag ∈ headingTags, (table.find tag).bind (·.idFromSlot) = none

/-- The rules of the known components spare headings. -/
theorem sparesHeadings_builtIn : SparesHeadings builtIn := by
  unfold SparesHeadings
  decide

variable {p : Processor} {t t' t'' : Tree} {id x : NodeId}

/-- **Nodes other than headings gain ids**, and nothing else changes. -/
structure LabelsOthers (t t' : Tree) : Prop where
  /-- Only ids are gained. -/
  labels : Labels t t'
  /-- A heading stays as it is. -/
  heading_eq : ∀ x, t.isHeading x = true → t'.own x = t.own x

namespace LabelsOthers

theorem refl (t : Tree) : LabelsOthers t t := ⟨.refl t, fun _ _ => rfl⟩

/-- A node stays a heading, or none. -/
theorem isHeading_eq (h : LabelsOthers t t') (x : NodeId) : t'.isHeading x = t.isHeading x := by
  show (t'.own x).isHeading = (t.own x).isHeading
  unfold Own.isHeading Own.headingLevel Own.isElement
  rw [(h.labels.own x).tag_eq, (h.labels.own x).markedAs.kind_eq]

theorem trans (h : LabelsOthers t t') (h' : LabelsOthers t' t'') : LabelsOthers t t'' where
  labels := h.labels.trans h'.labels
  heading_eq x hx := (h'.heading_eq x ((h.isHeading_eq x).trans hx)).trans (h.heading_eq x hx)

/-- The nodes below one are the same, in the same order. -/
theorem descendants_eq (h : LabelsOthers t t') (id : NodeId) :
    t'.descendants id = t.descendants id := by
  unfold descendants
  rw [h.labels.size_eq]
  exact walk_congr fun _ _ x _ => h.labels.children_eq x

end LabelsOthers

/-- **A node is done with** in the second pass: it is no element, or has an
id, or finds none. -/
def Derived (p : Processor) (t : Tree) (x : NodeId) : Prop :=
  t.isElement x = true → t.hasAttr x "id" = false →
    ∀ slot, (p.rules.find (t.tag x)).bind (·.idFromSlot) = some slot →
      Processor.slotHeadingId t x slot = none

/-- An id that is not there was not there before. -/
theorem Labelled.hasAttr_eq_false {o o' : Own} (h : Labelled o o') (hi : o'.hasAttr "id" = false) :
    o.hasAttr "id" = false := by
  cases h with
  | same => exact hi
  | gained value _ hn => exact Bool.eq_false_iff.2 fun hm => hn (Own.hasAttr_iff.1 hm)

namespace Processor

/-- Where a node is done with there is nothing to do. -/
theorem deriveId_eq_self (hd : Derived p t x) (log : Log) : p.deriveId (log, t) x = (log, t) := by
  unfold deriveId
  dsimp only
  split
  · rfl
  · rename_i hk
    split
    · rfl
    · rename_i slot hslot
      simp only [Bool.or_eq_true, Bool.not_eq_eq_eq_not, Bool.not_true, not_or,
        Bool.not_eq_false, Bool.not_eq_true] at hk
      rw [hd hk.1 hk.2 slot hslot]

/-- **What one step of the second pass does**: nothing, or it gives the
node an id that it has not. -/
theorem deriveId_cases (step : Log × Tree) (id : NodeId) :
    (p.deriveId step id).2 = step.2
      ∨ ∃ value, step.2.isElement id = true ∧ (p.deriveId step id).2 = step.2.setAttr id "id" value := by
  obtain ⟨log, t⟩ := step
  unfold deriveId
  dsimp only
  split
  · exact .inl rfl
  · rename_i hk
    rw [Bool.or_eq_true, not_or, Bool.not_eq_true', Bool.not_eq_false] at hk
    split
    · exact .inl rfl
    · split
      · exact .inl rfl
      · exact .inr ⟨_, hk.1, rfl⟩

theorem labelsOthers_deriveId (hs : SparesHeadings p.rules) (step : Log × Tree) (id : NodeId) :
    LabelsOthers step.2 (p.deriveId step id).2 := by
  refine ⟨p.labels_deriveId step id, fun x hx => ?_⟩
  by_cases hxid : x = id
  · -- no rule of a heading names a slot
    have hnone := hs _ (Own.tag_mem_of_isHeading (o := step.2.own x) hx)
    obtain ⟨log, t⟩ := step
    rw [deriveId_eq_self fun _ _ slot hslot => ?_]
    rw [← hxid, tag_eq_own] at hslot
    exact absurd (hnone.symm.trans hslot) nofun
  · rcases p.deriveId_cases step id with he | ⟨value, helem, he⟩
    · rw [he]
    · have hid : id < step.2.size := by
        by_contra hle
        rw [isElement, kind, node_of_le (Nat.le_of_not_lt hle)] at helem
        cases helem
      rw [he, (recast_setAttr hid "id" value).own_ne hxid]

/-- **The second pass labels nodes other than headings.** -/
theorem labelsOthers_deriveIdsTo (hs : SparesHeadings p.rules) (depth : Nat) :
    ∀ (step : Log × Tree) (id : NodeId), LabelsOthers step.2 (p.deriveIdsTo depth step id).2 := by
  induction depth with
  | zero => exact fun step _ => .refl step.2
  | succ depth ih =>
    intro step id
    have hfold : ∀ (ids : List NodeId) (step : Log × Tree),
        LabelsOthers step.2 (ids.foldl (p.deriveIdsTo depth) step).2 := by
      intro ids
      induction ids with
      | nil => exact fun step => .refl step.2
      | cons i ids ih' => exact fun step => (ih step i).trans (ih' _)
    exact (hfold _ step).trans (labelsOthers_deriveId hs _ id)

/-- Where all nodes are done with there is nothing to do. -/
theorem deriveIdsTo_eq_self (depth : Nat) : ∀ {id : NodeId}, (∀ x, t.Within id x → Derived p t x) →
    ∀ log, p.deriveIdsTo depth (log, t) id = (log, t) := by
  induction depth with
  | zero => exact fun _ _ => rfl
  | succ depth ih =>
    intro id hd log
    have hfold : ∀ ids : List NodeId, (∀ i ∈ ids, i ∈ t.children id) →
        ids.foldl (p.deriveIdsTo depth) (log, t) = (log, t) := by
      intro ids
      induction ids with
      | nil => exact fun _ => rfl
      | cons i ids ih' =>
        intro hids
        have hi := ih (fun x hx => hd x ((Within.refl.child (hids i List.mem_cons_self)).trans hx))
          log
        rw [List.foldl_cons, hi]
        exact ih' fun k hk => hids k (List.mem_cons_of_mem i hk)
    show p.deriveId ((t.children id).foldl (p.deriveIdsTo depth) (log, t)) id = _
    rw [hfold _ fun _ hi => hi]
    exact deriveId_eq_self (hd id .refl) log

end Processor

end PageSlots.Page
