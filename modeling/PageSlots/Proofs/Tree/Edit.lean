import PageSlots.Proofs.Tree.WellFormed

/-!
# Edits made of insertions

More edits of the shape insert several nodes or detach all children of a
node. This module gives each of them its two equations – the children and
the parents afterwards – and derives that a well-formed tree stays well
formed.

An insertion never puts more nodes below the parent it serves than it
inserts there, so the condition that no node goes below itself needs to be
checked only once for a whole list (`not_within_insertChild`).
-/

namespace PageSlots.Markup.Tree

variable {t t' : Tree} {a b c p x id : NodeId}

/-! ## Inserting a detached node -/

/-- Inserting where the first part of a list ends. -/
theorem insertIdx_append {α : Type} (l m : List α) (x : α) :
    (l ++ m).insertIdx (min l.length (l ++ m).length) x = l ++ x :: m := by
  rw [List.length_append, Nat.min_eq_left (Nat.le_add_right _ _)]
  induction l with
  | nil => rfl
  | cons a l ih =>
    rw [List.length_cons, List.cons_append, List.insertIdx_succ_cons, ih, List.cons_append]

/-- A detached node is in no child list. -/
theorem WellFormed.filter_children (h : t.WellFormed) (hid : t.parent id = none) (x : NodeId) :
    (t.children x).filter (· ≠ id) = t.children x := by
  refine List.filter_eq_self.2 fun c hc => ?_
  rw [decide_eq_true_iff]
  rintro rfl
  have := (h.parent_iff c x).2 hc
  rw [hid] at this
  cases this

/-- Children of one node are in no other child list. -/
theorem WellFormed.filter_children_of_subset {ids : List NodeId} (h : t.WellFormed)
    (hids : ids ⊆ t.children p) (hx : x ≠ p) :
    (t.children x).filter (· ∉ ids) = t.children x :=
  List.filter_eq_self.2 fun _ hc => decide_eq_true fun hm =>
    hx (h.eq_of_mem_children (hids hm) hc)

/-- **A detached node enters one child list** and the others stay. -/
theorem children_insertChild_of_detached (h : t.WellFormed) (hp : p < t.size)
    (hid : t.parent id = none) (i : Nat) (x : NodeId) :
    (t.insertChild p id i).children x
      = if x = p then (t.children x).insertIdx (min i (t.children x).length) id
        else t.children x := by
  rw [children_insertChild h hp, h.filter_children hid]

@[simp] theorem size_appendChild (t : Tree) (p id : NodeId) :
    (t.appendChild p id).size = t.size :=
  size_insertChild t p id _

@[simp] theorem own_appendChild (t : Tree) (p id x : NodeId) :
    (t.appendChild p id).own x = t.own x :=
  own_insertChild t p id _ x

theorem parent_appendChild (hid : id < t.size) (p x : NodeId) :
    (t.appendChild p id).parent x = if x = id then some p else t.parent x :=
  parent_insertChild hid p _ x

/-- **Appending puts a node last** among the children of its parent. -/
theorem children_appendChild (h : t.WellFormed) (hp : p < t.size) (id x : NodeId) :
    (t.appendChild p id).children x
      = if x = p then (t.children x).filter (· ≠ id) ++ [id]
        else (t.children x).filter (· ≠ id) := by
  unfold appendChild
  rw [children_insertChild h hp]
  by_cases hx : x = p
  · subst hx
    rw [if_pos rfl, if_pos rfl, Nat.min_eq_right (List.length_filter_le _ _),
      List.insertIdx_length_self]
  · rw [if_neg hx, if_neg hx]

theorem WellFormed.appendChild (h : t.WellFormed) (hp : p < t.size) (hid : id < t.size)
    (hw : ¬ t.Within id p) : (t.appendChild p id).WellFormed :=
  h.insertChild hp hid hw _

/-- What is not above the parent before an insertion is not above it
afterwards. -/
theorem not_within_insertChild (h : t.WellFormed) (hp : p < t.size) {i : Nat}
    (ha : ¬ t.Within a p) : ¬ (t.insertChild p id i).Within a p := fun hw =>
  (within_insertChild h hp hw).elim ha fun hb => ha hb.1

/-! ## Inserting several nodes -/

section Several

variable {ids : List NodeId}

@[simp] theorem size_insertFrom (t : Tree) (p : NodeId) (i : Nat) (ids : List NodeId) :
    (t.insertFrom p i ids).size = t.size := by
  induction ids generalizing t i with
  | nil => rfl
  | cons id ids ih => rw [insertFrom, ih, size_insertChild]

/-- **Inserting nodes one after the other keeps a tree well formed** if
none of them stands above the parent. -/
theorem WellFormed.insertFrom (h : t.WellFormed) (hp : p < t.size) (i : Nat)
    (hids : ∀ id ∈ ids, id < t.size ∧ ¬ t.Within id p) : (t.insertFrom p i ids).WellFormed := by
  induction ids generalizing t i with
  | nil => exact h
  | cons id ids ih =>
    obtain ⟨hid, hw⟩ := hids id List.mem_cons_self
    rw [Tree.insertFrom]
    refine ih (h.insertChild hp hid hw i) (by rw [size_insertChild]; exact hp) (i + 1) ?_
    intro x hx
    obtain ⟨hxs, hxw⟩ := hids x (List.mem_cons_of_mem _ hx)
    exact ⟨by rw [size_insertChild]; exact hxs, not_within_insertChild h hp hxw⟩

@[simp] theorem size_appendChildren (t : Tree) (p : NodeId) (ids : List NodeId) :
    (t.appendChildren p ids).size = t.size := by
  unfold appendChildren
  induction ids generalizing t with
  | nil => rfl
  | cons id ids ih => rw [List.foldl_cons, ih, size_appendChild]

@[simp] theorem own_appendChildren (t : Tree) (p : NodeId) (ids : List NodeId) (x : NodeId) :
    (t.appendChildren p ids).own x = t.own x := by
  unfold appendChildren
  induction ids generalizing t with
  | nil => rfl
  | cons id ids ih => rw [List.foldl_cons, ih, own_appendChild]

theorem parent_appendChildren (hids : ∀ id ∈ ids, id < t.size) (p x : NodeId) :
    (t.appendChildren p ids).parent x = if x ∈ ids then some p else t.parent x := by
  unfold appendChildren
  induction ids generalizing t with
  | nil => rfl
  | cons id ids ih =>
    rw [List.foldl_cons, ih (fun y hy => by
      rw [size_appendChild]; exact hids y (List.mem_cons_of_mem _ hy)),
      parent_appendChild (hids id List.mem_cons_self)]
    by_cases hx : x ∈ ids
    · rw [if_pos hx, if_pos (List.mem_cons_of_mem _ hx)]
    · rw [if_neg hx]
      by_cases hxi : x = id <;> simp [hxi, hx]

/-- **Appending nodes keeps a tree well formed** if none of them stands
above the parent. -/
theorem WellFormed.appendChildren (h : t.WellFormed) (hp : p < t.size)
    (hids : ∀ id ∈ ids, id < t.size ∧ ¬ t.Within id p) : (t.appendChildren p ids).WellFormed := by
  unfold Tree.appendChildren
  induction ids generalizing t with
  | nil => exact h
  | cons id ids ih =>
    obtain ⟨hid, hw⟩ := hids id List.mem_cons_self
    rw [List.foldl_cons]
    refine ih (h.appendChild hp hid hw) (by rw [size_appendChild]; exact hp) ?_
    intro x hx
    obtain ⟨hxs, hxw⟩ := hids x (List.mem_cons_of_mem _ hx)
    exact ⟨by rw [size_appendChild]; exact hxs, not_within_insertChild h hp hxw⟩

/-- **Appended nodes stand last, in their order**, and leave the lists
they were in. -/
theorem children_appendChildren (h : t.WellFormed) (hp : p < t.size)
    (hids : ∀ id ∈ ids, id < t.size ∧ ¬ t.Within id p) (hn : ids.Nodup) (x : NodeId) :
    (t.appendChildren p ids).children x
      = if x = p then (t.children x).filter (· ∉ ids) ++ ids
        else (t.children x).filter (· ∉ ids) := by
  unfold appendChildren
  induction ids generalizing t with
  | nil => simp
  | cons id ids ih =>
    obtain ⟨hid, hw⟩ := hids id List.mem_cons_self
    have hids' : ∀ y ∈ ids, y < (t.appendChild p id).size ∧ ¬ (t.appendChild p id).Within y p := by
      intro y hy
      obtain ⟨hys, hyw⟩ := hids y (List.mem_cons_of_mem _ hy)
      exact ⟨by rw [size_appendChild]; exact hys, not_within_insertChild h hp hyw⟩
    have hfil : ∀ l : List NodeId, (l.filter (· ≠ id)).filter (· ∉ ids)
        = l.filter (· ∉ id :: ids) := by
      intro l
      rw [List.filter_filter]
      refine List.filter_congr fun y _ => ?_
      by_cases hy : y = id <;> simp [hy]
    rw [List.foldl_cons, ih (h.appendChild hp hid hw) (by rw [size_appendChild]; exact hp) hids'
      (List.nodup_cons.1 hn).2, children_appendChild h hp]
    by_cases hx : x = p
    · rw [if_pos hx, if_pos hx, if_pos hx, List.filter_append, hfil]
      simp [(List.nodup_cons.1 hn).1]
    · rw [if_neg hx, if_neg hx, if_neg hx, hfil]

end Several

/-! ## Replacing all children -/

/-- Clearing the parent links of nodes changes nothing else. -/
private theorem foldl_orphan (ids : List NodeId) :
    ∀ t : Tree, (∀ id ∈ ids, id < t.size) →
      let t' := ids.foldl (fun t c => t.modify c ({ · with parent := none })) t
      t'.size = t.size ∧ (∀ x, t'.own x = t.own x) ∧ (∀ x, t'.children x = t.children x)
        ∧ ∀ x, t'.parent x = if x ∈ ids then none else t.parent x := by
  induction ids with
  | nil => exact fun t _ => ⟨rfl, fun _ => rfl, fun _ => rfl, fun _ => rfl⟩
  | cons id ids ih =>
    intro t hids
    obtain ⟨hs, ho, hc, hp⟩ := ih (t.modify id ({ · with parent := none })) (fun y hy => by
      rw [size_modify]; exact hids y (List.mem_cons_of_mem _ hy))
    refine ⟨hs.trans (size_modify _ _ _), fun x => (ho x).trans (own_modify_parent _ _ _ _),
      fun x => (hc x).trans (children_modify_parent _ _), fun x => (hp x).trans ?_⟩
    rw [parent_modify_parent (hids id List.mem_cons_self)]
    by_cases hx : x ∈ ids
    · rw [if_pos hx, if_pos (List.mem_cons_of_mem _ hx)]
    · rw [if_neg hx]
      by_cases hxi : x = id <;> simp [hxi, hx]

section Clear

variable (h : t.WellFormed) (p x : NodeId)
include h

private theorem clearChildren_eqs :
    (t.clearChildren p).size = t.size ∧ (∀ x, (t.clearChildren p).own x = t.own x)
      ∧ (∀ x, (t.clearChildren p).children x = if x = p then [] else t.children x)
      ∧ ∀ x, (t.clearChildren p).parent x
          = if x ∈ t.children p then none else t.parent x := by
  obtain ⟨hs, ho, hc, hp⟩ := foldl_orphan (t.children p)
    (t.modify p fun n => { n with children := (fun _ => []) n.children })
    (fun y hy => by rw [size_modify]; exact h.lt_of_mem hy)
  refine ⟨hs.trans (size_modify _ _ _),
    fun x => (ho x).trans (own_modify_children _ _ (fun _ => []) _),
    fun x => (hc x).trans ?_,
    fun x => (hp x).trans (by rw [parent_modify_children (fun _ => [])])⟩
  by_cases hps : p < t.size
  · exact children_modify_children hps (fun _ => []) x
  · rw [modify_of_le (Nat.le_of_not_lt hps)]
    split
    · rename_i hx
      rw [hx, children_of_le (Nat.le_of_not_lt hps)]
    · rfl

theorem size_clearChildren : (t.clearChildren p).size = t.size :=
  (clearChildren_eqs h p).1

theorem own_clearChildren : (t.clearChildren p).own x = t.own x :=
  (clearChildren_eqs h p).2.1 x

theorem children_clearChildren :
    (t.clearChildren p).children x = if x = p then [] else t.children x :=
  (clearChildren_eqs h p).2.2.1 x

theorem parent_clearChildren :
    (t.clearChildren p).parent x = if x ∈ t.children p then none else t.parent x :=
  (clearChildren_eqs h p).2.2.2 x

/-- What stands below a node after a clearing stood there before. -/
theorem within_clearChildren (hw : (t.clearChildren p).Within a x) : t.Within a x :=
  hw.mono fun q => by
    rw [children_clearChildren h]
    split
    · exact List.nil_subset _
    · exact List.Subset.refl _

theorem WellFormed.clearChildren : (t.clearChildren p).WellFormed where
  parent_iff c q := by
    rw [parent_clearChildren h, children_clearChildren h]
    by_cases hq : q = p
    · subst hq
      rw [if_pos rfl]
      by_cases hc : c ∈ t.children q
      · simp [hc]
      · rw [if_neg hc, h.parent_iff]
        simp [hc]
    · rw [if_neg hq]
      by_cases hc : c ∈ t.children p
      · rw [if_pos hc, ← h.parent_iff, (h.parent_iff c p).2 hc]
        simp [Ne.symm hq]
      · rw [if_neg hc, h.parent_iff]
  nodup_children q := by
    rw [children_clearChildren h]
    split
    · exact List.nodup_nil
    · exact h.nodup_children q
  acyclic c q hc hw := by
    rw [parent_clearChildren h] at hc
    split at hc
    · cases hc
    · exact h.acyclic c q hc (within_clearChildren h p q hw)
  nodup_names id := by rw [own_clearChildren h]; exact h.nodup_names id

end Clear

/-- **Replacing the children of a node keeps a tree well formed** if none
of the new ones stands above it. -/
theorem WellFormed.replaceChildren {ids : List NodeId} (h : t.WellFormed) (hp : p < t.size)
    (hids : ∀ id ∈ ids, id < t.size ∧ ¬ t.Within id p) :
    (t.replaceChildren p ids).WellFormed := by
  refine (h.clearChildren p).appendChildren (by rw [size_clearChildren h]; exact hp) ?_
  intro id hid
  exact ⟨by rw [size_clearChildren h]; exact (hids id hid).1,
    fun hw => (hids id hid).2 (within_clearChildren h p p hw)⟩

end PageSlots.Markup.Tree
