import Mathlib.Data.List.InsertIdx
import PageSlots.Proofs.Tree.Own

/-!
# Well-formed trees

A tree keeps every edge twice, as a child in a list and as a parent link.
It is *well formed* if the two agree, no list names a child twice, no node
stands below its own child, and the attribute names of a node are
distinct. This module says what each edit of the shape does to the two
copies of the edges, one equation for the children and one for the
parents, and derives that a well-formed tree stays well formed as long as
no node is put below itself.

`Within a x` – the node `x` is `a` or stands below it – is the relation in
which this condition is told. In a well-formed tree the nodes above a node
form a chain (`WellFormed.within_or_within`), so the subtrees of two nodes
of which neither is above the other share no node.
-/

namespace PageSlots.Markup.Tree

/-- **A node is another or stands below it**: it is reached from there by
going from a node to one of its children. -/
inductive Within (t : Tree) (a : NodeId) : NodeId → Prop where
  /-- The node itself. -/
  | refl : Within t a a
  /-- A child of a node that is reached. -/
  | child {p c : NodeId} : Within t a p → c ∈ t.children p → Within t a c

/-- **A well-formed tree.** -/
structure WellFormed (t : Tree) : Prop where
  /-- The parent links and the child lists tell of the same edges. -/
  parent_iff : ∀ c p, t.parent c = some p ↔ c ∈ t.children p
  /-- No child list names a node twice. -/
  nodup_children : ∀ p, (t.children p).Nodup
  /-- Following parents never leads back: no parent stands below its
  child. -/
  acyclic : ∀ c p, t.parent c = some p → ¬ t.Within c p
  /-- The attribute names of a node are distinct. -/
  nodup_names : ∀ id, (t.own id).names.Nodup

variable {t t' : Tree} {a b c p x id : NodeId}

/-! ## Numbers that have a node -/

theorem lt_of_mem_children (h : c ∈ t.children p) : p < t.size := by
  by_contra hp
  rw [children, node_of_le (Nat.le_of_not_lt hp)] at h
  exact List.not_mem_nil h

theorem lt_of_parent_eq (h : t.parent c = some p) : c < t.size := by
  by_contra hc
  rw [parent, node_of_le (Nat.le_of_not_lt hc)] at h
  cases h

theorem children_of_le (h : t.size ≤ p) : t.children p = [] := by
  rw [children, node_of_le h]

theorem parent_of_le (h : t.size ≤ c) : t.parent c = none := by
  rw [parent, node_of_le h]

/-! ## Standing below -/

theorem Within.trans (h : t.Within a b) (h' : t.Within b x) : t.Within a x := by
  induction h' with
  | refl => exact h
  | child _ hc ih => exact ih.child hc

/-- What stands below a node is the node or stands below one of its
children. -/
theorem Within.eq_or_exists (h : t.Within a x) : x = a ∨ ∃ c ∈ t.children a, t.Within c x := by
  induction h with
  | refl => exact .inl rfl
  | @child p c _ hc ih =>
    rcases ih with rfl | ⟨d, hd, hw⟩
    · exact .inr ⟨c, hc, .refl⟩
    · exact .inr ⟨d, hd, hw.child hc⟩

/-- Fewer edges reach fewer nodes. -/
theorem Within.mono (h : t'.Within a x) (hs : ∀ p, t'.children p ⊆ t.children p) :
    t.Within a x := by
  induction h with
  | refl => exact .refl
  | child _ hc ih => exact ih.child (hs _ hc)

theorem within_congr (h : ∀ p, t'.children p = t.children p) : t'.Within a x ↔ t.Within a x :=
  ⟨fun hw => hw.mono fun p => (h p) ▸ List.Subset.refl _,
    fun hw => hw.mono fun p => (h p) ▸ List.Subset.refl _⟩

/-- Nothing but the node itself is reached if it has no children. -/
theorem Within.eq_of_children_eq_nil (h : t.Within a x) (ha : t.children a = []) : x = a := by
  induction h with
  | refl => rfl
  | child _ hc ih =>
    rw [ih, ha] at hc
    exact absurd hc List.not_mem_nil

/-- Only a node of the pool has nodes of the pool below it. -/
theorem Within.lt_of_lt (h : t.Within a x) (hx : x < t.size) : a < t.size := by
  by_contra ha
  have he := h.eq_of_children_eq_nil (children_of_le (Nat.le_of_not_lt ha))
  exact ha (he ▸ hx)

namespace WellFormed

/-- A node is in one child list only. -/
theorem eq_of_mem_children (h : t.WellFormed) (hp : c ∈ t.children p) (hx : c ∈ t.children x) :
    x = p :=
  Option.some.inj (((h.parent_iff c x).2 hx).symm.trans ((h.parent_iff c p).2 hp))

theorem lt_of_mem (h : t.WellFormed) (hc : c ∈ t.children p) : c < t.size :=
  lt_of_parent_eq ((h.parent_iff c p).2 hc)

theorem lt_of_parent (h : t.WellFormed) (hc : t.parent c = some p) : p < t.size :=
  lt_of_mem_children ((h.parent_iff c p).1 hc)

theorem lt_of_within (h : t.WellFormed) (ha : a < t.size) (hw : t.Within a x) : x < t.size := by
  cases hw with
  | refl => exact ha
  | child _ hc => exact h.lt_of_mem hc

/-- A node below another is reached through its parent. -/
theorem within_parent (h : t.WellFormed) (hw : t.Within a x) (hp : t.parent x = some p)
    (hne : x ≠ a) : t.Within a p := by
  cases hw with
  | refl => exact absurd rfl hne
  | @child q _ hq hc =>
    have : q = p := Option.some.inj (((h.parent_iff _ _).2 hc).symm.trans hp)
    exact this ▸ hq

/-- **The nodes above a node form a chain.** -/
theorem within_or_within (h : t.WellFormed) (ha : t.Within a x) (hb : t.Within b x) :
    t.Within a b ∨ t.Within b a := by
  induction ha with
  | refl => exact Or.inr hb
  | @child p c hp hc ih =>
    by_cases hcb : c = b
    · exact Or.inl (hcb ▸ hp.child hc)
    · exact ih (h.within_parent hb ((h.parent_iff c p).2 hc) hcb)

theorem within_antisymm (h : t.WellFormed) (hab : t.Within a b) (hba : t.Within b a) :
    a = b := by
  cases hab with
  | refl => rfl
  | @child p _ hp hc =>
    exact absurd (hba.trans hp) (h.acyclic _ _ ((h.parent_iff _ _).2 hc))

/-- No sibling stands below another. -/
theorem not_within_sibling (h : t.WellFormed) (ha : a ∈ t.children p) (hb : b ∈ t.children p)
    (hne : a ≠ b) : ¬ t.Within a b := fun hw =>
  h.acyclic a p ((h.parent_iff a p).2 ha)
    (h.within_parent hw ((h.parent_iff b p).2 hb) (Ne.symm hne))

/-- A child does not stand above its parent. -/
theorem not_within_of_mem (h : t.WellFormed) (hc : c ∈ t.children p) : ¬ t.Within c p :=
  h.acyclic c p ((h.parent_iff c p).2 hc)

/-- A tree of the same shape is well formed if its names are distinct. -/
theorem of_shape (h : t.WellFormed) (hc : ∀ x, t'.children x = t.children x)
    (hp : ∀ x, t'.parent x = t.parent x) (hn : ∀ x, (t'.own x).names.Nodup) :
    t'.WellFormed where
  parent_iff c p := by rw [hp, hc]; exact h.parent_iff c p
  nodup_children p := by rw [hc]; exact h.nodup_children p
  acyclic c p hcp hw := h.acyclic c p (hp c ▸ hcp) ((within_congr hc).1 hw)
  nodup_names := hn

/-- **An edit of own data keeps a tree well formed** if it keeps the names
of its node distinct. -/
theorem recast {f : Own → Own} (h : t.WellFormed) (hr : Recast id f t t')
    (hf : (f (t.own id)).names.Nodup) : t'.WellFormed := by
  refine h.of_shape hr.children_eq hr.parent_eq fun x => ?_
  rw [hr.own_eq]
  split
  · rename_i hx
    exact hx ▸ hf
  · exact h.nodup_names x

theorem recastAll {ids : List NodeId} {f : Own → Own} (h : t.WellFormed)
    (hr : RecastAll ids f t t') (hf : ∀ o : Own, o.names.Nodup → (f o).names.Nodup) :
    t'.WellFormed := by
  refine h.of_shape hr.children_eq hr.parent_eq fun x => ?_
  rw [hr.own_eq]
  split
  · exact hf _ (h.nodup_names x)
  · exact h.nodup_names x

end WellFormed

/-- The pool without nodes is well formed. -/
theorem wellFormed_empty : empty.WellFormed where
  parent_iff c p := by
    rw [parent_of_le (Nat.zero_le c), children_of_le (Nat.zero_le p)]
    exact ⟨nofun, nofun⟩
  nodup_children p := by rw [children_of_le (Nat.zero_le p)]; exact List.nodup_nil
  acyclic c p hc := by rw [parent_of_le (Nat.zero_le c)] at hc; cases hc
  nodup_names id := by
    unfold own attrs
    rw [node_of_le (Nat.zero_le id)]
    exact List.nodup_nil

/-! ## Creating a node -/

section Create

variable {n : Node}

theorem children_create (hn : n.children = []) (x : NodeId) :
    (t.create n).2.children x = t.children x := by
  unfold children
  rw [node_create]
  split
  · rename_i hx
    rw [hn, hx, node_of_le (Nat.le_refl _)]
  · rfl

theorem parent_create (hn : n.parent = none) (x : NodeId) :
    (t.create n).2.parent x = t.parent x := by
  unfold parent
  rw [node_create]
  split
  · rename_i hx
    rw [hn, hx, node_of_le (Nat.le_refl _)]
  · rfl

theorem own_create (x : NodeId) :
    (t.create n).2.own x
      = if x = t.size then ⟨n.kind, n.tag, n.attrs, n.text⟩ else t.own x := by
  unfold own kind tag attrs text
  rw [node_create]
  split <;> rfl

/-- **A new node, detached and without children**, leaves a tree well
formed. -/
theorem WellFormed.create (h : t.WellFormed) (hc : n.children = []) (hp : n.parent = none)
    (hn : (attributeNames n.attrs).Nodup) : (t.create n).2.WellFormed := by
  refine h.of_shape (children_create hc) (parent_create hp) fun x => ?_
  rw [own_create]
  split
  · exact hn
  · exact h.nodup_names x

end Create

/-! ## Detaching and inserting -/

/-- Setting the parent link of a node leaves the own data of every
node. -/
theorem own_modify_parent (t : Tree) (id : NodeId) (q : Option NodeId) (x : NodeId) :
    (t.modify id ({ · with parent := q })).own x = t.own x := by
  by_cases hid : id < t.size
  · unfold own kind tag attrs text
    rw [node_modify hid]
    split <;> rfl
  · rw [modify_of_le (Nat.le_of_not_lt hid)]

/-- Changing the child list of a node leaves the own data of every
node. -/
theorem own_modify_children (t : Tree) (id : NodeId) (f : List NodeId → List NodeId)
    (x : NodeId) :
    (t.modify id fun n => { n with children := f n.children }).own x = t.own x := by
  by_cases hid : id < t.size
  · unfold own kind tag attrs text
    rw [node_modify hid]
    split <;> rfl
  · rw [modify_of_le (Nat.le_of_not_lt hid)]

/-- Setting the parent link of a node. -/
theorem parent_modify_parent (hid : id < t.size) (q : Option NodeId) (x : NodeId) :
    (t.modify id ({ · with parent := q })).parent x = if x = id then q else t.parent x := by
  unfold parent
  rw [node_modify hid]
  split <;> rfl

/-- Setting the parent link of a node leaves the child lists. -/
theorem children_modify_parent (q : Option NodeId) (x : NodeId) :
    (t.modify id ({ · with parent := q })).children x = t.children x := by
  by_cases hid : id < t.size
  · unfold children
    rw [node_modify hid]
    split <;> rfl
  · rw [modify_of_le (Nat.le_of_not_lt hid)]

/-- Changing the child list of a node. -/
theorem children_modify_children (hid : id < t.size) (f : List NodeId → List NodeId)
    (x : NodeId) :
    (t.modify id fun n => { n with children := f n.children }).children x
      = if x = id then f (t.children x) else t.children x := by
  unfold children
  rw [node_modify hid]
  split <;> rfl

/-- Changing the child list of a node leaves the parent links. -/
theorem parent_modify_children (f : List NodeId → List NodeId) (x : NodeId) :
    (t.modify id fun n => { n with children := f n.children }).parent x = t.parent x := by
  by_cases hid : id < t.size
  · unfold parent
    rw [node_modify hid]
    split <;> rfl
  · rw [modify_of_le (Nat.le_of_not_lt hid)]

@[simp] theorem size_detach (t : Tree) (id : NodeId) : (t.detach id).size = t.size := by
  unfold detach
  split
  · rfl
  · rw [size_modify, size_modify]

@[simp] theorem own_detach (t : Tree) (id x : NodeId) : (t.detach id).own x = t.own x := by
  unfold detach
  split
  · rfl
  · rw [own_modify_children _ _ (fun l => l.filter (· ≠ id)), own_modify_parent]

/-- **A detached node is in no child list**, and nothing else changes in
the child lists. -/
theorem children_detach (h : t.WellFormed) (id x : NodeId) :
    (t.detach id).children x = (t.children x).filter (· ≠ id) := by
  have hne : ∀ q, t.parent id ≠ some q → (t.children q).filter (· ≠ id) = t.children q := by
    intro q hq
    refine List.filter_eq_self.2 fun c hc => ?_
    rw [decide_eq_true_iff]
    rintro rfl
    exact hq ((h.parent_iff c q).2 hc)
  unfold detach
  cases hp : t.parent id with
  | none => exact (hne x (by rw [hp]; exact nofun)).symm
  | some p =>
    dsimp only
    rw [children_modify_children (by rw [size_modify]; exact h.lt_of_parent hp),
      children_modify_parent]
    by_cases hx : x = p
    · rw [if_pos hx]
    · rw [if_neg hx, hne x (by rw [hp]; exact fun hq => hx (Option.some.inj hq).symm)]

/-- **A detached node has no parent**, and nothing else changes in the
parent links. -/
theorem parent_detach (t : Tree) (id x : NodeId) :
    (t.detach id).parent x = if x = id then none else t.parent x := by
  unfold detach
  split
  · rename_i hp
    split
    · rename_i hx
      exact hx ▸ hp
    · rfl
  · rename_i p hp
    rw [parent_modify_children (fun l => l.filter (· ≠ id)),
      parent_modify_parent (lt_of_parent_eq hp)]

theorem WellFormed.detach (h : t.WellFormed) (id : NodeId) : (t.detach id).WellFormed where
  parent_iff c p := by
    rw [parent_detach, children_detach h, List.mem_filter, ← h.parent_iff]
    by_cases hc : c = id <;> simp [hc]
  nodup_children p := by rw [children_detach h]; exact (h.nodup_children p).filter _
  acyclic c p hc hw := by
    rw [parent_detach] at hc
    split at hc
    · cases hc
    · exact h.acyclic c p hc
        (hw.mono fun q => children_detach h id q ▸ List.filter_subset_self _)
  nodup_names x := by rw [own_detach]; exact h.nodup_names x

@[simp] theorem size_insertChild (t : Tree) (p id : NodeId) (i : Nat) :
    (t.insertChild p id i).size = t.size := by
  simp only [insertChild, size_modify, size_detach]

@[simp] theorem own_insertChild (t : Tree) (p id : NodeId) (i : Nat) (x : NodeId) :
    (t.insertChild p id i).own x = t.own x := by
  unfold insertChild
  dsimp only
  rw [own_modify_parent, own_modify_children _ _ (fun l => l.insertIdx (min i l.length) id),
    own_detach]

/-- **What an insertion does to the child lists**: the node leaves the
list it was in and enters that of its new parent, at the index or at the
end. -/
theorem children_insertChild (h : t.WellFormed) (hp : p < t.size) (id : NodeId) (i : Nat)
    (x : NodeId) :
    (t.insertChild p id i).children x
      = if x = p then
          ((t.children x).filter (· ≠ id)).insertIdx
            (min i ((t.children x).filter (· ≠ id)).length) id
        else (t.children x).filter (· ≠ id) := by
  unfold insertChild
  dsimp only
  rw [children_modify_parent, children_modify_children (by rw [size_detach]; exact hp)
    (fun l => l.insertIdx (min i l.length) id), children_detach h]

/-- **What an insertion does to the parent links**: the node gets its new
parent. -/
theorem parent_insertChild (hid : id < t.size) (p : NodeId) (i : Nat) (x : NodeId) :
    (t.insertChild p id i).parent x = if x = id then some p else t.parent x := by
  unfold insertChild
  dsimp only
  rw [parent_modify_parent (by rw [size_modify, size_detach]; exact hid),
    parent_modify_children (fun l => l.insertIdx (min i l.length) id), parent_detach]
  by_cases hx : x = id <;> simp [hx]

/-- Whose child a node is after an insertion. -/
theorem mem_children_insertChild (h : t.WellFormed) (hp : p < t.size) {i : Nat} :
    c ∈ (t.insertChild p id i).children x ↔ (c = id ∧ x = p) ∨ (c ≠ id ∧ c ∈ t.children x) := by
  rw [children_insertChild h hp]
  by_cases hx : x = p
  · rw [if_pos hx, List.mem_insertIdx (Nat.min_le_right _ _), List.mem_filter]
    by_cases hc : c = id <;> simp [hc, hx]
  · rw [if_neg hx, List.mem_filter]
    by_cases hc : c = id <;> simp [hc, hx]

/-- **What stands below a node after an insertion** stood there before, or
stands below the inserted node, whose new parent is there. -/
theorem within_insertChild (h : t.WellFormed) (hp : p < t.size) {i : Nat}
    (hw : (t.insertChild p id i).Within a x) :
    t.Within a x ∨ (t.Within a p ∧ t.Within id x) := by
  induction hw with
  | refl => exact Or.inl .refl
  | child _ hc ih =>
    rcases (mem_children_insertChild h hp).1 hc with ⟨rfl, rfl⟩ | ⟨-, hc⟩
    · rcases ih with ih | ⟨ih, -⟩
      · exact Or.inr ⟨ih, .refl⟩
      · exact Or.inr ⟨ih, .refl⟩
    · rcases ih with ih | ⟨ih, ih'⟩
      · exact Or.inl (ih.child hc)
      · exact Or.inr ⟨ih, ih'.child hc⟩

/-- **An insertion keeps a tree well formed** unless it puts a node below
itself. -/
theorem WellFormed.insertChild (h : t.WellFormed) (hp : p < t.size) (hid : id < t.size)
    (hw : ¬ t.Within id p) (i : Nat) : (t.insertChild p id i).WellFormed where
  parent_iff c q := by
    rw [parent_insertChild hid, mem_children_insertChild h hp, ← h.parent_iff]
    by_cases hc : c = id <;> simp [hc, eq_comm]
  nodup_children q := by
    have hn := (h.nodup_children q).filter (fun y => decide (y ≠ id))
    rw [children_insertChild h hp]
    split
    · refine ((List.perm_insertIdx id _ (Nat.min_le_right _ _)).nodup_iff).2
        (List.nodup_cons.2 ⟨?_, hn⟩)
      simp
    · exact hn
  acyclic c q hc hcq := by
    -- the only new edge goes from the inserted node to its new parent
    have hback := within_insertChild h hp hcq
    rw [parent_insertChild hid] at hc
    split at hc
    · rename_i hcid
      obtain rfl := Option.some.inj hc
      subst hcid
      exact hback.elim hw fun hb => hw hb.1
    · rcases hback with hb | ⟨hcp, hidq⟩
      · exact h.acyclic c q hc hb
      · exact hw ((hidq.child ((h.parent_iff c q).1 hc)).trans hcp)
  nodup_names x := by rw [own_insertChild]; exact h.nodup_names x

end PageSlots.Markup.Tree
