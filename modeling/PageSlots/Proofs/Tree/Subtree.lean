import PageSlots.Markup.Tree.Walk
import PageSlots.Proofs.Tree.Edit

/-!
# Subtrees that share no node

Two nodes of which neither is above the other are `Apart`: their subtrees
share no node. The walk over a subtree keeps its stack pairwise apart, so
it takes no node twice and ends within as many steps as there are nodes.

An operation that works on one node, or on several that are apart, changes
nothing outside their subtrees. `Confined roots t t'` says so: every old
node outside the subtrees of `roots` is the same node afterwards, and the
roots hang where they hung. Such operations compose (`Confined.trans`),
and what an operation on one sibling does is invisible in the subtree of
another (`Confined.node_eq_of_apart`). This is the frame of every
statement about the resolution of a page.
-/

namespace PageSlots.Markup.Tree

variable {t t' t'' : Tree} {a b c p r x y id : NodeId} {ids roots roots' : List NodeId}

/-- **Neither of two nodes is above the other.** -/
structure Apart (t : Tree) (a b : NodeId) : Prop where
  /-- The second does not stand below the first. -/
  left : ¬ t.Within a b
  /-- The first does not stand below the second. -/
  right : ¬ t.Within b a

theorem Apart.symm (h : t.Apart a b) : t.Apart b a := ⟨h.right, h.left⟩

namespace WellFormed

variable (h : t.WellFormed)
include h

/-- **Subtrees of nodes that are apart share no node.** -/
theorem not_within_of_apart (hab : t.Apart a b) (hx : t.Within a x) : ¬ t.Within b x := fun hb =>
  (h.within_or_within hx hb).elim hab.left hab.right

theorem apart_of_mem_children (ha : a ∈ t.children p) (hb : b ∈ t.children p) (hne : a ≠ b) :
    t.Apart a b :=
  ⟨h.not_within_sibling ha hb hne, h.not_within_sibling hb ha (Ne.symm hne)⟩

/-- The children of a node are pairwise apart. -/
theorem pairwise_apart_children (p : NodeId) : (t.children p).Pairwise t.Apart :=
  (h.nodup_children p).imp_of_mem fun ha hb hne => h.apart_of_mem_children ha hb hne

/-- What is apart from a node is apart from its children. -/
theorem apart_of_child (hab : t.Apart a b) (hc : c ∈ t.children a) : t.Apart c b where
  left hw := hab.left ((Within.refl.child hc).trans hw)
  right hw := by
    by_cases hcb : c = b
    · subst hcb
      exact hab.left (Within.refl.child hc)
    · exact hab.right (h.within_parent hw ((h.parent_iff c a).2 hc) hcb)

end WellFormed

/-! ## The walk -/

/-- A node the walk takes stands below one of the stack. -/
theorem exists_within_of_mem_walk {n : Nat} (hx : x ∈ t.walk n ids) :
    ∃ i ∈ ids, t.Within i x := by
  induction n generalizing ids with
  | zero => exact absurd hx List.not_mem_nil
  | succ n ih =>
    cases ids with
    | nil => exact absurd hx List.not_mem_nil
    | cons id ids =>
      rcases List.mem_cons.1 hx with rfl | hx
      · exact ⟨x, List.mem_cons_self, .refl⟩
      · obtain ⟨i, hi, hw⟩ := ih hx
        rcases List.mem_append.1 hi with hi | hi
        · exact ⟨id, List.mem_cons_self, (Within.refl.child hi).trans hw⟩
        · exact ⟨i, List.mem_cons_of_mem _ hi, hw⟩

/-- Putting the children of the first node of a stack in its place keeps
the stack pairwise apart. -/
theorem WellFormed.pairwise_apart_append (h : t.WellFormed)
    (hp : (id :: ids).Pairwise t.Apart) : (t.children id ++ ids).Pairwise t.Apart := by
  obtain ⟨hid, hids⟩ := List.pairwise_cons.1 hp
  refine List.pairwise_append.2 ⟨h.pairwise_apart_children id, hids, ?_⟩
  intro c hc b hb
  exact h.apart_of_child (hid b hb) hc

/-- **The walk takes no node twice.** -/
theorem WellFormed.nodup_walk (h : t.WellFormed) {n : Nat} (hp : ids.Pairwise t.Apart) :
    (t.walk n ids).Nodup := by
  induction n generalizing ids with
  | zero => exact List.nodup_nil
  | succ n ih =>
    cases ids with
    | nil => exact List.nodup_nil
    | cons id ids =>
      refine List.nodup_cons.2 ⟨fun hm => ?_, ih (h.pairwise_apart_append hp)⟩
      obtain ⟨i, hi, hw⟩ := exists_within_of_mem_walk hm
      rcases List.mem_append.1 hi with hi | hi
      · exact h.not_within_of_mem hi hw
      · exact ((List.pairwise_cons.1 hp).1 i hi).right hw

/-- **A walk is no longer than the pool.** -/
theorem WellFormed.length_walk_le (h : t.WellFormed) {n : Nat} (hp : ids.Pairwise t.Apart)
    (hs : ∀ i ∈ ids, i < t.size) : (t.walk n ids).length ≤ t.size := by
  have hsub : t.walk n ids ⊆ List.range t.size := by
    intro x hx
    obtain ⟨i, hi, hw⟩ := exists_within_of_mem_walk hx
    exact List.mem_range.2 (h.lt_of_within (hs i hi) hw)
  have := List.Nodup.length_le_of_subset (h.nodup_walk hp) hsub
  rwa [List.length_range] at this

/-! ## Confined operations -/

/-- **Nothing changes outside the subtrees of some roots.** -/
structure Confined (roots : List NodeId) (t t' : Tree) : Prop where
  /-- No node goes. -/
  size_le : t.size ≤ t'.size
  /-- A node outside the subtrees stays as it is. -/
  node_eq : ∀ x < t.size, (∀ r ∈ roots, ¬ t.Within r x) → t'.node x = t.node x
  /-- The roots hang where they hung. -/
  parent_eq : ∀ r ∈ roots, t'.parent r = t.parent r

namespace Confined

theorem refl (roots : List NodeId) (t : Tree) : Confined roots t t where
  size_le := Nat.le_refl _
  node_eq _ _ _ := rfl
  parent_eq _ _ := rfl

theorem own_eq (h : Confined roots t t') (hx : x < t.size) (hr : ∀ r ∈ roots, ¬ t.Within r x) :
    t'.own x = t.own x := by
  unfold own kind tag attrs text
  rw [h.node_eq x hx hr]

theorem children_eq (h : Confined roots t t') (hx : x < t.size)
    (hr : ∀ r ∈ roots, ¬ t.Within r x) : t'.children x = t.children x := by
  unfold children
  rw [h.node_eq x hx hr]

theorem parent_eq_of_outside (h : Confined roots t t') (hx : x < t.size)
    (hr : ∀ r ∈ roots, ¬ t.Within r x) : t'.parent x = t.parent x := by
  unfold parent
  rw [h.node_eq x hx hr]

/-- **An old node below a root afterwards was below a root before.** The
induction goes down from the root: a node that was outside has its old
parent, and that one is outside too. -/
theorem exists_within (h : Confined roots t t') (hwf : t.WellFormed) (hwf' : t'.WellFormed)
    (hr : r ∈ roots) (hw : t'.Within r x) (hx : x < t.size) : ∃ r' ∈ roots, t.Within r' x := by
  induction hw with
  | refl => exact ⟨r, hr, .refl⟩
  | @child p c _ hc ih =>
    by_contra hout
    have hout' : ∀ r' ∈ roots, ¬ t.Within r' c := fun r' hr' hw' => hout ⟨r', hr', hw'⟩
    have hp : t.parent c = some p := by
      rw [← h.parent_eq_of_outside hx hout']
      exact (hwf'.parent_iff c p).2 hc
    obtain ⟨r', hr', hw'⟩ := ih (hwf.lt_of_parent hp)
    exact hout ⟨r', hr', hw'.child ((hwf.parent_iff c p).1 hp)⟩

theorem trans (h : Confined roots t t') (h' : Confined roots t' t'') (hwf : t.WellFormed)
    (hwf' : t'.WellFormed) : Confined roots t t'' where
  size_le := Nat.le_trans h.size_le h'.size_le
  node_eq x hx hr := by
    rw [h'.node_eq x (Nat.lt_of_lt_of_le hx h.size_le), h.node_eq x hx hr]
    intro r hr' hw
    obtain ⟨s, hs, hsw⟩ := h.exists_within hwf hwf' hr' hw hx
    exact hr s hs hsw
  parent_eq r hr := (h'.parent_eq r hr).trans (h.parent_eq r hr)

/-- Roots may be exchanged for others above them that keep their place. -/
theorem weaken (h : Confined roots t t') (hr : ∀ r ∈ roots, ∃ s ∈ roots', t.Within s r)
    (hp : ∀ s ∈ roots', t'.parent s = t.parent s) : Confined roots' t t' where
  size_le := h.size_le
  node_eq x hx hout := h.node_eq x hx fun r hr' hw => by
    obtain ⟨s, hs, hsr⟩ := hr r hr'
    exact hout s hs (hsr.trans hw)
  parent_eq := hp

/-- Nodes outside the subtrees may be added to the roots. -/
theorem widen (h : Confined roots t t') (hsub : roots ⊆ roots')
    (hout : ∀ s ∈ roots', s ∉ roots → s < t.size ∧ ∀ r ∈ roots, ¬ t.Within r s) :
    Confined roots' t t' := by
  refine h.weaken (fun r hr => ⟨r, hsub hr, .refl⟩) fun s hs => ?_
  by_cases hm : s ∈ roots
  · exact h.parent_eq s hm
  · exact h.parent_eq_of_outside (hout s hs hm).1 (hout s hs hm).2

/-- **A node that is apart from the roots keeps its subtree**: the same
nodes stand below it, and each is the same node. -/
theorem node_eq_of_apart (h : Confined roots t t') (hwf : t.WellFormed) (hb : b < t.size)
    (ha : ∀ r ∈ roots, t.Apart r b) (hw : t.Within b x) : t'.node x = t.node x :=
  h.node_eq x (hwf.lt_of_within hb hw) fun r hr hrx =>
    hwf.not_within_of_apart (ha r hr).symm hw hrx

theorem within_of_apart (h : Confined roots t t') (hwf : t.WellFormed) (hb : b < t.size)
    (ha : ∀ r ∈ roots, t.Apart r b) : t'.Within b x ↔ t.Within b x := by
  have hch : ∀ y, t.Within b y → t'.children y = t.children y := by
    intro y hy
    unfold children
    rw [h.node_eq_of_apart hwf hb ha hy]
  constructor
  · intro hw
    induction hw with
    | refl => exact .refl
    | child _ hc ih => exact ih.child (hch _ ih ▸ hc)
  · intro hw
    induction hw with
    | refl => exact .refl
    | child hp hc ih => exact ih.child ((hch _ hp).symm ▸ hc)

/-- Nodes that are apart from the roots and from each other stay so. -/
theorem apart (h : Confined roots t t') (hwf : t.WellFormed) (ha : a < t.size) (hb : b < t.size)
    (hra : ∀ r ∈ roots, t.Apart r a) (hrb : ∀ r ∈ roots, t.Apart r b) (hab : t.Apart a b) :
    t'.Apart a b where
  left hw := hab.left ((h.within_of_apart hwf ha hra).1 hw)
  right hw := hab.right ((h.within_of_apart hwf hb hrb).1 hw)

/-- A node that is apart from a single root stays apart from it. -/
theorem apart_root (h : Confined [r] t t') (hwf : t.WellFormed) (hwf' : t'.WellFormed)
    (hb : b < t.size) (hrb : t.Apart r b) : t'.Apart r b where
  left hw := by
    obtain ⟨s, hs, hsb⟩ := h.exists_within hwf hwf' List.mem_cons_self hw hb
    rw [List.mem_singleton.1 hs] at hsb
    exact hrb.left hsb
  right hw := hrb.right ((h.within_of_apart hwf hb (List.forall_mem_singleton.2 hrb)).1 hw)

/-- **Nodes that are pairwise apart stay so** under an operation on the
first of them. -/
theorem pairwise_apart (h : Confined [a] t t') (hwf : t.WellFormed) (hwf' : t'.WellFormed)
    (hs : ∀ i ∈ ids, i < t.size) (hp : (a :: ids).Pairwise t.Apart) :
    (a :: ids).Pairwise t'.Apart := by
  obtain ⟨ha, hids⟩ := List.pairwise_cons.1 hp
  have hroot : ∀ i ∈ ids, ∀ r ∈ [a], t.Apart r i := fun i hi =>
    List.forall_mem_singleton.2 (ha i hi)
  refine List.pairwise_cons.2 ⟨fun i hi => h.apart_root hwf hwf' (hs i hi) (ha i hi), ?_⟩
  exact hids.imp_of_mem fun hi hk => h.apart hwf (hs _ hi) (hs _ hk) (hroot _ hi) (hroot _ hk)

end Confined

/-- An edit of own data is confined to its node. -/
theorem Recast.confined {f : Own → Own} (h : Recast id f t t') (hw : t.Within r id) :
    Confined [r] t t' where
  size_le := Nat.le_of_eq h.size_eq.symm
  node_eq x _ hr := h.node_ne (by
    rintro rfl
    exact hr r List.mem_cons_self hw)
  parent_eq x _ := h.parent_eq x

/-- Edits of own data are confined to their nodes. -/
theorem RecastAll.confined {f : Own → Own} (h : RecastAll ids f t t')
    (hw : ∀ i ∈ ids, t.Within r i) : Confined [r] t t' where
  size_le := Nat.le_of_eq h.size_eq.symm
  node_eq x _ hr := by
    have hx : x ∉ ids := fun hm => hr r List.mem_cons_self (hw x hm)
    exact node_ext (by rw [h.own_eq, if_neg hx]) (h.children_eq x) (h.parent_eq x)
  parent_eq x _ := h.parent_eq x

/-! ## New nodes -/

/-- **One tree is another with a new node**, detached and without
children. -/
structure Adds (o : Own) (t t' : Tree) : Prop where
  /-- There is one node more. -/
  size_eq : t'.size = t.size + 1
  /-- The new node has the own data. -/
  own_eq : ∀ x, t'.own x = if x = t.size then o else t.own x
  /-- The children stay. -/
  children_eq : ∀ x, t'.children x = t.children x
  /-- The parents stay. -/
  parent_eq : ∀ x, t'.parent x = t.parent x

theorem adds_create (t : Tree) (n : Node) (hc : n.children = []) (hp : n.parent = none) :
    Adds ⟨n.kind, n.tag, n.attrs, n.text⟩ t (t.create n).2 where
  size_eq := size_create t n
  own_eq := own_create
  children_eq := children_create hc
  parent_eq := parent_create hp

theorem adds_createDocument (t : Tree) : Adds { kind := .document } t t.createDocument.2 :=
  adds_create t { kind := .document } rfl rfl

theorem adds_createElement (t : Tree) (tag : String) :
    Adds { kind := .element, tag } t (t.createElement tag).2 :=
  adds_create t { kind := .element, tag } rfl rfl

theorem adds_createText (t : Tree) (text : String) :
    Adds { kind := .text, text } t (t.createText text).2 :=
  adds_create t { kind := .text, text } rfl rfl

theorem adds_createComment (t : Tree) (text : String) :
    Adds { kind := .comment, text } t (t.createComment text).2 :=
  adds_create t { kind := .comment, text } rfl rfl

namespace Adds

variable {o : Own}

theorem recast {f : Own → Own} (h : Adds o t t') (hr : Recast t.size f t' t'') :
    Adds (f o) t t'' where
  size_eq := hr.size_eq.trans h.size_eq
  own_eq x := by
    rw [hr.own_eq, h.own_eq]
    split <;> rfl
  children_eq x := (hr.children_eq x).trans (h.children_eq x)
  parent_eq x := (hr.parent_eq x).trans (h.parent_eq x)

theorem wellFormed (h : Adds o t t') (hwf : t.WellFormed) (hn : o.names.Nodup) :
    t'.WellFormed := by
  refine hwf.of_shape h.children_eq h.parent_eq fun x => ?_
  rw [h.own_eq]
  split
  · exact hn
  · exact hwf.nodup_names x

theorem lt_size (h : Adds o t t') : t.size < t'.size :=
  h.size_eq ▸ Nat.lt_succ_self _

theorem node_eq (h : Adds o t t') (hx : x < t.size) : t'.node x = t.node x :=
  node_ext (by rw [h.own_eq, if_neg (Nat.ne_of_lt hx)]) (h.children_eq x) (h.parent_eq x)

/-- Nothing old stands below the new node. -/
theorem not_within (h : Adds o t t') (hx : x < t.size) : ¬ t'.Within t.size x := fun hw =>
  Nat.lt_irrefl _ (((within_congr h.children_eq).1 hw).lt_of_lt hx)

theorem confined (h : Adds o t t') (roots : List NodeId) : Confined roots t t' where
  size_le := Nat.le_of_lt h.lt_size
  node_eq _ hx _ := h.node_eq hx
  parent_eq r _ := h.parent_eq r

variable (h : Adds o t t') (hwf : t.WellFormed) (hn : o.names.Nodup) (hp : p < t.size) (i : Nat)
include h hwf hn hp

/-- **A new node put under an old one enters its child list.** -/
theorem children_insertChild (x : NodeId) :
    (t'.insertChild p t.size i).children x
      = if x = p then (t.children x).insertIdx (min i (t.children x).length) t.size
        else t.children x := by
  have hd : t'.parent t.size = none := (h.parent_eq _).trans (parent_of_le (Nat.le_refl _))
  rw [children_insertChild_of_detached (h.wellFormed hwf hn)
    (Nat.lt_trans hp h.lt_size) hd, h.children_eq]

theorem wellFormed_insertChild : (t'.insertChild p t.size i).WellFormed :=
  (h.wellFormed hwf hn).insertChild (Nat.lt_trans hp h.lt_size) h.lt_size (h.not_within hp) i

omit hwf hn hp in
theorem parent_insertChild (x : NodeId) :
    (t'.insertChild p t.size i).parent x = if x = t.size then some p else t.parent x := by
  rw [Tree.parent_insertChild h.lt_size, h.parent_eq]

omit hwf hn hp in
theorem own_insertChild (x : NodeId) :
    (t'.insertChild p t.size i).own x = if x = t.size then o else t.own x := by
  rw [Tree.own_insertChild, h.own_eq]

/-- Putting a new node under an old one is confined to the old one. -/
theorem confined_insertChild (hr : t.Within r p) :
    Confined [r] t (t'.insertChild p t.size i) where
  size_le := by rw [size_insertChild]; exact Nat.le_of_lt h.lt_size
  node_eq x hx hout := by
    have hxp : x ≠ p := by
      rintro rfl
      exact hout r List.mem_cons_self hr
    refine node_ext ?_ ?_ ?_
    · rw [h.own_insertChild, if_neg (Nat.ne_of_lt hx)]
    · rw [h.children_insertChild hwf hn hp, if_neg hxp]
    · rw [h.parent_insertChild, if_neg (Nat.ne_of_lt hx)]
  parent_eq s hs := by
    rw [List.mem_singleton.1 hs, h.parent_insertChild, if_neg (Nat.ne_of_lt (hr.lt_of_lt hp))]

end Adds

end PageSlots.Markup.Tree
