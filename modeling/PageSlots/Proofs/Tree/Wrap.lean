import PageSlots.Proofs.Tree.Subtree

/-!
# An element in the place of a node

Wrapping a node takes two steps. The new element is put right before the
node, or left detached if the node is, and then the node becomes its
child. In between the element `StandsFor` the node: without the node it
would be in its place. The second step takes the node away from there.
-/

namespace PageSlots.Markup.Tree

variable {t t' : Tree} {id p x : NodeId} {o : Own} {attrs : List Attribute}

/-- Putting a new entry right before an old one and taking the old one
away puts it in the place of the old one. -/
theorem exists_idxOf?_insertIdx {y w : NodeId} (hw : w ≠ y) :
    ∀ {l : List NodeId}, l.Nodup → y ∈ l →
      ∃ k, l.idxOf? y = some k ∧ k ≤ l.length
        ∧ (l.insertIdx k w).filter (· ≠ y) = l.map fun c => if c = y then w else c := by
  intro l hl hy
  induction l with
  | nil => exact absurd hy List.not_mem_nil
  | cons c l ih =>
    obtain ⟨hcl, hl⟩ := List.nodup_cons.1 hl
    rw [List.idxOf?_cons]
    by_cases hc : c = y
    · subst hc
      have hmap : (l.map fun d => if d = c then w else d) = l := by
        refine (List.map_congr_left fun d hd => ?_).trans (List.map_id l)
        exact if_neg (by rintro rfl; exact hcl hd)
      have hfil : l.filter (· ≠ c) = l :=
        List.filter_eq_self.2 fun d hd => decide_eq_true (by rintro rfl; exact hcl hd)
      refine ⟨0, by simp, Nat.zero_le _, ?_⟩
      rw [List.insertIdx_zero, List.map_cons, hmap, if_pos rfl, List.filter_cons,
        if_pos (by simpa using hw), List.filter_cons, if_neg (by simp), hfil]
    · obtain ⟨k, hk, hle, hins⟩ := ih hl ((List.mem_cons.1 hy).resolve_left (Ne.symm hc))
      refine ⟨k + 1, by simp [hc, hk], Nat.succ_le_succ hle, ?_⟩
      rw [List.insertIdx_succ_cons, List.map_cons, if_neg hc, List.filter_cons,
        if_pos (by simpa using hc), hins]

/-! ## Before the node is taken -/

/-- **A new element stands for a node**: it is empty, it has the parent of
the node, and among the children of that one it would take the place of
the node if the node were not there. -/
structure StandsFor (t t' : Tree) (id : NodeId) : Prop where
  /-- The tree with the new element is well formed. -/
  wellFormed : t'.WellFormed
  /-- The new element is there. -/
  lt_size : t.size < t'.size
  /-- It has no children. -/
  children_eq : t'.children t.size = []
  /-- It has the parent of the node, and the parents of the others stay. -/
  parent_eq : ∀ x, t'.parent x = if x = t.size then t.parent id else t.parent x
  /-- Without the node it is in the place of the node. -/
  filter_children : ∀ x, (t'.children x).filter (· ≠ id)
    = (t.children x).map fun c => if c = id then t.size else c

/-- Only the parent of a node lists it. -/
theorem WellFormed.map_replace_of_parent_ne (h : t.WellFormed) (hx : t.parent id ≠ some x)
    (w : NodeId) : ((t.children x).map fun c => if c = id then w else c) = t.children x := by
  refine (List.map_congr_left fun c hc => if_neg ?_).trans (List.map_id _)
  rintro rfl
  exact hx ((h.parent_iff c x).2 hc)

namespace Adds

variable (ha : Adds o t t') (h : t.WellFormed) (hn : o.names.Nodup)
include ha h hn

/-- A new element stands for a detached node. -/
theorem standsFor_of_detached (hd : t.parent id = none) : StandsFor t t' id where
  wellFormed := ha.wellFormed h hn
  lt_size := ha.lt_size
  children_eq := (ha.children_eq _).trans (children_of_le (Nat.le_refl _))
  parent_eq x := by
    rw [ha.parent_eq]
    split
    · rename_i hx
      rw [hx, hd, parent_of_le (Nat.le_refl _)]
    · rfl
  filter_children x := by
    have hx : t.parent id ≠ some x := by
      rw [hd]
      exact nofun
    rw [ha.children_eq, h.filter_children hd, h.map_replace_of_parent_ne hx]

/-- A new element that is put right before a node stands for it. -/
theorem exists_standsFor_insertChild (hid : id < t.size) (hp : t.parent id = some p) :
    ∃ k, (t.children p).idxOf? id = some k ∧ StandsFor t (t'.insertChild p t.size k) id := by
  have hps : p < t.size := h.lt_of_parent hp
  obtain ⟨k, hk, hle, hins⟩ := exists_idxOf?_insertIdx (Nat.ne_of_gt hid) (h.nodup_children p)
    ((h.parent_iff id p).1 hp)
  have hch := ha.children_insertChild h hn hps k
  refine ⟨k, hk, ha.wellFormed_insertChild h hn hps k, ?_, ?_, fun x => ?_, fun x => ?_⟩
  · rw [size_insertChild]
    exact ha.lt_size
  · rw [hch, if_neg (Nat.ne_of_gt hps), children_of_le (Nat.le_refl _)]
  · rw [ha.parent_insertChild, hp]
  · rw [hch]
    by_cases hx : x = p
    · rw [if_pos hx, hx, Nat.min_eq_left hle, hins]
    · have hpx : t.parent id ≠ some x := fun he => hx (Option.some.inj (he.symm.trans hp))
      rw [if_neg hx, h.map_replace_of_parent_ne hpx]
      refine List.filter_eq_self.2 fun c hc => decide_eq_true ?_
      rintro rfl
      exact hpx ((h.parent_iff c x).2 hc)

end Adds

/-! ## Taking the node -/

namespace StandsFor

variable (hs : StandsFor t t' id) (hid : id < t.size)
include hs hid

/-- The element does not stand below the node: the two have one parent. -/
theorem not_within : ¬ t'.Within id t.size := fun hw => by
  have hne : t.size ≠ id := Nat.ne_of_gt hid
  have hparent : t'.parent id = t'.parent t.size := by
    rw [hs.parent_eq, hs.parent_eq, if_neg (Ne.symm hne), if_pos rfl]
  cases hp : t'.parent t.size with
  | none =>
    cases hw with
    | refl => exact hne rfl
    | child _ hc => exact absurd ((hs.wellFormed.parent_iff _ _).2 hc) (by rw [hp]; exact nofun)
  | some p =>
    exact hs.wellFormed.acyclic id p (hparent.trans hp) (hs.wellFormed.within_parent hw hp hne)

theorem wellFormed_appendChild : (t'.appendChild t.size id).WellFormed :=
  hs.wellFormed.appendChild hs.lt_size (Nat.lt_trans hid hs.lt_size) (hs.not_within hid)

omit hid in
theorem children_appendChild (x : NodeId) :
    (t'.appendChild t.size id).children x
      = if x = t.size then [id] else (t.children x).map fun c => if c = id then t.size else c := by
  rw [Tree.children_appendChild hs.wellFormed hs.lt_size]
  by_cases hx : x = t.size
  · rw [if_pos hx, if_pos hx, hx, hs.children_eq]
    rfl
  · rw [if_neg hx, if_neg hx, hs.filter_children]

theorem parent_appendChild (x : NodeId) :
    (t'.appendChild t.size id).parent x
      = if x = id then some t.size else if x = t.size then t.parent id else t.parent x := by
  rw [Tree.parent_appendChild (Nat.lt_trans hid hs.lt_size), hs.parent_eq]

end StandsFor

/-! ## Wrapping -/

@[simp] theorem fst_wrap (t : Tree) (id : NodeId) (tag : String) (attrs : List Attribute) :
    (t.wrap id tag attrs).1 = t.size := rfl

@[simp] theorem size_wrap (t : Tree) (id : NodeId) (tag : String) (attrs : List Attribute) :
    (t.wrap id tag attrs).2.size = t.size + 1 := by
  unfold wrap
  dsimp only
  split <;> simp only [size_appendChild, size_insertChild, size_create]

theorem own_wrap (t : Tree) (id : NodeId) (tag : String) (attrs : List Attribute) (x : NodeId) :
    (t.wrap id tag attrs).2.own x
      = if x = t.size then ⟨.element, tag, attrs, ""⟩ else t.own x := by
  unfold wrap
  dsimp only
  split <;> simp only [own_appendChild, own_insertChild, own_create]

section Wrap

variable (h : t.WellFormed) (hid : id < t.size) (tag : String) (hn : (attributeNames attrs).Nodup)
include h hid hn

/-- **A node is wrapped by an element that stands for it.** -/
theorem exists_standsFor_wrap :
    ∃ t', StandsFor t t' id ∧ (t.wrap id tag attrs).2 = t'.appendChild t.size id := by
  have ha : Adds ⟨.element, tag, attrs, ""⟩ t (t.create { kind := .element, tag, attrs }).2 :=
    adds_create t { kind := .element, tag, attrs } rfl rfl
  unfold wrap
  simp only [fst_create, indexInParent]
  generalize (t.create { kind := .element, tag, attrs }).2 = t₁ at ha
  rw [ha.parent_eq]
  cases hp : t.parent id with
  | none => exact ⟨t₁, ha.standsFor_of_detached h hn hp, rfl⟩
  | some p =>
    obtain ⟨k, hk, hs⟩ := ha.exists_standsFor_insertChild h hn hid hp
    rw [Option.bind_some, ha.children_eq, hk]
    exact ⟨_, hs, rfl⟩

/-- **Wrapping keeps a tree well formed** if the wrapper's attribute names
are distinct. -/
theorem WellFormed.wrap : (t.wrap id tag attrs).2.WellFormed := by
  obtain ⟨t', hs, he⟩ := exists_standsFor_wrap h hid tag hn
  rw [he]
  exact hs.wellFormed_appendChild hid

/-- **The wrapper takes the place of the node**, which becomes its only
child. -/
theorem children_wrap (x : NodeId) :
    (t.wrap id tag attrs).2.children x
      = if x = t.size then [id] else (t.children x).map fun c => if c = id then t.size else c := by
  obtain ⟨t', hs, he⟩ := exists_standsFor_wrap h hid tag hn
  rw [he, hs.children_appendChild]

/-- The wrapper has the parent the node had, and the node has the
wrapper. -/
theorem parent_wrap (x : NodeId) :
    (t.wrap id tag attrs).2.parent x
      = if x = id then some t.size else if x = t.size then t.parent id else t.parent x := by
  obtain ⟨t', hs, he⟩ := exists_standsFor_wrap h hid tag hn
  rw [he, hs.parent_appendChild hid]

end Wrap

end PageSlots.Markup.Tree
