import PageSlots.Proofs.Content.Fragment

/-!
# What edits of the shape show

Inserting a detached node, clearing the children of a node and reading a
fragment into it change what the node shows in the way one expects: a
content enters its list, the list becomes empty, contents come after the
others. Each of the three is confined to the node.
-/

namespace PageSlots.Markup.Tree

variable {t₀ t t' : Tree} {p a id : NodeId} {o : Own} {c d : Content} {cs ds : List Content}
variable {ids : List NodeId}

theorem forall₂_insertIdx {α β : Type} {R : α → β → Prop} {l : List α} {m : List β} {x : α} {y : β}
    (h : List.Forall₂ R l m) (hxy : R x y) (k : Nat) :
    List.Forall₂ R (l.insertIdx k x) (m.insertIdx k y) := by
  induction h generalizing k with
  | nil =>
    cases k with
    | zero => exact .cons hxy .nil
    | succ k => exact .nil
  | cons hd htl ih =>
    cases k with
    | zero => exact .cons hxy (.cons hd htl)
    | succ k =>
      rw [List.insertIdx_succ_cons, List.insertIdx_succ_cons]
      exact .cons hd (ih k)

section Insert

variable (h : t.WellFormed) (hp : p < t.size) (hd : t.parent a = none) (hw : ¬ t.Within a p)
variable (i : Nat)
include h hp hd

/-- **Inserting a node that was created since** is confined to its new
parent. -/
theorem Confined.insertChild (hc : Confined [p] t₀ t) (ha : t₀.size ≤ a) (has : a < t.size)
    (hps : p < t₀.size) : Confined [p] t₀ (t.insertChild p a i) where
  size_le := by rw [size_insertChild]; exact hc.size_le
  node_eq x hx hout := by
    have hxp : x ≠ p := by
      rintro rfl
      exact hout x List.mem_cons_self .refl
    have hxa : x ≠ a := Nat.ne_of_lt (Nat.lt_of_lt_of_le hx ha)
    rw [← hc.node_eq x hx hout]
    refine node_ext (own_insertChild ..) ?_ ?_
    · rw [children_insertChild_of_detached h hp hd, if_neg hxp]
    · rw [parent_insertChild has, if_neg hxa]
  parent_eq r hr := by
    rw [List.mem_singleton.1 hr, parent_insertChild has,
      if_neg (Nat.ne_of_lt (Nat.lt_of_lt_of_le hps ha)), hc.parent_eq p List.mem_cons_self]

include hw

/-- **A detached node that is inserted** brings what it shows. -/
theorem WellFormed.shows_insertChild (hc : t.Shows p (.node o cs)) (hs : t.Shows a d) :
    (t.insertChild p a i).Shows p (.node o (cs.insertIdx (min i cs.length) d)) := by
  obtain ⟨ho, hcs⟩ := shows_node.1 hc
  have hch := children_insertChild_of_detached h hp hd i
  have hkeep : ∀ b e, ¬ t.Within b p → t.Shows b e → (t.insertChild p a i).Shows b e :=
    fun b e hb he => he.congr fun x hx => ⟨own_insertChild .., by
      rw [hch, if_neg]
      rintro rfl
      exact hb hx⟩
  refine shows_node.2 ⟨(own_insertChild ..).trans ho, ?_⟩
  rw [hch, if_pos rfl, hcs.length_eq]
  refine forall₂_insertIdx ?_ (hkeep a d hw hs) _
  refine List.forall₂_iff_zip.2 ⟨hcs.length_eq, fun {b e} hb => ?_⟩
  exact hkeep b e (h.not_within_of_mem (List.of_mem_zip hb).1) (List.forall₂_zip hcs hb)

end Insert

/-- Clearing the children of a node is confined to it. -/
theorem WellFormed.confined_clearChildren (h : t.WellFormed) (p : NodeId) :
    Confined [p] t (t.clearChildren p) where
  size_le := Nat.le_of_eq (size_clearChildren h p).symm
  node_eq x _ hout := by
    have hxp : x ≠ p := by
      rintro rfl
      exact hout x List.mem_cons_self .refl
    have hxm : x ∉ t.children p := fun hm => hout p List.mem_cons_self (Within.refl.child hm)
    refine node_ext (own_clearChildren h p x) ?_ ?_
    · rw [children_clearChildren h, if_neg hxp]
    · rw [parent_clearChildren h, if_neg hxm]
  parent_eq r hr := by
    rw [List.mem_singleton.1 hr, parent_clearChildren h,
      if_neg fun hm => h.not_within_of_mem hm .refl]

/-- A node without children shows itself. -/
theorem WellFormed.shows_clearChildren (h : t.WellFormed) (hc : t.Shows p c) :
    (t.clearChildren p).Shows p (.node c.own []) := by
  refine shows_node.2 ⟨(own_clearChildren h p p).trans hc.own_eq, ?_⟩
  rw [children_clearChildren h, if_pos rfl]
  exact .nil

namespace Receives

variable (hr : Receives p ids cs t t') (h : t.WellFormed)
include hr h

/-- Reading into a node leaves what stands apart from it. -/
theorem shows_of_not_within {b : NodeId} (hb : b < t.size) (hw : ¬ t.Within b p)
    (hc : t.Shows b c) : t'.Shows b c :=
  hc.congr fun x hx => by
    have hne : x ≠ p := by
      rintro rfl
      exact hw hx
    have hx := hr.node_eq x (h.lt_of_within hb hx) hne
    exact ⟨by unfold own kind tag attrs text; rw [hx], by unfold Tree.children; rw [hx]⟩

/-- **A node that receives contents** shows them after what it showed. -/
theorem shows_self (hc : t.Shows p (.node o ds)) : t'.Shows p (.node o (ds ++ cs)) := by
  obtain ⟨ho, hds⟩ := shows_node.1 hc
  refine shows_node.2 ⟨hr.own_eq.trans ho, ?_⟩
  rw [hr.children_eq]
  refine List.rel_append (List.forall₂_iff_zip.2 ⟨hds.length_eq, fun {i e} hi => ?_⟩) hr.shows
  have him := (List.of_mem_zip hi).1
  exact hr.shows_of_not_within h (h.lt_of_mem him) (h.not_within_of_mem him)
    (List.forall₂_zip hds hi)

end Receives

/-- A node that receives nothing. -/
theorem Receives.refl (h : t.WellFormed) (p : NodeId) : Receives p [] [] t t where
  wellFormed := h
  size_le := Nat.le_refl _
  node_eq _ _ _ := rfl
  own_eq := rfl
  parent_eq := rfl
  children_eq := (List.append_nil _).symm
  le_of_mem := nofun
  shows := .nil

namespace Adds

variable (ha : Adds o t₀ t) (h : t₀.WellFormed)
include ha

/-- A new node that has changed has touched no old one. -/
theorem confined_of_confined (hc : Confined [t₀.size] t t') (hp : p < t₀.size) :
    Confined [p] t₀ t' := by
  have hnode : ∀ x < t₀.size, t'.node x = t₀.node x := fun x hx => by
    rw [hc.node_eq x (Nat.lt_trans hx ha.lt_size)
      (List.forall_mem_singleton.2 (ha.not_within hx)), ha.node_eq hx]
  exact {
    size_le := Nat.le_trans (Nat.le_of_lt ha.lt_size) hc.size_le
    node_eq := fun x hx _ => hnode x hx
    parent_eq := fun r hr => by
      rw [List.mem_singleton.1 hr, Tree.parent, hnode p hp, Tree.parent] }

include h

/-- **A new node that has received contents is put under an old one.** -/
theorem insertChild (hn : o.names.Nodup) (hr : Receives t₀.size ids cs t t') (hp : p < t₀.size)
    (hc : t₀.Shows p c) (i : Nat) :
    (t'.insertChild p t₀.size i).WellFormed
      ∧ Confined [p] t₀ (t'.insertChild p t₀.size i)
      ∧ (t'.insertChild p t₀.size i).Shows p
          (.node c.own (c.children.insertIdx (min i c.children.length) (.node o cs)))
      ∧ (t'.insertChild p t₀.size i).children p
          = (t₀.children p).insertIdx (min i (t₀.children p).length) t₀.size := by
  have hwf := ha.wellFormed h hn
  have hwf' := hr.wellFormed
  have hc₀ := ha.confined_of_confined hr.confined hp
  have hp' : p < t'.size := Nat.lt_of_lt_of_le hp hc₀.size_le
  have hs' : t₀.size < t'.size := Nat.lt_of_lt_of_le ha.lt_size hr.size_le
  have hd : t'.parent t₀.size = none := by
    rw [hr.parent_eq, ha.parent_eq, parent_of_le (Nat.le_refl _)]
  have hnw : ¬ t'.Within t₀.size p := fun hw => by
    obtain ⟨r, hr, hw⟩ := hr.confined.exists_within hwf hwf' List.mem_cons_self hw
      (Nat.lt_trans hp ha.lt_size)
    rw [List.mem_singleton.1 hr] at hw
    exact ha.not_within hp hw
  have hnw' : ¬ t.Within p t₀.size := fun hw =>
    Nat.lt_irrefl _ (h.lt_of_within hp ((within_congr ha.children_eq).1 hw))
  have hsp := (ha.confined []).shows h hp nofun hc
  refine ⟨hwf'.insertChild hp' hs' hnw i,
    Confined.insertChild hwf' hp' hd i hc₀ (Nat.le_refl _) hs' hp, ?_, ?_⟩
  · refine hwf'.shows_insertChild hp' hd hnw i ?_ (hr.shows_self hwf ha.shows)
    rw [Content.node_own_children]
    exact hr.shows_of_not_within hwf (Nat.lt_trans hp ha.lt_size) hnw' hsp
  · have hch : t'.children p = t₀.children p := by
      rw [Tree.children, hr.node_eq p (Nat.lt_trans hp ha.lt_size) (Nat.ne_of_lt hp)]
      exact ha.children_eq p
    rw [children_insertChild_of_detached hwf' hp' hd, if_pos rfl, hch]

end Adds

end PageSlots.Markup.Tree
