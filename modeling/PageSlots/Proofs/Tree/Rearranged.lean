import PageSlots.Proofs.Content.Fragment
import PageSlots.Proofs.Content.Walk
import PageSlots.Proofs.Tree.Wrap

/-!
# Where moved nodes are

The edits of the shape are told by the numbers of nodes and by indices in
child lists, and a node that is moved may be anywhere before: under the
parent that it is moved to, under another one, or nowhere. Detaching it
first shifts the indices of the list it is then put into. What comes out
is told here without indices that shift. The nodes that are moved are
taken out of all child lists, and then the list of the new parent is put
together: `Moves ids p row t t'` says that the children of `p` are `row`
afterwards, that every other list has only lost the moved nodes, and that
nobody's own data have changed.

Prepending is the edit in which this has to be seen. It inserts the nodes
at growing indices, into a list from which each of them may just have been
taken. The nodes that are already in front keep the index right: they are
as many as the index says, and none of them is inserted again
(`children_insertFrom`).

Wrapping is different, since there is a new node and the list keeps its
length: the wrapper stands where the node stood (`Wraps`). The
attributes of the wrapper do not matter for that, so they may even be
given twice; the argument for a wrapper without attributes carries over,
because an edit of own data goes through an insertion
(`insertChild_withAttrs`).
-/

namespace PageSlots.Markup.Tree

variable {t t' : Tree} {p q id x : NodeId} {ids row : List NodeId} {o : Own}
variable {attrs : List Attribute}

/-! ## Moving nodes under a parent -/

/-- **Nodes have been moved under a parent**, which has a row of children
now. -/
structure Moves (ids : List NodeId) (p : NodeId) (row : List NodeId) (t t' : Tree) : Prop where
  /-- The tree is well formed. -/
  wellFormed : t'.WellFormed
  /-- No node comes or goes. -/
  size_eq : t'.size = t.size
  /-- No kind, tag, text or attribute changes. -/
  own_eq : ∀ x, t'.own x = t.own x
  /-- The parent has the row of children. -/
  row_eq : t'.children p = row
  /-- Every other node has lost the moved ones, and the rest stands in its
  order. -/
  others_eq : ∀ x, x ≠ p → t'.children x = (t.children x).filter (· ∉ ids)
  /-- The row hangs from the parent, old children that are not in it hang
  from nothing, and every other node hangs where it hung. -/
  parent_eq : ∀ x, t'.parent x
    = if x ∈ row then some p else if x ∈ t.children p then none else t.parent x

/-- **The child lists tell the parents**: where the moved nodes are in the
row, the parent links need not be looked at. -/
theorem Moves.of_children (h : t.WellFormed) (hwf : t'.WellFormed) (hsize : t'.size = t.size)
    (hown : ∀ x, t'.own x = t.own x)
    (hch : ∀ x, t'.children x = if x = p then row else (t.children x).filter (· ∉ ids))
    (hids : ids ⊆ row) : Moves ids p row t t' := by
  have hrow : t'.children p = row := (hch p).trans (if_pos rfl)
  have hothers : ∀ x, x ≠ p → t'.children x = (t.children x).filter (· ∉ ids) :=
    fun x hx => (hch x).trans (if_neg hx)
  refine ⟨hwf, hsize, hown, hrow, hothers, fun x => ?_⟩
  by_cases hx : x ∈ row
  · rw [if_pos hx]
    exact (hwf.parent_iff x p).2 (hrow.symm ▸ hx)
  · rw [if_neg hx]
    -- outside the row, a node is a child of whom it was a child of, the parent of the row excepted
    have hiff : ∀ q, t'.parent x = some q ↔ t.parent x = some q ∧ q ≠ p := by
      intro q
      rw [hwf.parent_iff, h.parent_iff]
      by_cases hq : q = p
      · rw [hq, hrow]
        exact ⟨fun hm => absurd hm hx, fun hm => absurd rfl hm.2⟩
      · rw [hothers q hq, List.mem_filter, decide_eq_true_iff]
        exact ⟨fun hm => ⟨hm.1, hq⟩, fun hm => ⟨hm.1, fun hi => hx (hids hi)⟩⟩
    refine Option.ext fun q => (hiff q).trans ?_
    by_cases hp : x ∈ t.children p
    · rw [if_pos hp, (h.parent_iff x p).2 hp, Option.some.injEq]
      exact ⟨fun hm => absurd hm.1.symm hm.2, nofun⟩
    · rw [if_neg hp]
      refine ⟨And.left, fun hm => ⟨hm, ?_⟩⟩
      rintro rfl
      exact hp ((h.parent_iff x q).1 hm)

/-- Taking out one node. -/
theorem filter_notMem_singleton (l : List NodeId) (id : NodeId) :
    l.filter (· ∉ [id]) = l.filter (· ≠ id) :=
  List.filter_congr fun x _ => by simp

/-! ## Prepending -/

@[simp] theorem own_insertFrom (t : Tree) (p : NodeId) (i : Nat) (ids : List NodeId) (x : NodeId) :
    (t.insertFrom p i ids).own x = t.own x := by
  induction ids generalizing t i with
  | nil => rfl
  | cons id ids ih => rw [insertFrom, ih, own_insertChild]

/-- **Nodes that are inserted one after the other**, from the index on at
which the front part of a list ends, stand behind that part in their
order. -/
theorem children_insertFrom {front rest : List NodeId} (h : t.WellFormed) (hp : p < t.size)
    (hids : ∀ id ∈ ids, id < t.size ∧ ¬ t.Within id p) (hnodup : ids.Nodup)
    (hch : t.children p = front ++ rest) (hfront : ∀ id ∈ ids, id ∉ front) (x : NodeId) :
    (t.insertFrom p front.length ids).children x
      = if x = p then front ++ (ids ++ rest.filter (· ∉ ids))
        else (t.children x).filter (· ∉ ids) := by
  induction ids generalizing t front rest with
  | nil => by_cases hx : x = p <;> simp [insertFrom, hx, hch]
  | cons id ids ih =>
    obtain ⟨hid, hw⟩ := hids id List.mem_cons_self
    obtain ⟨hidm, hnodup⟩ := List.nodup_cons.1 hnodup
    have hids := fun y (hy : y ∈ ids) => hids y (List.mem_cons_of_mem id hy)
    have hwithout : ∀ l : List NodeId, (l.filter (· ≠ id)).filter (· ∉ ids)
        = l.filter (· ∉ id :: ids) := fun l => by
      rw [List.filter_filter]
      refine List.filter_congr fun y _ => ?_
      by_cases hy : y = id <;> simp [hy]
    -- the node leaves the rest, and the front part grows by it
    have hstep := children_insertChild h hp id front.length
    have hkeep : front.filter (· ≠ id) = front := List.filter_eq_self.2 fun y hy =>
      decide_eq_true (by
        rintro rfl
        exact hfront y List.mem_cons_self hy)
    have hgrown : (t.insertChild p id front.length).children p
        = (front ++ [id]) ++ rest.filter (· ≠ id) := by
      rw [hstep, if_pos rfl, hch, List.filter_append, hkeep, insertIdx_append, List.append_assoc,
        List.singleton_append]
    have hnext := ih (h.insertChild hp hid hw _) (by rwa [size_insertChild])
      (fun y hy => ⟨by rw [size_insertChild]; exact (hids y hy).1,
        not_within_insertChild h hp (hids y hy).2⟩) hnodup hgrown fun y hy hm => by
          rcases List.mem_append.1 hm with hm | hm
          · exact hfront y (List.mem_cons_of_mem id hy) hm
          · exact hidm (List.mem_singleton.1 hm ▸ hy)
    rw [List.length_append, List.length_singleton, hwithout] at hnext
    rw [insertFrom, hnext, hstep]
    by_cases hx : x = p
    · rw [if_pos hx, if_pos hx, List.append_assoc, List.singleton_append, List.cons_append]
    · rw [if_neg hx, if_neg hx, if_neg hx, hwithout]

/-! ## Wrapping -/

/-- **A node has been enclosed in a new one** with own data. -/
structure Wraps (id : NodeId) (o : Own) (t t' : Tree) : Prop where
  /-- There is one node more. -/
  size_eq : t'.size = t.size + 1
  /-- The new node has the own data, and no other node's change. -/
  own_eq : ∀ x, t'.own x = if x = t.size then o else t.own x
  /-- The node is its only child. -/
  row_eq : t'.children t.size = [id]
  /-- In every other list the new node stands where the node stood. -/
  others_eq : ∀ x, x ≠ t.size →
    t'.children x = (t.children x).map fun c => if c = id then t.size else c
  /-- The new node hangs where the node hung, or from nothing if the node
  did, and the node hangs from the new one. -/
  parent_eq : ∀ x, t'.parent x
    = if x = id then some t.size else if x = t.size then t.parent id else t.parent x

/-- Give a node other attributes. -/
def withAttrs (t : Tree) (id : NodeId) (attrs : List Attribute) : Tree :=
  t.modify id ({ · with attrs })

/-- A change that leaves the attributes alone may come before or after. -/
theorem modify_withAttrs (t : Tree) (w a : NodeId) (attrs : List Attribute) (f : Node → Node)
    (h : ∀ n, f { n with attrs } = { f n with attrs }) :
    (t.withAttrs w attrs).modify a f = (t.modify a f).withAttrs w attrs := by
  unfold withAttrs modify
  congr 1
  refine Array.ext (by simp) fun i h₁ h₂ => ?_
  simp only [Array.getElem_modify]
  split <;> split <;> simp [h]

theorem node_withAttrs (t : Tree) (w x : NodeId) (attrs : List Attribute) :
    (t.withAttrs w attrs).parent x = t.parent x
      ∧ (t.withAttrs w attrs).children x = t.children x := by
  unfold withAttrs
  by_cases hw : w < t.size
  · have hr := recast_modify hw ({ · with attrs }) (fun o => { o with attrs }) (fun _ => rfl)
      (fun _ => rfl) (fun _ => rfl)
    exact ⟨hr.parent_eq x, hr.children_eq x⟩
  · rw [modify_of_le (Nat.le_of_not_lt hw)]
    exact ⟨rfl, rfl⟩

theorem detach_withAttrs (t : Tree) (w id : NodeId) (attrs : List Attribute) :
    (t.withAttrs w attrs).detach id = (t.detach id).withAttrs w attrs := by
  unfold detach
  rw [(node_withAttrs t w id attrs).1]
  cases t.parent id with
  | none => rfl
  | some p =>
    dsimp only
    rw [modify_withAttrs, modify_withAttrs] <;> exact fun _ => rfl

/-- **Attributes go through an insertion.** -/
theorem insertChild_withAttrs (t : Tree) (w p id : NodeId) (i : Nat) (attrs : List Attribute) :
    (t.withAttrs w attrs).insertChild p id i = (t.insertChild p id i).withAttrs w attrs := by
  unfold insertChild
  dsimp only
  rw [detach_withAttrs, modify_withAttrs, modify_withAttrs] <;> exact fun _ => rfl

/-- **A wrapper may get its attributes afterwards.** -/
theorem wrap_eq_withAttrs (t : Tree) (id : NodeId) (tag : String) (attrs : List Attribute) :
    (t.wrap id tag attrs).2 = (t.wrap id tag []).2.withAttrs t.size attrs := by
  have hcreate : (t.create { kind := .element, tag, attrs }).2
      = (t.create { kind := .element, tag }).2.withAttrs t.size attrs := by
    unfold create withAttrs modify size
    dsimp only
    congr 1
    refine Array.ext (by simp) fun i h₁ h₂ => ?_
    rw [Array.getElem_modify, Array.getElem_push, Array.getElem_push]
    split
    · rename_i hi
      rw [if_neg (Nat.ne_of_gt hi)]
    · rename_i hi
      rw [Array.size_push] at h₁
      rw [if_pos (by omega)]
  unfold wrap indexInParent appendChild
  simp only [fst_create, hcreate]
  generalize (t.create { kind := .element, tag }).2 = t₁
  simp only [(node_withAttrs t₁ _ _ attrs).1, (node_withAttrs t₁ _ _ attrs).2]
  split
  · rw [insertChild_withAttrs, (node_withAttrs _ _ _ attrs).2, insertChild_withAttrs]
  · rw [(node_withAttrs _ _ _ attrs).2, insertChild_withAttrs]

/-- **Wrapping encloses a node in place.** -/
theorem WellFormed.wraps_wrap (h : t.WellFormed) (hid : id < t.size) (tag : String)
    (attrs : List Attribute) :
    Wraps id ⟨.element, tag, attrs, ""⟩ t (t.wrap id tag attrs).2 := by
  have hn : (attributeNames []).Nodup := List.nodup_nil
  have hch := children_wrap h hid tag hn
  have hpar := parent_wrap h hid tag hn
  refine ⟨size_wrap .., fun x => own_wrap t id tag attrs x, ?_, fun x hx => ?_, fun x => ?_⟩
  · rw [wrap_eq_withAttrs, (node_withAttrs _ _ _ attrs).2, hch, if_pos rfl]
  · rw [wrap_eq_withAttrs, (node_withAttrs _ _ _ attrs).2, hch, if_neg hx]
  · rw [wrap_eq_withAttrs, (node_withAttrs _ _ _ attrs).1, hpar]

/-! ## The edits -/

/-- **What the edits of the shape come to**, wherever the nodes that they
move have been, as long as none is put below itself. -/
theorem WellFormed.moves_edits (h : t.WellFormed) :
    (∀ p id i, p < t.size → id < t.size → ¬ t.Within id p →
        let others := (t.children p).filter (· ≠ id)
        Moves [id] p (others.insertIdx (min i others.length) id) t (t.insertChild p id i))
      ∧ (∀ p id, p < t.size → id < t.size → ¬ t.Within id p →
        Moves [id] p ((t.children p).filter (· ≠ id) ++ [id]) t (t.appendChild p id))
      ∧ (∀ p (ids : List NodeId), p < t.size → (∀ id ∈ ids, id < t.size ∧ ¬ t.Within id p) →
        ids.Nodup →
        Moves ids p (ids ++ (t.children p).filter (· ∉ ids)) t (t.prependChildren p ids))
      ∧ (∀ p (ids : List NodeId), p < t.size → (∀ id ∈ ids, id < t.size ∧ ¬ t.Within id p) →
        ids.Nodup → Moves ids p ids t (t.replaceChildren p ids))
      ∧ ∀ id tag attrs, id < t.size → (t.wrap id tag attrs).1 = t.size
        ∧ Wraps id ⟨.element, tag, attrs, ""⟩ t (t.wrap id tag attrs).2 := by
  refine ⟨fun p id i hp hid hw => ?_, fun p id hp hid hw => ?_, fun p ids hp hids hn => ?_,
    fun p ids hp hids hn => ?_,
    fun id tag attrs hid => ⟨fst_wrap .., h.wraps_wrap hid tag attrs⟩⟩
  · refine .of_children h (h.insertChild hp hid hw i) (size_insertChild ..) (own_insertChild t p id i)
      (fun x => ?_) ?_
    · rw [children_insertChild h hp, filter_notMem_singleton]
      split
      · rename_i hx
        rw [hx]
      · rfl
    · rintro x hx
      rw [List.mem_insertIdx (Nat.min_le_right _ _)]
      exact .inl (List.mem_singleton.1 hx)
  · refine .of_children h (h.appendChild hp hid hw) (size_appendChild ..) (own_appendChild t p id)
      (fun x => ?_) (List.subset_append_right _ _)
    rw [children_appendChild h hp, filter_notMem_singleton]
    split
    · rename_i hx
      rw [hx]
    · rfl
  · have hfront : t.children p = [] ++ t.children p := rfl
    have hch := children_insertFrom h hp hids hn hfront fun _ _ => List.not_mem_nil
    exact .of_children h (h.insertFrom hp 0 hids) (size_insertFrom ..) (own_insertFrom t p 0 ids)
      hch (List.subset_append_left _ _)
  · have hclear := h.clearChildren p
    have hsize := size_clearChildren h p
    refine .of_children h (h.replaceChildren hp hids) ((size_appendChildren ..).trans hsize)
      (fun x => (own_appendChildren ..).trans (own_clearChildren h p x)) (fun x => ?_)
      (List.Subset.refl ids)
    rw [Tree.replaceChildren, children_appendChildren hclear (hsize.symm ▸ hp) (fun id hid =>
      ⟨hsize.symm ▸ (hids id hid).1, fun hw => (hids id hid).2 (within_clearChildren h p p hw)⟩) hn,
      children_clearChildren h]
    by_cases hx : x = p
    · rw [if_pos hx, if_pos hx, if_pos hx, List.filter_nil, List.nil_append]
    · rw [if_neg hx, if_neg hx, if_neg hx]

/-- Nodes out of two lists, some of them from the one that they go to. -/
theorem moves_edits_overlapping :
    let t := (readFragment "<a><b></b><i></i><u></u></a><p><q></q></p>").tree
    t.WellFormed ∧ t.children 2 = [3, 4, 5] ∧ t.children 6 = [7]
      ∧ Moves [3] 2 [4, 3, 5] t (t.insertChild 2 3 1)
      ∧ Moves [3] 2 [4, 5, 3] t (t.appendChild 2 3)
      ∧ Moves [5, 7, 3] 2 [5, 7, 3, 4] t (t.prependChildren 2 [5, 7, 3])
      ∧ Moves [7, 4] 2 [7, 4] t (t.replaceChildren 2 [7, 4])
      ∧ Wraps 4 ⟨.element, "w", [], ""⟩ t (t.wrap 4 "w" []).2 := by
  intro t
  have hok : (readFragment "<a><b></b><i></i><u></u></a><p><q></q></p>").nodes = .ok [2, 6] := by
    decide +kernel
  have hwf : t.WellFormed := (readFragment_of_ok hok).1
  have h2 : t.children 2 = [3, 4, 5] := by decide +kernel
  have h6 : t.children 6 = [7] := by decide +kernel
  have hsize : t.size = 8 := by decide +kernel
  have hlt : 2 < t.size := by rw [hsize]; decide
  have hids : ∀ id ∈ [3, 4, 5, 7], id < t.size ∧ ¬ t.Within id 2 := fun id hid => by
    have hmem : ∀ id ∈ [3, 4, 5, 7], id < 8 ∧ 2 ∉ t.descendants id := by decide +kernel
    obtain ⟨hlt, hn⟩ := hmem id hid
    exact ⟨hsize ▸ hlt, fun hw => hn ((hwf.mem_descendants_iff (hsize ▸ hlt)).2 hw)⟩
  obtain ⟨hinsert, happend, hprepend, hreplace, hwrap⟩ := hwf.moves_edits
  obtain ⟨h3, hw3⟩ := hids 3 (by decide)
  have hi := hinsert 2 3 1 hlt h3 hw3
  have ha := happend 2 3 hlt h3 hw3
  have hp := hprepend 2 [5, 7, 3] hlt (fun id hid => hids id (by revert id; decide)) (by decide)
  have hr := hreplace 2 [7, 4] hlt (fun id hid => hids id (by revert id; decide)) (by decide)
  rw [h2] at hi ha hp
  exact ⟨hwf, h2, h6, hi, ha, hp, hr, (hwrap 4 "w" [] (by rw [hsize]; decide)).2⟩

end PageSlots.Markup.Tree
