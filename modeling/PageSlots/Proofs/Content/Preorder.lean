import PageSlots.Proofs.Content.Fragment
import PageSlots.Proofs.Content.Walk

/-!
# The order of a document

The nodes of a subtree are listed by an iterator that knows nothing but a
stack: it takes the topmost node and puts the children of this node in its
place. It has no count of its steps. In a well-formed tree it comes to an
end all the same, from every node (`Visits`), and what it has listed then is
what the recursion over the tree says: a node, and then what is listed of
each of its children (`Preorder`). Which of two nodes comes first is decided
by where they stand: a node comes before everything below it, and what is
below a child comes before what is below a later child of the same node
(`Before`).

Headings are named after the text below them, so it matters that the text is
read in the order in which it is written. The writer is a recursion of its
own. It writes a subtree piece by piece (`pieces`), and the pieces that are
text are the text nodes of the list, in the same order, as long as nothing
stands below a node that is written without its children. That is more
than void elements: a text or a comment can be given children, which are
listed but not written (`exists_textContent_ne`).
-/

namespace PageSlots.Markup.Tree

variable {t : Tree} {id r x y a b c p : NodeId} {ids ids' stack : List NodeId}
  {cs : List Content}

/-! ## The iterator and the recursion -/

/-- **What an iterator over a tree yields** from a stack until it ends. -/
inductive Visits (t : Tree) : List NodeId → List NodeId → Prop where
  /-- It ends when the stack is empty. -/
  | done : Visits t [] []
  /-- It yields the topmost node and puts the children in its place. -/
  | next {id : NodeId} {stack ids : List NodeId} (rest : Visits t (t.children id ++ stack) ids) :
      Visits t (id :: stack) (id :: ids)

/-- An iterator yields one list only. -/
theorem Visits.unique (h : t.Visits stack ids) (h' : t.Visits stack ids') : ids = ids' := by
  induction h generalizing ids' with
  | done =>
    cases h'
    rfl
  | next _ ih =>
    cases h' with
    | next rest => rw [ih rest]

/-- **A walk with enough steps is what the iterator yields.** -/
theorem visits_walk {n : Nat} (h : List.Forall₂ t.Shows ids cs)
    (hn : (cs.map Content.count).sum ≤ n) : t.Visits ids (t.walk n ids) := by
  induction n generalizing ids cs with
  | zero =>
    cases h with
    | nil => exact .done
    | @cons _ c _ cs _ _ =>
      obtain ⟨o, kids⟩ := c
      rw [List.map_cons, List.sum_cons, Content.count_node] at hn
      omega
  | succ n ih =>
    cases h with
    | nil => exact .done
    | @cons id c ids cs hc hcs =>
      obtain ⟨o, kids⟩ := c
      obtain ⟨-, hkids⟩ := shows_node.1 hc
      rw [List.map_cons, List.sum_cons, Content.count_node] at hn
      rw [walk]
      refine .next (ih (List.rel_append hkids hcs) ?_)
      rw [List.map_append, List.sum_append]
      omega

/-- **The recursive preorder of a subtree**: its node, and then the
preorders of the children, one after the other. -/
inductive Preorder (t : Tree) : NodeId → List NodeId → Prop where
  | node {id : NodeId} {lists : List (List NodeId)}
      (children : List.Forall₂ (Preorder t) (t.children id) lists) :
      Preorder t id (id :: lists.flatten)

theorem WellFormed.preorder_descendants (h : t.WellFormed) (hid : id < t.size) :
    t.Preorder id (t.descendants id) := by
  obtain ⟨c, hc⟩ := h.exists_shows id
  induction c generalizing id with
  | node o kids ih =>
    obtain ⟨-, hkids⟩ := shows_node.1 hc
    rw [h.descendants_eq hid, List.flatMap_def]
    refine .node (List.forall₂_map_right_iff.2 (List.forall₂_same.2 fun i hi => ?_))
    obtain ⟨d, hd, hs⟩ := exists_mem_of_forall₂ hkids.flip hi
    exact ih d hd (h.lt_of_mem hi) hs

/-! ## Which of two nodes comes first -/

/-- **A node comes before another in the document**: the other stands below
it, or they stand below two children of one node, in this order. -/
def Before (t : Tree) (x y : NodeId) : Prop :=
  (t.Within x y ∧ x ≠ y)
    ∨ ∃ p a b, List.Sublist [a, b] (t.children p) ∧ t.Within a x ∧ t.Within b y

/-- Of two entries in a row, the first is found first. -/
theorem idxOf_lt_of_sublist (hids : ids.Nodup) (hab : List.Sublist [a, b] ids) :
    ids.idxOf a < ids.idxOf b := by
  have hplaces : ids.Pairwise fun x y => ids.idxOf x < ids.idxOf y :=
    List.pairwise_iff_getElem.2 fun i j hi hj hij => by
      rwa [hids.idxOf_getElem i hi, hids.idxOf_getElem j hj]
  exact List.pairwise_iff_forall_sublist.1 hplaces hab

namespace WellFormed

variable (h : t.WellFormed)
include h

/-- One child only leads to a node. -/
theorem eq_of_within (ha : a ∈ t.children p) (hb : b ∈ t.children p) (hax : t.Within a x)
    (hbx : t.Within b x) : a = b := by
  by_contra hne
  exact h.not_within_of_apart (h.apart_of_mem_children ha hb hne) hax hbx

/-- Two children in a row are two. -/
theorem of_sublist (hab : List.Sublist [a, b] (t.children p)) :
    a ∈ t.children p ∧ b ∈ t.children p ∧ a ≠ b :=
  ⟨hab.subset List.mem_cons_self, hab.subset (List.mem_cons_of_mem a List.mem_cons_self),
    by simpa using hab.nodup (h.nodup_children p)⟩

/-- No node below a node has on both sides of it what stands below two
children of this node. -/
theorem not_within_of_sublist (hab : List.Sublist [a, b] (t.children p)) (hax : t.Within a x)
    (hby : t.Within b y) (hp : t.Within p c) (hpc : c ≠ p) (hcx : t.Within c x) :
    ¬ t.Within c y := by
  intro hcy
  obtain ⟨ha, hb, hne⟩ := h.of_sublist hab
  obtain ⟨d, hd, hdc⟩ := hp.eq_or_exists.resolve_left hpc
  have hda := h.eq_of_within hd ha (hdc.trans hcx) hax
  have hdb := h.eq_of_within hd hb (hdc.trans hcy) hby
  exact hne (hda.symm.trans hdb)

/-- **Of two nodes only one comes before the other.** -/
theorem not_before (hxy : t.Before x y) : ¬ t.Before y x := by
  rcases hxy with ⟨hxy, hne⟩ | ⟨p, a, b, hab, hax, hby⟩
  · rintro (⟨hyx, -⟩ | ⟨p, a, b, hab, hay, hbx⟩)
    · exact hne (h.within_antisymm hxy hyx)
    · obtain ⟨ha, hb, hne⟩ := h.of_sublist hab
      exact hne (h.eq_of_within ha hb hay (hbx.trans hxy))
  · obtain ⟨ha, hb, hne⟩ := h.of_sublist hab
    rintro (⟨hyx, -⟩ | ⟨q, d, e, hde, hdy, hex⟩)
    · exact hne (h.eq_of_within ha hb hax (hby.trans hyx))
    · obtain ⟨hd, he, -⟩ := h.of_sublist hde
      by_cases hpq : p = q
      · subst hpq
        obtain rfl := h.eq_of_within ha he hax hex
        obtain rfl := h.eq_of_within hb hd hby hdy
        have hnd := h.nodup_children p
        exact Nat.lt_asymm (idxOf_lt_of_sublist hnd hab) (idxOf_lt_of_sublist hnd hde)
      · have hpx := (Within.refl.child ha).trans hax
        have hpy := (Within.refl.child hb).trans hby
        have hqx := (Within.refl.child he).trans hex
        have hqy := (Within.refl.child hd).trans hdy
        rcases h.within_or_within hpx hqx with hw | hw
        · exact h.not_within_of_sublist hab hax hby hw (Ne.symm hpq) hqx hqy
        · exact h.not_within_of_sublist hde hdy hex hw hpq hpy hpx

/-- **The list of a subtree is in document order.** -/
theorem pairwise_before_descendants (hid : id < t.size) :
    (t.descendants id).Pairwise t.Before := by
  obtain ⟨c, hc⟩ := h.exists_shows id
  induction c generalizing id with
  | node o kids ih =>
    obtain ⟨-, hkids⟩ := shows_node.1 hc
    have hwithin : ∀ i ∈ t.children id, ∀ x ∈ t.descendants i, t.Within i x :=
      fun i hi x => (h.mem_descendants_iff (h.lt_of_mem hi)).1
    rw [h.descendants_eq hid, List.pairwise_cons, List.pairwise_flatMap]
    refine ⟨fun x hx => ?_, fun i hi => ?_, List.pairwise_iff_forall_sublist.2 fun hab => ?_⟩
    · obtain ⟨i, hi, hx⟩ := List.mem_flatMap.1 hx
      have hix := hwithin i hi x hx
      refine .inl ⟨(Within.refl.child hi).trans hix, ?_⟩
      rintro rfl
      exact h.not_within_of_mem hi hix
    · obtain ⟨d, hd, hs⟩ := exists_mem_of_forall₂ hkids.flip hi
      exact ih d hd (h.lt_of_mem hi) hs
    · obtain ⟨ha, hb, -⟩ := h.of_sublist hab
      exact fun x hx y hy => .inr ⟨id, _, _, hab, hwithin _ ha x hx, hwithin _ hb y hy⟩

/-- **Places in the list** tell which node comes first. -/
theorem idxOf_lt_idxOf_iff (hr : r < t.size) (hx : t.Within r x) (hy : t.Within r y) :
    (t.descendants r).idxOf x < (t.descendants r).idxOf y ↔ t.Before x y := by
  have hlist : ∀ {x y}, t.Within r x → t.Within r y →
      (t.descendants r).idxOf x < (t.descendants r).idxOf y → t.Before x y := by
    intro x y hx hy hlt
    have hxl := List.idxOf_lt_length_iff.2 ((h.mem_descendants_iff hr).2 hx)
    have hyl := List.idxOf_lt_length_iff.2 ((h.mem_descendants_iff hr).2 hy)
    have hbefore := List.pairwise_iff_getElem.1 (h.pairwise_before_descendants hr) _ _ hxl hyl hlt
    rwa [List.getElem_idxOf, List.getElem_idxOf] at hbefore
  refine ⟨hlist hx hy, fun hxy => ?_⟩
  rcases Nat.lt_trichotomy ((t.descendants r).idxOf x) ((t.descendants r).idxOf y) with
    hlt | heq | hgt
  · exact hlt
  · obtain rfl := (List.idxOf_inj ((h.mem_descendants_iff hr).2 hx)).1 heq
    exact absurd hxy (h.not_before hxy)
  · exact absurd (hlist hy hx hgt) (h.not_before hxy)

end WellFormed

/-! ## What is written, piece by piece -/

/-- **A piece of markup**, and the node that it is written for. -/
inductive Piece where
  | startTag (id : NodeId)
  | endTag (id : NodeId)
  | text (id : NodeId)
  | comment (id : NodeId)
  deriving DecidableEq, Repr

/-- The markup of a piece. -/
def Piece.markup (t : Tree) : Piece → String
  | .startTag id => t.startTag id
  | .endTag id => "</" ++ t.tag id ++ ">"
  | .text id => t.text id
  | .comment id => "<!--" ++ t.text id ++ "-->"

/-- The node of a piece of text. -/
def Piece.text? : Piece → Option NodeId
  | .text id => some id
  | _ => none

/-- The pieces of a node, down to a depth. -/
def piecesTo (t : Tree) : Nat → NodeId → List Piece
  | 0, _ => []
  | depth + 1, id =>
    let inner := (t.children id).flatMap (piecesTo t depth)
    match t.kind id with
    | .document => inner
    | .text => [.text id]
    | .comment => [.comment id]
    | .element =>
      if isVoidTag (t.tag id) then [.startTag id] else .startTag id :: inner ++ [.endTag id]

/-- **The pieces of markup of a node** and everything below it. -/
def pieces (t : Tree) (id : NodeId) : List Piece :=
  t.piecesTo t.size id

/-- **What is written are the pieces**, one after the other. -/
theorem join_piecesTo (t : Tree) (n : Nat) (id : NodeId) :
    String.join ((t.piecesTo n id).map (Piece.markup t)) = t.write n id := by
  induction n generalizing id with
  | zero => rfl
  | succ n ih =>
    have hinner : String.join (((t.children id).flatMap (t.piecesTo n)).map (Piece.markup t))
        = String.join ((t.children id).map (t.write n)) := by
      rw [← String.toList_inj, String.toList_join, String.toList_join, List.flatMap_map,
        List.flatMap_map, List.flatMap_assoc]
      refine List.flatMap_congr fun i _ => ?_
      rw [← ih i, String.toList_join, List.flatMap_map]
    rw [piecesTo, write, ← hinner]
    cases t.kind id with
    | document => rfl
    | text =>
      rw [List.map_singleton, String.join_cons, String.join_nil, String.append_empty]
      rfl
    | comment =>
      rw [List.map_singleton, String.join_cons, String.join_nil, String.append_empty]
      rfl
    | element =>
      dsimp only
      split
      · rw [List.map_singleton, String.join_cons, String.join_nil, String.append_empty]
        rfl
      · rw [List.map_append, List.map_cons, List.map_singleton, String.join_append,
          String.join_cons, String.join_cons, String.join_nil, String.append_empty]
        simp only [Piece.markup, String.append_assoc]

/-- **A node that is written without its children.** -/
def IsLeaf (t : Tree) (x : NodeId) : Prop :=
  t.kind x = .text ∨ t.kind x = .comment ∨ t.kind x = .element ∧ isVoidTag (t.tag x) = true

/-- **Everything below a node is written**: no leaf has children. -/
def WrittenWhole (t : Tree) (r : NodeId) : Prop :=
  ∀ x, t.Within r x → t.IsLeaf x → t.children x = []

/-- **The pieces of text are the text nodes of the list**, in the same
order. -/
theorem WellFormed.text_piecesTo (h : t.WellFormed) {n : Nat} (hfits : t.FitsIn n id)
    (hid : id < t.size) (hw : t.WrittenWhole id) :
    (t.piecesTo n id).filterMap Piece.text? = (t.descendants id).filter (t.kind · = .text) := by
  induction n generalizing id with
  | zero => exact hfits.elim
  | succ n ih =>
    have hinner : ((t.children id).flatMap (t.piecesTo n)).filterMap Piece.text?
        = ((t.children id).flatMap t.descendants).filter (t.kind · = .text) := by
      rw [List.filterMap_flatMap, List.filter_flatMap]
      refine List.flatMap_congr fun i hi => ih (hfits i hi) (h.lt_of_mem hi) fun x hx => ?_
      exact hw x ((Within.refl.child hi).trans hx)
    rw [h.descendants_eq hid, piecesTo]
    cases hk : t.kind id with
    | document =>
      rw [List.filter_cons_of_neg (by simp [hk])]
      exact hinner
    | text =>
      rw [hw id .refl (.inl hk), List.filter_cons_of_pos (by simp [hk])]
      rfl
    | comment =>
      rw [hw id .refl (.inr (.inl hk)), List.filter_cons_of_neg (by simp [hk])]
      rfl
    | element =>
      rw [List.filter_cons_of_neg (by simp [hk])]
      dsimp only
      split
      · rename_i hvoid
        rw [hw id .refl (.inr (.inr ⟨hk, hvoid⟩))]
        rfl
      · rw [List.cons_append, List.filterMap_cons_none rfl, List.filterMap_append, hinner]
        exact List.append_nil _

/-! ## The order of a subtree -/

/-- **A list is the document order of a subtree.** -/
structure ListsInOrder (t : Tree) (r : NodeId) (ids : List NodeId) : Prop where
  /-- The iterator ends, and then it has yielded this list. -/
  visits_iff : ∀ ids', t.Visits [r] ids' ↔ ids' = ids
  /-- The list is the recursive preorder. -/
  preorder : t.Preorder r ids
  /-- No node is listed twice. -/
  nodup : ids.Nodup
  /-- The nodes of the subtree are listed, and no others. -/
  mem_iff : ∀ x, x ∈ ids ↔ t.Within r x
  /-- A node is listed before everything below it and after everything in
  earlier siblings, its own and those of the nodes above it. -/
  idxOf_lt_iff : ∀ x y, t.Within r x → t.Within r y → (ids.idxOf x < ids.idxOf y ↔ t.Before x y)

/-- **The nodes of a subtree are listed in document order**, and the text
of the subtree is read in the order in which it is written. -/
theorem WellFormed.listsInOrder_descendants (h : t.WellFormed) (hr : r < t.size) :
    ListsInOrder t r (t.descendants r)
      ∧ t.toHtml r = String.join ((t.pieces r).map (Piece.markup t))
      ∧ (WrittenWhole t r →
          t.textContent r = String.join (((t.pieces r).filterMap Piece.text?).map t.text)) := by
  obtain ⟨c, hc⟩ := h.exists_shows r
  have hvisits : t.Visits [r] (t.descendants r) :=
    visits_walk (.cons hc .nil) (by simpa using h.count_le_size hr hc)
  refine ⟨⟨fun ids => ⟨fun hids => hids.unique hvisits, ?_⟩, h.preorder_descendants hr,
    h.nodup_descendants r, fun x => h.mem_descendants_iff hr,
    fun x y => h.idxOf_lt_idxOf_iff hr⟩, (t.join_piecesTo t.size r).symm, fun hw => ?_⟩
  · rintro rfl
    exact hvisits
  · rw [textContent, pieces, h.text_piecesTo (h.fitsIn_size hr) hr hw]

/-- A heading with elements, a void one and a comment in it. -/
theorem listsInOrder_descendants_heading :
    let t := (readFragment "<h1>a<b>b<br><i>c</i></b><!--d-->e</h1>").tree
    t.WellFormed ∧ 2 < t.size ∧ WrittenWhole t 2 ∧ ListsInOrder t 2 (t.descendants 2)
      ∧ t.textContent 2 = String.join (((t.pieces 2).filterMap Piece.text?).map t.text)
      ∧ t.descendants 2 = [2, 3, 4, 5, 6, 7, 8, 9, 10] ∧ t.textContent 2 = "abce" := by
  intro t
  have hok : (readFragment "<h1>a<b>b<br><i>c</i></b><!--d-->e</h1>").nodes = .ok [2] := by
    decide +kernel
  have hwf : t.WellFormed := (readFragment_of_ok hok).1
  have hr : 2 < t.size := by decide +kernel
  have hwhole : WrittenWhole t 2 := fun x hx hleaf => by
    have hall : ∀ x ∈ t.descendants 2, (t.kind x = .text ∨ t.kind x = .comment
        ∨ t.kind x = .element ∧ isVoidTag (t.tag x) = true) → t.children x = [] := by
      decide +kernel
    exact hall x ((hwf.mem_descendants_iff hr).2 hx) hleaf
  obtain ⟨hlist, -, htext⟩ := hwf.listsInOrder_descendants hr
  have hgiven : t.descendants 2 = [2, 3, 4, 5, 6, 7, 8, 9, 10] ∧ t.textContent 2 = "abce" := by
    decide +kernel
  exact ⟨hwf, hr, hwhole, hlist, htext hwhole, hgiven⟩

/-- **The text in a text is read and not written**, though there is no void
element. -/
theorem exists_textContent_ne :
    let t := ((empty.createText "a").2.createText "b").2.appendChild 0 1
    t.WellFormed ∧ 0 < t.size ∧ (∀ x, t.Within 0 x → t.isElement x = false)
      ∧ t.textContent 0 = "ab" ∧ t.toHtml 0 = "a"
      ∧ String.join (((t.pieces 0).filterMap Piece.text?).map t.text) = "a" := by
  intro t
  have hfirst := (adds_createText empty "a").wellFormed wellFormed_empty List.nodup_nil
  have hsecond := (adds_createText _ "b").wellFormed hfirst List.nodup_nil
  have hwf : t.WellFormed := hsecond.appendChild (by decide) (by decide) fun hw =>
    absurd (hw.eq_of_children_eq_nil (by decide)) (by decide)
  have hr : 0 < t.size := by decide +kernel
  have hnone : ∀ x ∈ t.descendants 0, t.isElement x = false := by decide +kernel
  have hgiven : t.textContent 0 = "ab" ∧ t.toHtml 0 = "a"
      ∧ String.join (((t.pieces 0).filterMap Piece.text?).map t.text) = "a" := by decide +kernel
  exact ⟨hwf, hr, fun x hx => hnone x ((hwf.mem_descendants_iff hr).2 hx), hgiven⟩

end PageSlots.Markup.Tree
