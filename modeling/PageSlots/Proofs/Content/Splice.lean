import PageSlots.Proofs.Content.Fragment

/-!
# Splicing a fragment into a tree

Markup is read into the pool in which the page already lives, and the
reader shares it: it creates nodes there, joins texts and moves what it has
read under the parent at the end. None of this can be seen from outside.
Either the fragment has a fault, and every node is as it was; or the parent
has new children at the end, every other node is as it was, and what hangs
from the new children is what the fragment is in a tree of its own, up to
the numbers of the nodes (`readInto_atomic`).

That the reader only touches nodes of its own is `Builder.Follows`, which
each step of it keeps; here the two readings of one fragment, in different
pools, are compared through the contents that both show.
-/

namespace PageSlots.Markup.Tree

variable {t t' : Tree} {p x y : NodeId} {ids : List NodeId} {cs : List Content} {c : Content}
  {markup : String} {fault : MarkupFault}

/-- **Two nodes, each in its tree, have equal subtrees up to the numbers of
the nodes**: they agree in their own data, and their children in turn. -/
inductive SameSubtree (t t' : Tree) : NodeId → NodeId → Prop
  | node {x y : NodeId} : t'.own y = t.own x →
      List.Forall₂ (SameSubtree t t') (t.children x) (t'.children y) → SameSubtree t t' x y

/-- **Nodes that show one content have equal subtrees.** -/
theorem Shows.sameSubtree (h : t.Shows x c) (h' : t'.Shows y c) : SameSubtree t t' x y := by
  induction c generalizing x y with
  | node o cs ih =>
    obtain ⟨ho, hcs⟩ := shows_node.1 h
    obtain ⟨ho', hcs'⟩ := shows_node.1 h'
    refine .node (ho'.trans ho.symm) (List.forall₂_iff_get.2 ⟨?_, fun i hi hi' => ?_⟩)
    · exact hcs.length_eq.trans hcs'.length_eq.symm
    · have hlt : i < cs.length := hcs.length_eq ▸ hi
      exact ih cs[i] (List.getElem_mem hlt) (hcs.get hi hlt) (hcs'.get hi' hlt)

/-- Several nodes that show the same contents have equal subtrees. -/
theorem forall₂_sameSubtree {ids' : List NodeId} (h : List.Forall₂ t.Shows ids cs)
    (h' : List.Forall₂ t'.Shows ids' cs) : List.Forall₂ (SameSubtree t t') ids ids' := by
  induction h generalizing ids' with
  | nil =>
    rw [List.forall₂_nil_right_iff.1 h']
    exact .nil
  | cons hc _ ih =>
    obtain ⟨id', rest', hc', hrest', rfl⟩ := List.forall₂_cons_right_iff.1 h'
    exact .cons (hc.sameSubtree hc') (ih hrest')

theorem get?_of_lt (hx : x < t.size) : t.get? x = some (t.node x) := by
  obtain ⟨n, hn⟩ := Option.ne_none_iff_exists'.1
    fun hnone => Nat.not_le_of_lt hx ((get?_eq_none_iff t x).1 hnone)
  rw [node, hn, Option.getD_some]

/-- A node that reads the same in a pool that has not lost any is the
same. -/
theorem get?_eq_of_node_eq (hsize : t.size ≤ t'.size) (hx : x < t.size)
    (h : t'.node x = t.node x) : t'.get? x = t.get? x := by
  rw [get?_of_lt hx, get?_of_lt (Nat.lt_of_lt_of_le hx hsize), h]

/-- **A fragment has the same fault in every tree.** -/
theorem WellFormed.readInto_eq_error_iff (h : t.WellFormed) (hp : p < t.size) :
    (t.readInto p markup).nodes = .error fault ↔ (readFragment markup).nodes = .error fault := by
  have hfragment := readFragment_eq markup
  cases hcs : (Content.parse markup).1 with
  | error fault' =>
    rw [hcs] at hfragment
    rw [(h.readInto_of_error p hcs).1, hfragment]
  | ok cs =>
    rw [hcs] at hfragment
    obtain ⟨⟨ids', hids'⟩, -⟩ := hfragment
    obtain ⟨ids, hids, -⟩ := h.readInto_of_ok hp hcs
    rw [hids, hids']
    exact ⟨nofun, nofun⟩

/-- **A fault leaves every node as it is.** -/
theorem WellFormed.get?_readInto_of_error (h : t.WellFormed) (hp : p < t.size)
    (hfault : (t.readInto p markup).nodes = .error fault) (hx : x < t.size) :
    (t.readInto p markup).tree.get? x = t.get? x := by
  cases hcs : (Content.parse markup).1 with
  | error fault' =>
    obtain ⟨-, -, hconfined⟩ := h.readInto_of_error p hcs
    exact get?_eq_of_node_eq hconfined.size_le hx (hconfined.node_eq x hx nofun)
  | ok cs =>
    obtain ⟨ids, hids, -⟩ := h.readInto_of_ok hp hcs
    cases hids.symm.trans hfault

/-- **What a fragment without fault adds** is what the fragment is in a tree
of its own. -/
theorem WellFormed.exists_receives_of_ok (h : t.WellFormed) (hp : p < t.size)
    (hids : (t.readInto p markup).nodes = .ok ids) :
    ∃ cs, Receives p ids cs t (t.readInto p markup).tree
      ∧ List.Forall₂ (readFragment markup).tree.Shows ((readFragment markup).tree.children 0)
          cs := by
  obtain ⟨cs, hcs, hreceives⟩ := h.receives_of_ok hp hids
  have hfragment := readFragment_eq markup
  rw [hcs] at hfragment
  exact ⟨cs, hreceives, (shows_node.1 hfragment.2.2.2).2⟩

/-- **Splicing a fragment into a tree is atomic and local.** It has a fault
exactly if the fragment has, and the same one, and then every node is as it
was. Otherwise the parent has the returned nodes, which are new, after the
children it had; it keeps its own data and its parent, every other node is
as it was, and the returned nodes have the subtrees of the topmost nodes of
the fragment in a tree of its own, up to the numbers of the nodes. -/
theorem readInto_atomic (h : t.WellFormed) (hp : p < t.size) (markup : String) :
    (∀ fault, (t.readInto p markup).nodes = .error fault
      ↔ (readFragment markup).nodes = .error fault)
    ∧ (∀ fault, (t.readInto p markup).nodes = .error fault →
        ∀ x < t.size, (t.readInto p markup).tree.get? x = t.get? x)
    ∧ ∀ ids, (t.readInto p markup).nodes = .ok ids →
        (t.readInto p markup).tree.children p = t.children p ++ ids
        ∧ (∀ id ∈ ids, t.size ≤ id)
        ∧ (t.readInto p markup).tree.own p = t.own p
        ∧ (t.readInto p markup).tree.parent p = t.parent p
        ∧ (∀ x < t.size, x ≠ p → (t.readInto p markup).tree.get? x = t.get? x)
        ∧ List.Forall₂ (SameSubtree (t.readInto p markup).tree (readFragment markup).tree) ids
            ((readFragment markup).tree.children 0) := by
  refine ⟨fun fault => h.readInto_eq_error_iff hp,
    fun fault hfault x hx => h.get?_readInto_of_error hp hfault hx, fun ids hids => ?_⟩
  obtain ⟨cs, hreceives, hfragment⟩ := h.exists_receives_of_ok hp hids
  refine ⟨hreceives.children_eq, hreceives.le_of_mem, hreceives.own_eq, hreceives.parent_eq,
    fun x hx hxp => ?_, forall₂_sameSubtree hreceives.shows hfragment⟩
  exact get?_eq_of_node_eq hreceives.size_le hx (hreceives.node_eq x hx hxp)

/-- Under a paragraph with a text, a fragment that begins with a text is
spliced, and one that ends inside a tag is not. -/
theorem readInto_atomic_paragraph :
    let t := (readFragment "<p>a</p>").tree
    t.WellFormed ∧ 2 < t.size
    ∧ (∃ ids, (t.readInto 2 "b<i>c</i>").nodes = .ok ids
        ∧ (t.readInto 2 "b<i>c</i>").tree.children 2 = 3 :: ids
        ∧ List.Forall₂ (SameSubtree (t.readInto 2 "b<i>c</i>").tree
            (readFragment "b<i>c</i>").tree) ids [2, 3])
    ∧ ∃ fault, (t.readInto 2 "b<i").nodes = .error fault
        ∧ (readFragment "b<i").nodes = .error fault
        ∧ ∀ x < t.size, (t.readInto 2 "b<i").tree.get? x = t.get? x := by
  intro t
  have hok : (readFragment "<p>a</p>").nodes = .ok [2] := by decide +kernel
  have hwf : t.WellFormed := (readFragment_of_ok hok).1
  have hp : 2 < t.size := by decide +kernel
  have hids : (t.readInto 2 "b<i>c</i>").nodes = .ok [5, 6] := by decide +kernel
  have hthree : t.children 2 = [3] := by decide +kernel
  have hroots : (readFragment "b<i>c</i>").tree.children 0 = [2, 3] := by decide +kernel
  obtain ⟨-, -, hspliced⟩ := readInto_atomic hwf hp "b<i>c</i>"
  obtain ⟨hchildren, -, -, -, -, hsame⟩ := hspliced [5, 6] hids
  refine ⟨hwf, hp, ⟨[5, 6], hids, ?_, hroots ▸ hsame⟩, ?_⟩
  · rw [hchildren, hthree]
    rfl
  · obtain ⟨hiff, hkept, -⟩ := readInto_atomic hwf hp "b<i"
    obtain ⟨fault, hfault⟩ : ∃ fault, (t.readInto 2 "b<i").nodes = .error fault := by
      cases hnodes : (t.readInto 2 "b<i").nodes with
      | error fault => exact ⟨fault, rfl⟩
      | ok ids =>
        have hnone : (t.readInto 2 "b<i").nodes.toOption = none := by decide +kernel
        rw [hnodes] at hnone
        cases hnone
    exact ⟨fault, hfault, (hiff fault).1 hfault, hkept fault hfault⟩

end PageSlots.Markup.Tree
