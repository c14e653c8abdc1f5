import PageSlots.Proofs.Content.Basic

/-!
# The walk is the preorder

The walk over a subtree works with a stack and counts its steps. What it
lists is simpler to say by recursion: a node, and after it the lists of
its children, one after the other (`WellFormed.descendants_eq`). The
induction is on the steps, and what carries it is that a walk with enough
steps for the nodes in front of a stack is done with them before it takes
the next one (`walk_append`).

The list names no node twice, and an operation on roots apart from a node
leaves the list of that node.

A pass that follows a tree by recursion is given a number of levels.
`FitsIn` says that a subtree has no more; a tree has no more levels than
it has nodes.
-/

namespace PageSlots.Markup.Tree

variable {t t' : Tree} {id b : NodeId} {ids roots : List NodeId} {cs : List Content}

theorem walk_nil (t : Tree) (n : Nat) : t.walk n [] = [] := by
  cases n <;> rfl

/-- **A walk takes the nodes below the first part of its stack first.** -/
theorem walk_append {n : Nat} (h : List.Forall₂ t.Shows ids cs)
    (hn : (cs.map Content.count).sum ≤ n) (stack : List NodeId) :
    t.walk n (ids ++ stack)
      = t.walk n ids ++ t.walk (n - (cs.map Content.count).sum) stack := by
  induction n generalizing ids cs with
  | zero => rw [Nat.zero_sub]; rfl
  | succ n ih =>
    cases h with
    | nil => rw [walk_nil, List.nil_append, List.nil_append]; rfl
    | @cons id c ids cs hc hcs =>
      obtain ⟨o, kids⟩ := c
      obtain ⟨-, hkids⟩ := shows_node.1 hc
      have hnext : List.Forall₂ t.Shows (t.children id ++ ids) (kids ++ cs) :=
        List.rel_append hkids hcs
      rw [List.map_cons, List.sum_cons, Content.count_node] at hn ⊢
      have hstep := ih hnext (by rw [List.map_append, List.sum_append]; omega)
      rw [List.map_append, List.sum_append] at hstep
      rw [List.cons_append, walk, walk, ← List.append_assoc, hstep, List.cons_append,
        Nat.add_right_comm, Nat.succ_sub_succ]

/-- A walk with enough steps does not depend on their number. -/
theorem walk_eq_walk {n m : Nat} (h : List.Forall₂ t.Shows ids cs)
    (hn : (cs.map Content.count).sum ≤ n) (hm : (cs.map Content.count).sum ≤ m) :
    t.walk n ids = t.walk m ids := by
  induction n generalizing ids cs m with
  | zero =>
    cases h with
    | nil => rw [walk_nil, walk_nil]
    | @cons _ c _ cs _ _ =>
      obtain ⟨o, kids⟩ := c
      rw [List.map_cons, List.sum_cons, Content.count_node] at hn
      omega
  | succ n ih =>
    cases h with
    | nil => rw [walk_nil, walk_nil]
    | @cons id c ids cs hc hcs =>
      obtain ⟨o, kids⟩ := c
      obtain ⟨-, hkids⟩ := shows_node.1 hc
      have hnext : List.Forall₂ t.Shows (t.children id ++ ids) (kids ++ cs) :=
        List.rel_append hkids hcs
      have hsum : ((kids ++ cs).map Content.count).sum
          = (kids.map Content.count).sum + (cs.map Content.count).sum := by
        rw [List.map_append, List.sum_append]
      rw [List.map_cons, List.sum_cons, Content.count_node] at hn hm
      obtain ⟨m, rfl⟩ : ∃ k, m = k + 1 := ⟨m - 1, by omega⟩
      rw [walk, walk, ih hnext (m := m) (by omega) (by omega)]

/-- A walk over nodes that show something lists what stands below each. -/
theorem WellFormed.walk_eq_flatMap (h : t.WellFormed) {n : Nat}
    (hs : List.Forall₂ t.Shows ids cs) (hids : ∀ i ∈ ids, i < t.size)
    (hn : (cs.map Content.count).sum ≤ n) : t.walk n ids = ids.flatMap t.descendants := by
  induction hs generalizing n with
  | nil => exact walk_nil t n
  | @cons i c ids cs hc hcs ih =>
    rw [List.map_cons, List.sum_cons] at hn
    have hi := h.count_le_size (hids i List.mem_cons_self) hc
    have hone : List.Forall₂ t.Shows [i] [c] := .cons hc .nil
    have hsum : ([c].map Content.count).sum = c.count := by simp
    have hfirst := walk_append hone (by omega : ([c].map Content.count).sum ≤ n) ids
    rw [List.singleton_append, hsum] at hfirst
    rw [hfirst, ih (fun k hk => hids k (List.mem_cons_of_mem i hk)) (by omega), List.flatMap_cons,
      descendants, walk_eq_walk hone (m := t.size) (by omega) (by omega)]

/-- **The preorder**: a node comes first, and then its children follow with
what stands below each. -/
theorem WellFormed.descendants_eq (h : t.WellFormed) (hid : id < t.size) :
    t.descendants id = id :: (t.children id).flatMap t.descendants := by
  obtain ⟨⟨o, kids⟩, hc⟩ := h.exists_shows id
  obtain ⟨-, hkids⟩ := shows_node.1 hc
  have hcount := h.count_le_size hid hc
  rw [Content.count_node] at hcount
  obtain ⟨n, hn⟩ : ∃ n, t.size = n + 1 := ⟨t.size - 1, by omega⟩
  rw [descendants, hn, walk, List.append_nil,
    h.walk_eq_flatMap hkids (fun i hi => h.lt_of_mem hi) (by omega)]

/-- **What is listed is what stands below.** -/
theorem WellFormed.mem_descendants_iff (h : t.WellFormed) (hid : id < t.size) {x : NodeId} :
    x ∈ t.descendants id ↔ t.Within id x := by
  refine ⟨fun hx => ?_, fun hx => ?_⟩
  · obtain ⟨i, hi, hw⟩ := exists_within_of_mem_walk hx
    exact List.mem_singleton.1 hi ▸ hw
  · obtain ⟨c, hc⟩ := h.exists_shows id
    induction c generalizing id with
    | node o kids ih =>
      obtain ⟨-, hkids⟩ := shows_node.1 hc
      rw [h.descendants_eq hid]
      rcases hx.eq_or_exists with rfl | ⟨i, hi, hw⟩
      · exact List.mem_cons_self
      · obtain ⟨d, hd, hs⟩ := exists_mem_of_forall₂ hkids.flip hi
        exact List.mem_cons_of_mem id (List.mem_flatMap.2 ⟨i, hi, ih d hd (h.lt_of_mem hi) hw hs⟩)

/-- No node is listed twice. -/
theorem WellFormed.nodup_descendants (h : t.WellFormed) (id : NodeId) :
    (t.descendants id).Nodup :=
  h.nodup_walk (List.pairwise_singleton t.Apart id)

/-- A walk reads the child lists of what stands below its stack only. -/
theorem walk_congr {n : Nat}
    (hch : ∀ i ∈ ids, ∀ x, t.Within i x → t'.children x = t.children x) :
    t'.walk n ids = t.walk n ids := by
  induction n generalizing ids with
  | zero => rfl
  | succ n ih =>
    cases ids with
    | nil => rfl
    | cons id ids =>
      rw [walk, walk, hch id List.mem_cons_self id .refl, ih fun i hi x hx => ?_]
      rcases List.mem_append.1 hi with hi | hi
      · exact hch id List.mem_cons_self x ((Within.refl.child hi).trans hx)
      · exact hch i (List.mem_cons_of_mem id hi) x hx

/-- **The list of a node is that of the child lists below it.** -/
theorem WellFormed.descendants_congr (h : t.WellFormed) (hb : b < t.size) (hsize : t.size ≤ t'.size)
    (hch : ∀ x, t.Within b x → t'.children x = t.children x) :
    t'.descendants b = t.descendants b := by
  obtain ⟨c, hc⟩ := h.exists_shows b
  have hcount := h.count_le_size hb hc
  have hsum : ([c].map Content.count).sum = c.count := by simp
  rw [descendants, descendants, walk_congr (t := t) fun i hi x hx => ?_]
  · exact walk_eq_walk (.cons hc .nil) (by omega) (by omega)
  · rw [List.mem_singleton.1 hi] at hx
    exact hch x hx

/-- **An operation on roots that are apart from a node leaves the list of
the node.** -/
theorem Confined.descendants_eq (h : Confined roots t t') (hwf : t.WellFormed) (hb : b < t.size)
    (ha : ∀ r ∈ roots, t.Apart r b) : t'.descendants b = t.descendants b := by
  refine hwf.descendants_congr hb h.size_le fun x hx => ?_
  unfold children
  rw [h.node_eq_of_apart hwf hb ha hx]

/-! ## Levels -/

/-- **A subtree fits in a number of levels.** -/
def FitsIn (t : Tree) : Nat → NodeId → Prop
  | 0, _ => False
  | depth + 1, id => ∀ c ∈ t.children id, FitsIn t depth c

/-- How deep a subtree is depends on the child lists alone. -/
theorem FitsIn.congr (hch : ∀ x, t'.children x = t.children x) {depth : Nat} :
    ∀ {id : NodeId}, t.FitsIn depth id → t'.FitsIn depth id := by
  induction depth with
  | zero => exact fun h => h
  | succ depth ih =>
    intro id h c hc
    rw [hch] at hc
    exact ih (h c hc)

/-- What has no more nodes than a number fits in as many levels. -/
theorem fitsIn_of_count_le {n : Nat} :
    ∀ {id : NodeId} {c : Content}, t.Shows id c → c.count ≤ n → t.FitsIn n id := by
  induction n with
  | zero =>
    rintro id ⟨o, kids⟩ - hn
    rw [Content.count_node] at hn
    exact absurd hn (Nat.not_succ_le_zero _)
  | succ n ih =>
    rintro id ⟨o, kids⟩ hc hn i hi
    obtain ⟨-, hkids⟩ := shows_node.1 hc
    obtain ⟨k, hk, rfl⟩ := List.mem_iff_getElem.1 hi
    have hk' : k < kids.length := hkids.length_eq ▸ hk
    have hle : ∀ d ∈ kids, d.count ≤ (kids.map Content.count).sum := fun d hd => by
      obtain ⟨pre, post, rfl⟩ := List.append_of_mem hd
      rw [List.map_append, List.sum_append, List.map_cons, List.sum_cons]
      omega
    rw [Content.count_node] at hn
    exact ih (hkids.get hk hk')
      (Nat.le_trans (hle _ (List.getElem_mem hk')) (Nat.le_of_succ_le_succ hn))

/-- **A tree has no more levels than nodes.** -/
theorem WellFormed.fitsIn_size (h : t.WellFormed) (hid : id < t.size) : t.FitsIn t.size id := by
  obtain ⟨c, hc⟩ := h.exists_shows id
  exact fitsIn_of_count_le hc (h.count_le_size hid hc)

end PageSlots.Markup.Tree
