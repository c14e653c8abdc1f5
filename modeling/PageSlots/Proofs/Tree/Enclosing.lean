import PageSlots.Proofs.Tree.Subtree

/-!
# What encloses a node

The nodes above a node are found by following parents. A chain of parents
names no node twice, so it ends within as many steps as there are nodes,
and `Tree.ancestors`, which takes that many, is the whole chain
(`WellFormed.ancestors_eq`). `Tree.enclosingTags` keeps the elements of it
and lists their tags, innermost first.

An operation that is confined to some roots changes nothing above a node
that stands outside of them, since what stands above such a node stands
outside as well. The roots themselves keep what encloses them, too: their
parent stays and is no part of what is changed.
-/

namespace PageSlots.Markup.Tree

variable {t t' : Tree} {a c p r x : NodeId} {n m : Nat} {roots : List NodeId}

/-- The nodes above a node, innermost first, as far as a number of steps
goes. -/
def climb (t : Tree) : Nat → NodeId → List NodeId
  | 0, _ => []
  | steps + 1, id =>
    match t.parent id with
    | none => []
    | some p => p :: climb t steps p

/-- **The nodes above a node**, innermost first. -/
def ancestors (t : Tree) (id : NodeId) : List NodeId :=
  t.climb t.size id

/-- The tag of a node that is an element. -/
def elementTag? (t : Tree) (id : NodeId) : Option String :=
  if t.isElement id then some (t.tag id) else none

/-- **The tags of the elements above a node**, innermost first. -/
def enclosingTags (t : Tree) (id : NodeId) : List String :=
  (t.ancestors id).filterMap t.elementTag?

theorem elementTag?_of_own (h : t'.own x = t.own c) : t'.elementTag? x = t.elementTag? c := by
  unfold elementTag? isElement
  rw [kind_eq_own, tag_eq_own, h]
  rfl

/-! ## Climbing -/

theorem climb_succ_of_none (h : t.parent x = none) (n : Nat) : t.climb (n + 1) x = [] := by
  rw [climb, h]

theorem climb_succ_of_some (h : t.parent x = some p) (n : Nat) :
    t.climb (n + 1) x = p :: t.climb n p := by
  rw [climb, h]

/-- A chain that ends before the steps do is as long as it gets. -/
theorem climb_of_le (h : (t.climb n x).length < n) (hm : n ≤ m) : t.climb m x = t.climb n x := by
  induction n generalizing x m with
  | zero => exact absurd h (Nat.not_lt_zero _)
  | succ n ih =>
    obtain ⟨m, rfl⟩ : ∃ k, m = k + 1 := ⟨m - 1, by omega⟩
    cases hp : t.parent x with
    | none => rw [climb_succ_of_none hp, climb_succ_of_none hp]
    | some p =>
      rw [climb_succ_of_some hp, List.length_cons] at h
      rw [climb_succ_of_some hp, climb_succ_of_some hp,
        ih (Nat.lt_of_succ_lt_succ h) (Nat.le_of_succ_le_succ hm)]

namespace WellFormed

variable (h : t.WellFormed)
include h

/-- What is climbed to stands above. -/
theorem within_of_mem_climb (ha : a ∈ t.climb n x) : t.Within a x ∧ a ≠ x := by
  induction n generalizing x with
  | zero => exact absurd ha List.not_mem_nil
  | succ n ih =>
    cases hp : t.parent x with
    | none =>
      rw [climb_succ_of_none hp] at ha
      exact absurd ha List.not_mem_nil
    | some p =>
      have hx : x ∈ t.children p := (h.parent_iff x p).1 hp
      rw [climb_succ_of_some hp] at ha
      rcases List.mem_cons.1 ha with rfl | ha
      · refine ⟨Within.refl.child hx, ?_⟩
        rintro rfl
        exact h.not_within_of_mem hx .refl
      · obtain ⟨hw, -⟩ := ih ha
        refine ⟨hw.child hx, ?_⟩
        rintro rfl
        exact h.not_within_of_mem hx hw

/-- A chain of parents names no node twice. -/
theorem nodup_climb (n : Nat) (x : NodeId) : (x :: t.climb n x).Nodup := by
  refine List.nodup_cons.2 ⟨fun hm => (h.within_of_mem_climb hm).2 rfl, ?_⟩
  induction n generalizing x with
  | zero => exact List.nodup_nil
  | succ n ih =>
    cases hp : t.parent x with
    | none =>
      rw [climb_succ_of_none hp]
      exact List.nodup_nil
    | some p =>
      rw [climb_succ_of_some hp]
      exact List.nodup_cons.2 ⟨fun hm => (h.within_of_mem_climb hm).2 rfl, ih p⟩

/-- **A chain of parents is shorter than the pool.** -/
theorem length_climb_lt (hx : x < t.size) (n : Nat) : (t.climb n x).length < t.size := by
  have hsub : x :: t.climb n x ⊆ List.range t.size := by
    intro a ha
    rcases List.mem_cons.1 ha with rfl | ha
    · exact List.mem_range.2 hx
    · exact List.mem_range.2 ((h.within_of_mem_climb ha).1.lt_of_lt hx)
  have hle := List.Nodup.length_le_of_subset (h.nodup_climb n x) hsub
  rwa [List.length_range] at hle

/-- More steps than there are nodes climb no further. -/
theorem climb_eq_ancestors (hx : x < t.size) (hn : t.size ≤ n) : t.climb n x = t.ancestors x :=
  climb_of_le (h.length_climb_lt hx t.size) hn

theorem ancestors_of_none (hx : x < t.size) (hp : t.parent x = none) : t.ancestors x = [] := by
  rw [← h.climb_eq_ancestors hx (Nat.le_succ _), climb_succ_of_none hp]

/-- **Above a node is its parent, and what is above the parent.** -/
theorem ancestors_eq (hp : t.parent x = some p) : t.ancestors x = p :: t.ancestors p := by
  rw [← h.climb_eq_ancestors (lt_of_parent_eq hp) (Nat.le_succ _), climb_succ_of_some hp]
  rfl

theorem enclosingTags_of_none (hx : x < t.size) (hp : t.parent x = none) :
    t.enclosingTags x = [] := by
  rw [enclosingTags, h.ancestors_of_none hx hp]
  rfl

/-- **What encloses a child** is the parent, if that is an element, and
what encloses the parent. -/
theorem enclosingTags_of_mem (hc : c ∈ t.children p) :
    t.enclosingTags c = (t.elementTag? p).toList ++ t.enclosingTags p := by
  rw [enclosingTags, h.ancestors_eq ((h.parent_iff c p).2 hc), List.filterMap_cons]
  cases t.elementTag? p <;> rfl

end WellFormed

/-! ## Operations elsewhere -/

namespace Confined

variable (h : Confined roots t t') (hwf : t.WellFormed) (hwf' : t'.WellFormed)
include h

theorem elementTag?_eq (hx : x < t.size) (hr : ∀ r ∈ roots, ¬ t.Within r x) :
    t'.elementTag? x = t.elementTag? x :=
  elementTag?_of_own (h.own_eq hx hr)

include hwf

/-- The chain of parents above a node outside the roots stays. -/
theorem climb_eq (n : Nat) (hx : x < t.size) (hr : ∀ r ∈ roots, ¬ t.Within r x) :
    t'.climb n x = t.climb n x := by
  induction n generalizing x with
  | zero => rfl
  | succ n ih =>
    have hparent := h.parent_eq_of_outside hx hr
    cases hp : t.parent x with
    | none => rw [climb_succ_of_none hp, climb_succ_of_none (hparent.trans hp)]
    | some p =>
      have hc : x ∈ t.children p := (hwf.parent_iff x p).1 hp
      rw [climb_succ_of_some hp, climb_succ_of_some (hparent.trans hp),
        ih (hwf.lt_of_parent hp) fun r hr' hw => hr r hr' (hw.child hc)]

/-- **What encloses a node outside the roots stays.** -/
theorem enclosingTags_eq (hx : x < t.size) (hr : ∀ r ∈ roots, ¬ t.Within r x) :
    t'.enclosingTags x = t.enclosingTags x := by
  have hchain : t'.ancestors x = t.ancestors x := by
    rw [ancestors, h.climb_eq hwf _ hx hr, hwf.climb_eq_ancestors hx h.size_le]
  rw [enclosingTags, enclosingTags, hchain]
  refine List.filterMap_congr fun a ha => ?_
  obtain ⟨hw, -⟩ := hwf.within_of_mem_climb ha
  exact h.elementTag?_eq (hw.lt_of_lt hx) fun r hr' hra => hr r hr' (hra.trans hw)

include hwf'

omit h in
/-- **A root keeps what encloses it.** -/
theorem enclosingTags_root (h : Confined [r] t t') (hr : r < t.size) :
    t'.enclosingTags r = t.enclosingTags r := by
  have hparent := h.parent_eq r List.mem_cons_self
  cases hp : t.parent r with
  | none =>
    rw [hwf.enclosingTags_of_none hr hp,
      hwf'.enclosingTags_of_none (Nat.lt_of_lt_of_le hr h.size_le) (hparent.trans hp)]
  | some p =>
    have hout : ∀ s ∈ [r], ¬ t.Within s p :=
      List.forall_mem_singleton.2 (hwf.acyclic r p hp)
    have hlt := hwf.lt_of_parent hp
    rw [hwf.enclosingTags_of_mem ((hwf.parent_iff r p).1 hp),
      hwf'.enclosingTags_of_mem ((hwf'.parent_iff r p).1 (hparent.trans hp)),
      h.elementTag?_eq hlt hout, h.enclosingTags_eq hwf hlt hout]

end Confined

end PageSlots.Markup.Tree
