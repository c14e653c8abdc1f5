import PageSlots.Proofs.Content.Fragment
import PageSlots.Proofs.Slot.Below

/-!
# What the second sweep is good for

The second sweep should leave no marker but on a `template`, it should be
done after once, and it should lose nothing: without the wrappers it put
in, the tree should be the one that it was called for.

The shape is never lost. A wrapper has the node that it was made for as
its only child, so a tree without the wrappers is read off the one that
has them (`Tree.unwrap`), and that reading gives back all children and
parents. It rests on what `Wrapped` says: what stands in the place of a
node tells which node that is (`Wrapped.top_injOn`), and so a place hangs
where the node hung (`Wrapped.parent_top`).

The other two hold within limits. From an element with two markers only
the first one is taken, and the sweep does not come back to it. So markers
are left, and the next sweep finds them, exactly if some element had a
second one (`allWrapped_iff`, `wrapMarkedBelow_eq_self_iff`). A wrapper has
its marker without a value, so the attributes come back up to their order
exactly if the markers that were moved had none.
-/

namespace PageSlots.Markup

open PageSlots.Slot

/-! ## A marker that is given back -/

namespace Own

variable {o : Own} {name : String}

/-- A node with the marker that wrapping takes off made empty. -/
def emptied (o : Own) : Own :=
  match o.movedMarker? with
  | none => o
  | some name => o.setAttr name ""

/-- **A marker that has been taken off, put behind the other attributes**,
is the old one without its value, up to the order. -/
theorem perm_removeAttr_append (h : name ∈ o.names) :
    List.Perm ((o.removeAttr name).attrs ++ [⟨name, ""⟩]) (o.setAttr name "").attrs := by
  obtain ⟨pre, a, post, hattrs, rfl, hpre⟩ := exists_append_of_mem_attributeNames h
  have hset : (o.setAttr a.name "").attrs = pre ++ ⟨a.name, ""⟩ :: post := by
    show setAttribute _ _ o.attrs = _
    rw [hattrs, setAttribute_append hpre]
  rw [attrs_removeAttr_append hattrs hpre, hset]
  exact List.perm_append_singleton _ _ |>.trans List.perm_middle.symm

/-- Setting an attribute reorders nothing but if it had the value before. -/
theorem perm_setAttr_iff (hn : o.names.Nodup) {value : String} (h : name ∈ o.names) :
    (o.setAttr name value).attrs.Perm o.attrs ↔ o.attr? name = some value := by
  obtain ⟨pre, a, post, hattrs, rfl, hpre⟩ := exists_append_of_mem_attributeNames h
  have hset : (o.setAttr a.name value).attrs = pre ++ ⟨a.name, value⟩ :: post := by
    show setAttribute _ _ o.attrs = _
    rw [hattrs, setAttribute_append hpre]
  have hold : o.attr? a.name = some a.value := attr?_of_append hattrs hpre
  rw [hold, Option.some.injEq, hset, hattrs]
  refine ⟨fun hp => ?_, fun hv => by rw [← hv]⟩
  -- no other attribute has the name
  have hm : ⟨a.name, value⟩ ∈ pre ++ a :: post := hp.subset (by simp)
  rw [names, hattrs, attributeNames_append, attributeNames_cons] at hn
  rcases List.mem_append.1 hm with hm | hm
  · exact absurd (mem_attributeNames.2 ⟨_, hm, rfl⟩) hpre
  · rcases List.mem_cons.1 hm with he | hm
    · rw [← he]
    · exact absurd (mem_attributeNames.2 ⟨_, hm, rfl⟩)
        (List.nodup_cons.1 (List.nodup_append.1 hn).2.1).1

end Own

namespace Tree

variable {t t' : Tree} {r w x y : NodeId} {name : String} {ids done : List NodeId}

/-! ## A tree without its wrappers -/

/-- What a node is like without the nodes from a number on. A child among
these gives way to its own children, and a parent among these to its own
parent, and it leaves its attributes behind. -/
def unwrapNode (t : Tree) (n : Nat) (x : NodeId) : Node :=
  let kept := { t.node x with
    children := (t.children x).flatMap fun c => if c < n then [c] else t.children c }
  match (t.parent x).filter (n ≤ ·) with
  | none => kept
  | some w => { kept with attrs := kept.attrs ++ t.attrs w, parent := t.parent w }

/-- **A tree without the nodes from a number on.** -/
def unwrap (t : Tree) (n : Nat) : Tree :=
  { nodes := ((List.range n).map (t.unwrapNode n)).toArray }

@[simp] theorem size_unwrap (t : Tree) (n : Nat) : (t.unwrap n).size = n := by
  simp [unwrap, size]

theorem node_unwrap {n : Nat} (h : x < n) : (t.unwrap n).node x = t.unwrapNode n x := by
  simp [unwrap, node, get?, h]

/-- A node whose parent stays keeps what it has, the children apart. -/
theorem unwrapNode_of_lt {n : Nat} (h : ∀ q, t.parent x = some q → q < n) :
    t.unwrapNode n x = { t.node x with
      children := (t.children x).flatMap fun c => if c < n then [c] else t.children c } := by
  unfold unwrapNode
  rw [show (t.parent x).filter (n ≤ ·) = none from
    Option.filter_eq_none_iff.2 fun q hq => by simpa using h q hq]

/-- A node whose parent goes comes to the parent of that one. -/
theorem unwrapNode_of_le {n : Nat} (hw : t.parent x = some w) (h : n ≤ w) :
    t.unwrapNode n x = { t.node x with
      children := (t.children x).flatMap fun c => if c < n then [c] else t.children c
      attrs := t.attrs x ++ t.attrs w
      parent := t.parent w } := by
  unfold unwrapNode
  rw [hw, Option.filter_some, if_pos (decide_eq_true h)]
  rfl

/-! ## What stands in the place of a node -/

namespace Wrapped

variable {top : NodeId → NodeId} (hw : Wrapped done top t t')
include hw

/-- The node itself stands in its place, or its wrapper does. -/
theorem top_cases (x : NodeId) :
    ((x ∈ done → (t.own x).movedMarker? = none) ∧ top x = x)
      ∨ ∃ name, x ∈ done ∧ (t.own x).movedMarker? = some name ∧ t.size ≤ top x
        ∧ t'.own (top x) = Own.wrapper name ∧ t'.children (top x) = [x] := by
  by_cases hm : x ∈ done → (t.own x).movedMarker? = none
  · exact .inl ⟨hm, hw.top_eq x hm⟩
  · obtain ⟨hx, hne⟩ := Classical.not_imp.1 hm
    obtain ⟨name, hname⟩ := Option.ne_none_iff_exists'.1 hne
    exact .inr ⟨name, hx, hname, hw.wrapper x hx name hname⟩

/-- **What stands in a place tells whose place it is.** -/
theorem top_injOn (hx : x < t.size) (hy : y < t.size) (he : top x = top y) : x = y := by
  by_contra hne
  rcases hw.top_cases x with ⟨-, htx⟩ | ⟨_, -, -, -, -, hcx⟩
  · exact hw.top_ne hx (Ne.symm hne) (he.symm.trans htx)
  · rcases hw.top_cases y with ⟨-, hty⟩ | ⟨_, -, -, -, -, hcy⟩
    · exact hw.top_ne hy hne (he.trans hty)
    · rw [he, hcy] at hcx
      exact hne (List.cons.inj hcx).1.symm

/-- A new node has an old one as its only child, and stands in its
place. -/
theorem exists_of_le (hle : t.size ≤ w) (hlt : w < t'.size) :
    ∃ x name, x < t.size ∧ x ∈ done ∧ (t.own x).movedMarker? = some name ∧ top x = w
      ∧ t'.own w = Own.wrapper name ∧ t'.children w = [x] := by
  obtain ⟨x, hx, hm, rfl⟩ := hw.new_eq w hle hlt
  obtain ⟨name, hname⟩ := Option.ne_none_iff_exists'.1 hm
  obtain ⟨-, ho, hc⟩ := hw.wrapper x hx name hname
  refine ⟨x, name, ?_, hx, hname, rfl, ho, hc⟩
  by_contra hn
  obtain ⟨⟨hk, -⟩, -⟩ := Own.movedMarker?_eq_some_iff.1 hname
  rw [own, kind, node_of_le (Nat.le_of_not_lt hn)] at hk
  cases hk

/-- **A place hangs where the node hung.** -/
theorem parent_top (h : t.WellFormed) (hx : x < t.size) : t'.parent (top x) = t.parent x := by
  refine Option.ext fun q => ?_
  rw [hw.wellFormed.parent_iff, h.parent_iff]
  by_cases hq : q < t.size
  · rw [hw.children_eq q hq, List.mem_map]
    refine ⟨fun ⟨y, hy, he⟩ => ?_, fun hm => ⟨x, hm, rfl⟩⟩
    rwa [← hw.top_injOn (h.lt_of_mem hy) hx he]
  · -- a new node has the node of its place as its child, and not what stands in a place
    rw [children_of_le (Nat.le_of_not_lt hq)]
    refine ⟨fun hm => ?_, fun hm => absurd hm List.not_mem_nil⟩
    obtain ⟨y, name, hy, hyd, hname, rfl, -, hc⟩ :=
      hw.exists_of_le (Nat.le_of_not_lt hq) (lt_of_mem_children hm)
    rw [hc, List.mem_singleton] at hm
    by_cases hxy : x = y
    · rw [hxy] at hm
      exact absurd (Nat.lt_of_le_of_lt (Nat.le_of_eq hm) hy) hq
    · exact absurd hm (hw.top_ne hy hxy)

/-- Below a node stand the nodes that stood there and their wrappers. -/
theorem exists_within (h : t.WellFormed) (hr : r < t.size) (hx : t'.Within r x) :
    ∃ y, t.Within r y ∧ (x = y ∨ x = top y) := by
  induction hx with
  | refl => exact ⟨r, .refl, .inl rfl⟩
  | @child p x _ hxp ih =>
    obtain ⟨y, hy, he⟩ := ih
    by_cases hp : p = y
    · subst hp
      rw [hw.children_eq p (h.lt_of_within hr hy), List.mem_map] at hxp
      obtain ⟨z, hz, rfl⟩ := hxp
      exact ⟨z, hy.child hz, .inr rfl⟩
    · obtain rfl := he.resolve_left hp
      rcases hw.top_cases y with ⟨-, ht⟩ | ⟨_, -, -, -, -, hc⟩
      · exact absurd ht hp
      · rw [hc, List.mem_singleton] at hxp
        exact ⟨y, hy, .inl hxp⟩

/-- What stood below a node stands there still. -/
theorem within (h : t.WellFormed) (hr : r < t.size) (hx : t.Within r x) : t'.Within r x := by
  induction hx with
  | refl => exact .refl
  | @child p x hp hxp ih =>
    have hm : top x ∈ t'.children p := by
      rw [hw.children_eq p (h.lt_of_within hr hp)]
      exact List.mem_map_of_mem hxp
    rcases hw.top_cases x with ⟨-, ht⟩ | ⟨_, -, -, -, -, hc⟩
    · exact ih.child (ht ▸ hm)
    · exact (ih.child hm).child (hc ▸ List.mem_singleton_self x)

/-! ## The old shape -/

/-- The children of a node that stays are the old ones. -/
theorem flatMap_children (h : t.WellFormed) (hx : x < t.size) :
    ((t'.children x).flatMap fun c => if c < t.size then [c] else t'.children c)
      = t.children x := by
  rw [hw.children_eq x hx, List.flatMap_map]
  refine (List.flatMap_congr fun c hc => ?_).trans (List.flatMap_singleton' _)
  rcases hw.top_cases c with ⟨-, ht⟩ | ⟨_, -, -, hle, -, hch⟩
  · rw [ht, if_pos (h.lt_of_mem hc)]
  · rw [if_neg (Nat.not_lt_of_le hle), hch]

/-- **Without the wrappers a node has its old place**, and all that it had
if it has no wrapper. -/
theorem unwrap_of_top_eq (h : t.WellFormed) (hx : x < t.size) (ht : top x = x)
    (hnone : x ∈ done → (t.own x).movedMarker? = none) :
    (t'.unwrap t.size).node x = t.node x := by
  have hpar : t'.parent x = t.parent x := by
    have hp := hw.parent_top h hx
    rwa [ht] at hp
  have hown : t'.own x = t.own x := by
    rw [hw.own_eq x hx]
    split
    · rename_i hxd
      exact Own.withoutMarker_of_none (hnone hxd)
    · rfl
  have hnode := node_unwrap (t := t') hx
  rw [unwrapNode_of_lt fun q hq => h.lt_of_parent (hpar.symm.trans hq),
    hw.flatMap_children h hx] at hnode
  refine node_ext ?_ (by rw [children, hnode]) ?_
  · rw [← hown, own, kind, tag, attrs, text, hnode]
    rfl
  · rw [← hpar, parent, hnode]
    rfl

/-- Otherwise it has its marker back, behind the other attributes. -/
theorem unwrap_of_some (h : t.WellFormed) (hx : x < t.size) (hxd : x ∈ done)
    (hname : (t.own x).movedMarker? = some name) :
    (t'.unwrap t.size).node x
      = { t.node x with attrs := ((t.own x).removeAttr name).attrs ++ [⟨name, ""⟩] } := by
  obtain ⟨hle, ho, hc⟩ := hw.wrapper x hxd name hname
  have hpar : t'.parent x = some (top x) :=
    (hw.wellFormed.parent_iff _ _).2 (hc ▸ List.mem_singleton_self x)
  have hown : t'.own x = (t.own x).removeAttr name := by
    rw [hw.own_eq x hx, if_pos hxd, Own.withoutMarker_of_some hname]
  rw [node_unwrap hx, unwrapNode_of_le hpar hle, hw.flatMap_children h hx, hw.parent_top h hx,
    attrs_eq_own t' x, attrs_eq_own t' (top x), ho, hown, Node.mk.injEq]
  exact ⟨congrArg Own.kind hown, congrArg Own.tag hown, rfl, congrArg Own.text hown, rfl, rfl⟩

end Wrapped

/-! ## Markers that are left -/

/-- Below a node only a `template` has a shorthand marker. -/
def AllWrapped (t : Tree) (r : NodeId) : Prop :=
  ∀ x, t.Within r x → t.isElement x = true → t.tag x ≠ wrapperTag → t.marker? x = none

/-- Below a node no element but a `template` has two shorthand markers. -/
def OneMarkerEach (t : Tree) (r : NodeId) : Prop :=
  ∀ x, t.Within r x → t.isElement x = true → t.tag x ≠ wrapperTag →
    (t.own x).markers.length ≤ 1

/-- Below a node the markers that wrapping takes off have no value. -/
def BareMarkers (t : Tree) (r : NodeId) : Prop :=
  ∀ x, t.Within r x → ∀ name, (t.own x).movedMarker? = some name → t.attr? x name = some ""

theorem allWrapped_iff :
    AllWrapped t r ↔ ∀ x, t.Within r x → (t.own x).movedMarker? = none := by
  refine forall₂_congr fun x _ => ?_
  rw [Own.movedMarker?, isElement_iff, tag_eq_own, marker?_eq_own]
  constructor
  · intro h
    split
    · rename_i hk
      exact h hk.1 hk.2
    · rfl
  · intro h hk ht
    rwa [if_pos ⟨hk, ht⟩] at h

/-- **A node has a marker left if it had a second one.** -/
theorem movedMarker?_withoutMarker_iff {o : Own} : o.withoutMarker.movedMarker? = none
    ↔ (o.kind = .element → o.tag ≠ wrapperTag → o.markers.length ≤ 1) := by
  cases hm : o.movedMarker? with
  | none =>
    rw [Own.withoutMarker_of_none hm]
    refine ⟨fun _ hk ht => ?_, fun _ => hm⟩
    rw [Own.movedMarker?, if_pos ⟨hk, ht⟩, ← Own.markers_eq_nil_iff] at hm
    rw [hm]
    exact Nat.zero_le _
  | some name =>
    obtain ⟨hk, hmark⟩ := Own.movedMarker?_eq_some_iff.1 hm
    rw [Own.withoutMarker_of_some hm, Own.movedMarker?,
      if_pos (show (o.removeAttr name).kind = .element ∧ (o.removeAttr name).tag ≠ wrapperTag
        from hk), Own.marker?_removeAttr_self_iff hmark]
    exact ⟨fun h _ _ => h, fun h => h hk.1 hk.2⟩

/-- **Where all are wrapped there is nothing to do**, and only there. -/
theorem WellFormed.wrapMarkedBelow_eq_self_iff (h : t.WellFormed) (hr : r < t.size) :
    (t.wrapMarkedBelow r).2 = t ↔ AllWrapped t r := by
  rw [allWrapped_iff]
  have hwithin := fun x (hx : x ∈ t.descendants r) => (h.mem_descendants_iff hr).1 hx
  constructor
  · intro he x hx
    by_contra hne
    obtain ⟨name, hname⟩ := Option.ne_none_iff_exists'.1 hne
    obtain ⟨top, hw⟩ := h.exists_wrapped (h.nodup_descendants r)
      (fun i hi => h.lt_of_within hr (hwithin i hi)) []
    -- the wrapper would be a new node
    obtain ⟨hle, -, hc⟩ := hw.wrapper x ((h.mem_descendants_iff hr).2 hx) name hname
    rw [show (List.foldl wrapMarkedTold ([], t) (t.descendants r)).2 = t from he] at hc
    exact absurd (hc ▸ List.mem_singleton_self x : x ∈ t.children (top x))
      (by rw [children_of_le hle]; exact List.not_mem_nil)
  · intro hnone
    have hfold : ∀ ids : List NodeId, (∀ i ∈ ids, (t.own i).movedMarker? = none) → ∀ log,
        (ids.foldl wrapMarkedTold (log, t)).2 = t := by
      intro ids
      induction ids with
      | nil => exact fun _ _ => rfl
      | cons i ids ih =>
        intro hids log
        have hi : (wrapMarkedTold (log, t) i).2 = t := by
          rw [snd_wrapMarkedTold, wrapMarked_of_none (hids i List.mem_cons_self)]
        rw [List.foldl_cons, ← Prod.eta (wrapMarkedTold (log, t) i), hi]
        exact ih (fun k hk => hids k (List.mem_cons_of_mem i hk)) _
    exact hfold _ (fun i hi => hnone i (hwithin i hi)) []

/-! ## The sweep -/

/-- **Two trees are the same up to the order of attributes.** -/
structure SameUpToOrder (t t' : Tree) : Prop where
  /-- They have as many nodes. -/
  size_eq : t'.size = t.size
  /-- The children are the same. -/
  children_eq : ∀ x, t'.children x = t.children x
  /-- The parents are the same. -/
  parent_eq : ∀ x, t'.parent x = t.parent x
  /-- The kinds are the same. -/
  kind_eq : ∀ x, t'.kind x = t.kind x
  /-- The tags are the same. -/
  tag_eq : ∀ x, t'.tag x = t.tag x
  /-- The texts are the same. -/
  text_eq : ∀ x, t'.text x = t.text x
  /-- The attributes are the same in some order. -/
  attrs_perm : ∀ x, (t'.attrs x).Perm (t.attrs x)

/-- **Marked elements below a node have been wrapped**, each in a
`template` of its own that has its first marker. -/
structure MarkersWrapped (r : NodeId) (t t' : Tree) : Prop where
  /-- The tree is well formed. -/
  wellFormed : t'.WellFormed
  /-- No node goes. -/
  size_le : t.size ≤ t'.size
  /-- What is not below the node keeps its own data. -/
  own_eq_self : ∀ x < t.size, ¬ t.Within r x → t'.own x = t.own x
  /-- What is below loses the first marker, if it is an element but no
  `template`. -/
  own_eq : ∀ x, t.Within r x → t'.own x = (t.own x).withoutMarker
  /-- It hangs from a new `template` then that has the marker. -/
  wrapped : ∀ x name, t.Within r x → (t.own x).movedMarker? = some name →
    ∃ w, t.size ≤ w ∧ t'.own w = Own.wrapper name ∧ t'.children w = [x]
  /-- There are no other new nodes. -/
  wrapper : ∀ w, t.size ≤ w → w < t'.size → ∃ x name, t.Within r x
    ∧ (t.own x).movedMarker? = some name ∧ t'.own w = Own.wrapper name ∧ t'.children w = [x]
  /-- Without them all nodes that are not wrapped are as before. -/
  unwrap_eq : ∀ x < t.size, (t.Within r x → (t.own x).movedMarker? = none) →
    (t'.unwrap t.size).node x = t.node x
  /-- The others are so too but for their attributes, which are the old ones
  in some order and with the marker emptied. -/
  unwrap_perm : ∀ x, t.Within r x → (t.own x).movedMarker? ≠ none →
    ∃ attrs, (t'.unwrap t.size).node x = { t.node x with attrs }
      ∧ attrs.Perm (t.own x).emptied.attrs

/-- The sweep wraps the marked elements below its node. -/
theorem WellFormed.markersWrapped_wrapMarkedBelow (h : t.WellFormed) (hr : r < t.size) :
    MarkersWrapped r t (t.wrapMarkedBelow r).2 := by
  have hmem := fun x => h.mem_descendants_iff hr (x := x)
  have hlt := fun x (hx : t.Within r x) => h.lt_of_within hr hx
  obtain ⟨top, hw⟩ := h.exists_wrapped (h.nodup_descendants r)
    (fun i hi => hlt i ((hmem i).1 hi)) []
  refine ⟨hw.wellFormed, hw.size_le, fun x hx hn => ?_, fun x hx => ?_, fun x name hx hname => ?_,
    fun w hle hltw => ?_, fun x hx hnone => ?_, fun x hx hne => ?_⟩
  · exact (hw.own_eq x hx).trans (if_neg fun hd => hn ((hmem x).1 hd))
  · exact (hw.own_eq x (hlt x hx)).trans (if_pos ((hmem x).2 hx))
  · exact ⟨top x, hw.wrapper x ((hmem x).2 hx) name hname⟩
  · obtain ⟨x, name, -, hx, hname, -, ho, hc⟩ := hw.exists_of_le hle hltw
    exact ⟨x, name, (hmem x).1 hx, hname, ho, hc⟩
  · have hnone' := fun hd => hnone ((hmem x).1 hd)
    exact hw.unwrap_of_top_eq h hx (hw.top_eq x hnone') hnone'
  · obtain ⟨name, hname⟩ := Option.ne_none_iff_exists'.1 hne
    refine ⟨_, hw.unwrap_of_some h (hlt x hx) ((hmem x).2 hx) hname, ?_⟩
    rw [Own.emptied, hname]
    exact Own.perm_removeAttr_append
      (mem_attributeNames_of_findMarker (Own.movedMarker?_eq_some_iff.1 hname).2)

/-- **Without the wrappers the tree is the old one up to the order of
attributes** if the markers had no values, and only then. -/
theorem MarkersWrapped.sameUpToOrder_iff (hm : MarkersWrapped r t t') (h : t.WellFormed) :
    SameUpToOrder t (t'.unwrap t.size) ↔ BareMarkers t r := by
  constructor
  · intro hs x hx name hname
    obtain ⟨attrs, hnode, hperm⟩ := hm.unwrap_perm x hx (hname ▸ nofun)
    have hsame : (t'.unwrap t.size).attrs x = attrs := congrArg Node.attrs hnode
    rw [Own.emptied, hname] at hperm
    exact (Own.perm_setAttr_iff (h.nodup_names x) (mem_attributeNames_of_findMarker
      (Own.movedMarker?_eq_some_iff.1 hname).2)).1 (hperm.symm.trans (hsame ▸ hs.attrs_perm x))
  · intro hbare
    have hnode : ∀ x, ∃ attrs, (t'.unwrap t.size).node x = { t.node x with attrs }
        ∧ attrs.Perm (t.attrs x) := by
      intro x
      by_cases hx : x < t.size
      · by_cases hk : t.Within r x → (t.own x).movedMarker? = none
        · exact ⟨t.attrs x, hm.unwrap_eq x hx hk, .refl _⟩
        · obtain ⟨hw, hne⟩ := Classical.not_imp.1 hk
          obtain ⟨name, hname⟩ := Option.ne_none_iff_exists'.1 hne
          obtain ⟨attrs, hnode, hperm⟩ := hm.unwrap_perm x hw hne
          rw [Own.emptied, hname] at hperm
          exact ⟨attrs, hnode, hperm.trans ((Own.perm_setAttr_iff (h.nodup_names x)
            (mem_attributeNames_of_findMarker (Own.movedMarker?_eq_some_iff.1 hname).2)).2
            (hbare x hw name hname))⟩
      · have hle := Nat.le_of_not_lt hx
        refine ⟨t.attrs x, ?_, .refl _⟩
        rw [node_of_le (by rwa [size_unwrap]), attrs, node_of_le hle]
    choose attrs hattrs hperm using hnode
    refine ⟨size_unwrap .., fun x => ?_, fun x => ?_, fun x => ?_, fun x => ?_, fun x => ?_,
      fun x => ?_⟩
    · rw [children, hattrs, children]
    · rw [parent, hattrs, parent]
    · rw [kind, hattrs, kind]
    · rw [tag, hattrs, tag]
    · rw [text, hattrs, text]
    · rw [Tree.attrs, hattrs]
      exact hperm x

/-- **All are wrapped if each had one marker**, and only then. -/
theorem Wrapped.allWrapped_iff {top : NodeId → NodeId} (hw : Wrapped done top t t')
    (h : t.WellFormed) (hr : r < t.size) (hdone : ∀ x, x ∈ done ↔ t.Within r x) :
    AllWrapped t' r ↔ OneMarkerEach t r := by
  have hleft : ∀ x, t.Within r x → ((t'.own x).movedMarker? = none
      ↔ (t.isElement x = true → t.tag x ≠ wrapperTag → (t.own x).markers.length ≤ 1)) := by
    intro x hx
    rw [hw.own_eq x (h.lt_of_within hr hx), if_pos ((hdone x).2 hx),
      movedMarker?_withoutMarker_iff, isElement_iff, tag_eq_own]
  rw [Tree.allWrapped_iff]
  refine ⟨fun hall x hx => (hleft x hx).1 (hall x (hw.within h hr hx)), fun hone x hx => ?_⟩
  obtain ⟨y, hy, rfl | rfl⟩ := hw.exists_within h hr hx
  · exact (hleft x hy).2 (hone x hy)
  · rcases hw.top_cases y with ⟨-, ht⟩ | ⟨name, -, -, -, ho, -⟩
    · rw [ht]
      exact (hleft y hy).2 (hone y hy)
    · rw [ho]
      exact if_neg fun hk => hk.2 rfl

/-- **What the second sweep leaves.** Every element below a node has been
wrapped for its first marker. There is no other marker left, and the sweep
has nothing to do a second time, if no element had a second one, and only
then. Without the wrappers the tree is the old one up to the order of
attributes if the markers that were moved had no values, and only then. -/
theorem WellFormed.wrapMarkedBelow_leaves (h : t.WellFormed) (hr : r < t.size) :
    MarkersWrapped r t (t.wrapMarkedBelow r).2
      ∧ (AllWrapped (t.wrapMarkedBelow r).2 r ↔ OneMarkerEach t r)
      ∧ (((t.wrapMarkedBelow r).2.wrapMarkedBelow r).2 = (t.wrapMarkedBelow r).2
        ↔ OneMarkerEach t r)
      ∧ (SameUpToOrder t ((t.wrapMarkedBelow r).2.unwrap t.size) ↔ BareMarkers t r) := by
  have hmem := fun x => h.mem_descendants_iff hr (x := x)
  obtain ⟨top, hw⟩ := h.exists_wrapped (h.nodup_descendants r)
    (fun i hi => h.lt_of_within hr ((hmem i).1 hi)) []
  have hall := hw.allWrapped_iff h hr hmem
  have hm := h.markersWrapped_wrapMarkedBelow hr
  exact ⟨hm, hall, (hm.wellFormed.wrapMarkedBelow_eq_self_iff
    (Nat.lt_of_lt_of_le hr hm.size_le)).trans hall, hm.sameUpToOrder_iff h⟩

/-- Marked elements in each other, one of them in a `template`. -/
theorem wrapMarkedBelow_leaves_nested :
    let t := (readFragment
      "<panel><div id=a #h><i><b #x></b></i></div><template #y><p #z></p></template></panel>").tree
    let t' := (t.wrapMarkedBelow 0).2
    t.WellFormed ∧ 0 < t.size ∧ MarkersWrapped 0 t t' ∧ AllWrapped t' 0
      ∧ (t'.wrapMarkedBelow 0).2 = t' ∧ SameUpToOrder t (t'.unwrap t.size)
      ∧ t'.size = t.size + 3 ∧ (t'.unwrap t.size).attrs 3 = [⟨"id", "a"⟩, ⟨"#h", ""⟩] := by
  intro t t'
  have hok : (readFragment
      "<panel><div id=a #h><i><b #x></b></i></div><template #y><p #z></p></template></panel>").nodes
        = .ok [2] := by decide +kernel
  obtain ⟨hwf, hsize, -⟩ := readFragment_of_ok hok
  have hmem := fun x (hx : t.Within 0 x) => (hwf.mem_descendants_iff hsize).2 hx
  have hone : OneMarkerEach t 0 := fun x hx => by
    have hall : ∀ x ∈ t.descendants 0, t.isElement x = true → t.tag x ≠ wrapperTag →
        (t.own x).markers.length ≤ 1 := by decide +kernel
    exact hall x (hmem x hx)
  have hbare : BareMarkers t 0 := fun x hx => by
    have hall : ∀ x ∈ t.descendants 0, ∀ name ∈ (t.own x).movedMarker?,
        t.attr? x name = some "" := by decide +kernel
    exact hall x (hmem x hx)
  obtain ⟨hm, hall, hagain, hsame⟩ := hwf.wrapMarkedBelow_leaves hsize
  have hgiven : t'.size = t.size + 3
      ∧ (t'.unwrap t.size).attrs 3 = [⟨"id", "a"⟩, ⟨"#h", ""⟩] := by decide +kernel
  exact ⟨hwf, hsize, hm, hall.2 hone, hagain.2 hone, hsame.2 hbare, hgiven⟩

/-- **An element with two markers keeps one** and is wrapped again the next
time, and a marker with a value comes back without it. -/
theorem exists_not_allWrapped :
    let t := (readFragment "<p #a #b></p><i #c=v></i>").tree
    let t' := (t.wrapMarkedBelow 0).2
    t.WellFormed ∧ 0 < t.size
      ∧ (t'.Within 0 2 ∧ t'.isElement 2 = true ∧ t'.tag 2 = "p" ∧ t'.marker? 2 = some "#b")
      ∧ (t'.wrapMarkedBelow 0).2.size = t'.size + 1
      ∧ t.attrs 3 = [⟨"#c", "v"⟩] ∧ (t'.unwrap t.size).attrs 3 = [⟨"#c", ""⟩] := by
  intro t t'
  have hok : (readFragment "<p #a #b></p><i #c=v></i>").nodes = .ok [2, 3] := by decide +kernel
  obtain ⟨hwf, hsize, -⟩ := readFragment_of_ok hok
  have hleft : t'.isElement 2 = true ∧ t'.tag 2 = "p" ∧ t'.marker? 2 = some "#b" := by
    decide +kernel
  have hwithin : t'.Within 0 2 :=
    (Within.refl.child (show 4 ∈ t'.children 0 by decide +kernel)).child
      (show 2 ∈ t'.children 4 by decide +kernel)
  have hagain : (t'.wrapMarkedBelow 0).2.size = t'.size + 1 := by decide +kernel
  have hvalue : t.attrs 3 = [⟨"#c", "v"⟩] ∧ (t'.unwrap t.size).attrs 3 = [⟨"#c", ""⟩] := by
    decide +kernel
  exact ⟨hwf, hsize, ⟨hwithin, hleft⟩, hagain, hvalue⟩

end Tree

end PageSlots.Markup
