import Mathlib.Data.List.Induction
import PageSlots.Proofs.Content.Walk
import PageSlots.Proofs.Slot.Children

/-!
# Two sweeps over a subtree

The markers below a node can be normalized without a visit of each
parent: one sweep migrates every older marker, and a second one wraps
every marked element. Each sweep lists the nodes before it starts. The
first one leaves the shape of the tree, so it is an edit of own data at the
listed nodes. The second one puts new nodes between the listed ones while
it goes, and a node that it comes to may already stand under a wrapper
that was not there when the list was made.

What helps is that the order does not matter. `Wrapped done top t t'` says
what a tree is like when the nodes in `done` have been taken: these have
lost the markers that wrapping takes off, and in every child list a node
has given way to `top` of it, which is the node or its wrapper. One more
node is one more in `done` (`Wrapped.step`). When all nodes below a node
are done, the place of the node shows `Content.wrapped`, and after both
sweeps it shows `Content.swept`: everything normalized from the bottom up.
-/

namespace PageSlots.Markup

open PageSlots.Slot

/-! ## Own data -/

namespace Own

variable {o : Own} {name : String}

/-- The marker that wrapping takes off a node. -/
def movedMarker? (o : Own) : Option String :=
  if o.kind = .element ∧ o.tag ≠ wrapperTag then o.marker? else none

/-- A node without the marker that wrapping takes off. -/
def withoutMarker (o : Own) : Own :=
  match o.movedMarker? with
  | none => o
  | some name => o.removeAttr name

theorem withoutMarker_of_none (h : o.movedMarker? = none) : o.withoutMarker = o := by
  rw [withoutMarker, h]

theorem withoutMarker_of_some (h : o.movedMarker? = some name) :
    o.withoutMarker = o.removeAttr name := by
  rw [withoutMarker, h]

/-- Only an element that is no `template` loses a marker. -/
theorem movedMarker?_eq_some_iff :
    o.movedMarker? = some name
      ↔ (o.kind = .element ∧ o.tag ≠ wrapperTag) ∧ o.marker? = some name := by
  simp [movedMarker?]

end Own

/-! ## Contents -/

namespace Content

variable {o : Own} {cs : List Content} {name : String}

theorem wrapMarked_node_of_none (h : o.movedMarker? = none) :
    (node o cs).wrapMarked = node o cs := by
  rw [wrapMarked, own_node]
  rw [Own.movedMarker?] at h
  split
  · rename_i hk
    rw [if_pos hk] at h
    rw [h]
  · rfl

theorem wrapMarked_node_of_some (h : o.movedMarker? = some name) :
    (node o cs).wrapMarked = node (Own.wrapper name) [node (o.removeAttr name) cs] := by
  obtain ⟨hk, hm⟩ := Own.movedMarker?_eq_some_iff.1 h
  rw [wrapMarked, own_node, if_pos hk, hm]
  rfl

theorem normalize_node (o : Own) (cs : List Content) :
    (node o cs).normalize = (node o.migrate cs).wrapMarked := rfl

/-- The own data of every node changed. -/
def mapAll (f : Own → Own) : Content → Content
  | node o cs => node (f o) (cs.map (mapAll f))

theorem mapAll_node (f : Own → Own) (o : Own) (cs : List Content) :
    (node o cs).mapAll f = node (f o) (cs.map (mapAll f)) := by
  rw [mapAll]

/-- **Every marked element wrapped.** -/
def wrapped : Content → Content
  | node o cs => (node o (cs.map wrapped)).wrapMarked

theorem wrapped_node (o : Own) (cs : List Content) :
    (node o cs).wrapped = (node o (cs.map wrapped)).wrapMarked := by
  rw [wrapped]

/-- **Every marker given its place on a `template`**, from the bottom
up. -/
def swept : Content → Content
  | node o cs => (node o (cs.map swept)).normalize

theorem swept_node (o : Own) (cs : List Content) :
    (node o cs).swept = (node o (cs.map swept)).normalize := by
  rw [swept]

/-- Migrating everywhere and then wrapping everywhere is sweeping. -/
theorem wrapped_mapAll_migrate (c : Content) : (c.mapAll Own.migrate).wrapped = c.swept := by
  induction c with
  | node o cs ih =>
    have hcs : (cs.map (mapAll Own.migrate)).map wrapped = cs.map swept := by
      rw [List.map_map]
      exact List.map_congr_left ih
    rw [mapAll_node, wrapped_node, hcs, swept_node, normalize_node]

end Content

namespace Tree

variable {t t' : Tree} {id x : NodeId} {c : Content} {name : String} {ids done : List NodeId}
variable {f : Own → Own}

/-! ## The first sweep -/

/-- **An edit of all nodes below one** changes the own data everywhere in
what it shows. -/
theorem RecastAll.shows_mapAll (h : RecastAll ids f t t') (hc : t.Shows id c)
    (hall : ∀ x, t.Within id x → x ∈ ids) : t'.Shows id (c.mapAll f) := by
  induction c generalizing id with
  | node o cs ih =>
    obtain ⟨rfl, hcs⟩ := shows_node.1 hc
    rw [Content.mapAll_node]
    refine shows_node.2 ⟨by rw [h.own_eq, if_pos (hall id .refl)], ?_⟩
    rw [h.children_eq, List.forall₂_map_right_iff]
    refine List.forall₂_iff_zip.2 ⟨hcs.length_eq, fun {i d} hi => ?_⟩
    obtain ⟨him, hd⟩ := List.of_mem_zip hi
    exact ih d hd (List.forall₂_zip hcs hi) fun x hx => hall x ((Within.refl.child him).trans hx)

/-- Migrating listed nodes one after the other. -/
theorem recastAll_foldl_migrateMarker :
    ∀ {ids : List NodeId} (t : Tree), ids.Nodup → (∀ i ∈ ids, i < t.size) →
      RecastAll ids Own.migrate t (ids.foldl (fun t id => (t.migrateMarker id).2) t) := by
  intro ids
  induction ids with
  | nil => exact fun t _ _ => RecastAll.nil Own.migrate t
  | cons i ids ih =>
    intro t hnd hsize
    obtain ⟨hi, hids⟩ := List.nodup_cons.1 hnd
    have hr := recast_migrateMarker (hsize i List.mem_cons_self)
    refine RecastAll.cons hr (ih _ hids fun k hk => ?_) hi
    rw [hr.size_eq]
    exact hsize k (List.mem_cons_of_mem i hk)

/-- **The first sweep** migrates the nodes below its own. -/
theorem WellFormed.recastAll_migrateMarkersBelow (h : t.WellFormed) (hid : id < t.size) :
    RecastAll (t.descendants id) Own.migrate t (t.migrateMarkersBelow id) :=
  recastAll_foldl_migrateMarker t (h.nodup_descendants id) fun _ hi =>
    h.lt_of_within hid ((h.mem_descendants_iff hid).1 hi)

/-! ## Wrapping a node -/

theorem wrapMarked_of_none (h : (t.own id).movedMarker? = none) : (t.wrapMarked id).2 = t := by
  unfold wrapMarked
  split
  · rename_i hk
    rw [Bool.and_eq_true, isElement_iff, tag_eq_own, bne_iff_ne] at hk
    rw [Own.movedMarker?, if_pos hk] at h
    rw [marker?_eq_own, h]
  · rfl

theorem wrapMarked_of_some (h : (t.own id).movedMarker? = some name) :
    (t.wrapMarked id).2 = ((t.removeAttr id name).2.wrap id wrapperTag [⟨name, ""⟩]).2 := by
  obtain ⟨hk, hm⟩ := Own.movedMarker?_eq_some_iff.1 h
  unfold wrapMarked
  rw [if_pos (by rwa [Bool.and_eq_true, isElement_iff, tag_eq_own, bne_iff_ne]), marker?_eq_own, hm]

theorem snd_wrapMarkedTold (step : Log × Tree) (id : NodeId) :
    (wrapMarkedTold step id).2 = (step.2.wrapMarked id).2 := by
  unfold wrapMarkedTold
  split <;> (rename_i he; rw [he])

/-! ## The second sweep -/

/-- **Some nodes of a tree have been taken by the second sweep**, and `top`
of a node is what now stands in its place. -/
structure Wrapped (done : List NodeId) (top : NodeId → NodeId) (t t' : Tree) : Prop where
  /-- The tree is well formed. -/
  wellFormed : t'.WellFormed
  /-- No node goes. -/
  size_le : t.size ≤ t'.size
  /-- The nodes that are done have lost a marker. -/
  own_eq : ∀ x < t.size, t'.own x = if x ∈ done then (t.own x).withoutMarker else t.own x
  /-- In a child list each node has given way to what stands in its place. -/
  children_eq : ∀ x < t.size, t'.children x = (t.children x).map top
  /-- That is the node itself if it is not done, or has had no marker. -/
  top_eq : ∀ x, (x ∈ done → (t.own x).movedMarker? = none) → top x = x
  /-- Otherwise it is a new node, the wrapper of the node. -/
  wrapper : ∀ x ∈ done, ∀ name, (t.own x).movedMarker? = some name →
    t.size ≤ top x ∧ t'.own (top x) = Own.wrapper name ∧ t'.children (top x) = [x]
  /-- There is no other new node. -/
  new_eq : ∀ w, t.size ≤ w → w < t'.size →
    ∃ x ∈ done, (t.own x).movedMarker? ≠ none ∧ top x = w

namespace Wrapped

variable {top : NodeId → NodeId} {i : NodeId}

theorem nil (h : t.WellFormed) : Wrapped [] (fun x => x) t t where
  wellFormed := h
  size_le := Nat.le_refl _
  own_eq _ _ := (if_neg List.not_mem_nil).symm
  children_eq _ _ := (List.map_id' _).symm
  top_eq _ _ := rfl
  wrapper _ hx := absurd hx List.not_mem_nil
  new_eq _ hle hlt := absurd hlt (Nat.not_lt_of_le hle)

/-- Only a node itself stands in its place, or a wrapper. -/
theorem top_ne (h : Wrapped done top t t') (hi : i < t.size) (hx : x ≠ i) : top x ≠ i := by
  by_cases hm : x ∈ done → (t.own x).movedMarker? = none
  · rwa [h.top_eq x hm]
  · obtain ⟨hx, hne⟩ := Classical.not_imp.1 hm
    obtain ⟨name, hname⟩ := Option.ne_none_iff_exists'.1 hne
    exact Nat.ne_of_gt (Nat.lt_of_lt_of_le hi (h.wrapper x hx name hname).1)

/-- A node without a marker is left. -/
theorem step_of_none (h : Wrapped done top t t') (hi : i ∉ done)
    (hnone : (t.own i).movedMarker? = none) : Wrapped (done ++ [i]) top t t' where
  wellFormed := h.wellFormed
  size_le := h.size_le
  own_eq x hx := by
    rw [h.own_eq x hx]
    by_cases hxi : x = i
    · rw [hxi, if_neg hi, if_pos (by simp), Own.withoutMarker_of_none hnone]
    · simp [hxi]
  children_eq := h.children_eq
  top_eq x hx := h.top_eq x fun hm => hx (List.mem_append_left [i] hm)
  wrapper x hx name hname := by
    rcases List.mem_append.1 hx with hx | hx
    · exact h.wrapper x hx name hname
    · rw [List.mem_singleton.1 hx, hnone] at hname
      cases hname
  new_eq w hle hlt := by
    obtain ⟨x, hx, hw⟩ := h.new_eq w hle hlt
    exact ⟨x, List.mem_append_left [i] hx, hw⟩

/-- **A node with a marker** loses it and gives way to a new wrapper. -/
theorem step_of_some (h : Wrapped done top t t') (hi : i < t.size) (hid : i ∉ done)
    (hsome : (t.own i).movedMarker? = some name) :
    Wrapped (done ++ [i]) (fun x => if x = i then t'.size else top x) t
      ((t'.removeAttr i name).2.wrap i wrapperTag [⟨name, ""⟩]).2 := by
  have hi' : i < t'.size := Nat.lt_of_lt_of_le hi h.size_le
  have hr := recast_removeAttr hi' name
  have hwf := h.wellFormed.recast hr
    (Own.nodup_names_removeAttr name (h.wellFormed.nodup_names i))
  have hnd : (attributeNames [⟨name, ""⟩]).Nodup := Own.nodup_names_wrapper name
  have hir : i < (t'.removeAttr i name).2.size := hr.size_eq ▸ hi'
  have hown := own_wrap (t'.removeAttr i name).2 i wrapperTag [⟨name, ""⟩]
  have hch := children_wrap hwf hir wrapperTag hnd
  rw [hr.size_eq] at hown hch
  have hold : ∀ x < t.size, x ≠ t'.size := fun x hx =>
    Nat.ne_of_lt (Nat.lt_of_lt_of_le hx h.size_le)
  refine {
    wellFormed := hwf.wrap hir wrapperTag hnd
    size_le := by
      rw [size_wrap, hr.size_eq]
      exact Nat.le_succ_of_le h.size_le
    own_eq := fun x hx => ?_
    children_eq := fun x hx => ?_
    top_eq := fun x hx => ?_
    wrapper := fun x hx name' hname' => ?_
    new_eq := fun w hle hlt => ?_ }
  · rw [hown, if_neg (hold x hx)]
    by_cases hxi : x = i
    · rw [hxi, hr.own_self, h.own_eq i hi, if_neg hid, if_pos (by simp),
        Own.withoutMarker_of_some hsome]
    · rw [hr.own_ne hxi, h.own_eq x hx]
      simp [hxi]
  · rw [hch, if_neg (hold x hx), hr.children_eq, h.children_eq x hx, List.map_map]
    refine List.map_congr_left fun y _ => ?_
    -- only the node itself gives way to the new wrapper
    by_cases hy : y = i
    · rw [if_pos hy, Function.comp_apply, hy, h.top_eq i fun hm => absurd hm hid, if_pos rfl]
    · rw [if_neg hy, Function.comp_apply, if_neg (h.top_ne hi hy)]
  · have hxi : x ≠ i := by
      rintro rfl
      rw [hx (by simp)] at hsome
      cases hsome
    rw [if_neg hxi]
    exact h.top_eq x fun hm => hx (List.mem_append_left [i] hm)
  · by_cases hxi : x = i
    · rw [hxi, hsome, Option.some.injEq] at hname'
      rw [if_pos hxi, hown, hch, if_pos rfl, if_pos rfl, hxi, ← hname']
      exact ⟨h.size_le, rfl, rfl⟩
    · rw [List.mem_append, List.mem_singleton, or_iff_left hxi] at hx
      obtain ⟨hle, ho, hc⟩ := h.wrapper x hx name' hname'
      have hlt : top x < t'.size := lt_of_mem_children (hc ▸ List.mem_singleton_self x)
      rw [if_neg hxi, hown, hch, if_neg (Nat.ne_of_lt hlt), if_neg (Nat.ne_of_lt hlt),
        hr.own_ne (h.top_ne hi hxi), hr.children_eq, hc, List.map_singleton, if_neg hxi]
      exact ⟨hle, ho, rfl⟩
  · rw [size_wrap, hr.size_eq, Nat.lt_succ_iff_lt_or_eq] at hlt
    rcases hlt with hlt | rfl
    · obtain ⟨x, hx, hm, rfl⟩ := h.new_eq w hle hlt
      refine ⟨x, List.mem_append_left [i] hx, hm, if_neg ?_⟩
      rintro rfl
      exact hid hx
    · exact ⟨i, by simp, hsome ▸ nofun, if_pos rfl⟩

/-- **One more node is taken.** -/
theorem step (h : Wrapped done top t t') (hi : i < t.size) (hid : i ∉ done) :
    ∃ top, Wrapped (done ++ [i]) top t (t'.wrapMarked i).2 := by
  have hown : t'.own i = t.own i := by rw [h.own_eq i hi, if_neg hid]
  cases hm : (t.own i).movedMarker? with
  | none =>
    rw [wrapMarked_of_none (hown ▸ hm)]
    exact ⟨top, h.step_of_none hid hm⟩
  | some name =>
    rw [wrapMarked_of_some (hown ▸ hm)]
    exact ⟨_, h.step_of_some hi hid hm⟩

/-- **Where everything below a node is done**, its place shows everything
wrapped. -/
theorem shows (h : Wrapped done top t t') (hwf : t.WellFormed) (hx : x < t.size)
    (hc : t.Shows x c) (hall : ∀ y, t.Within x y → y ∈ done) : t'.Shows (top x) c.wrapped := by
  induction c generalizing x with
  | node o cs ih =>
    obtain ⟨rfl, hcs⟩ := shows_node.1 hc
    have hxd := hall x .refl
    have hkids : List.Forall₂ t'.Shows (t'.children x) (cs.map Content.wrapped) := by
      rw [h.children_eq x hx, List.forall₂_map_left_iff, List.forall₂_map_right_iff]
      refine List.forall₂_iff_zip.2 ⟨hcs.length_eq, fun {i d} hi => ?_⟩
      obtain ⟨him, hd⟩ := List.of_mem_zip hi
      exact ih d hd (hwf.lt_of_mem him) (List.forall₂_zip hcs hi) fun y hy =>
        hall y ((Within.refl.child him).trans hy)
    have hself : t'.Shows x (.node (t.own x).withoutMarker (cs.map Content.wrapped)) :=
      shows_node.2 ⟨by rw [h.own_eq x hx, if_pos hxd], hkids⟩
    rw [Content.wrapped_node]
    cases hm : (t.own x).movedMarker? with
    | none =>
      rw [h.top_eq x fun _ => hm, Content.wrapMarked_node_of_none hm]
      rwa [Own.withoutMarker_of_none hm] at hself
    | some name =>
      obtain ⟨-, ho, hch⟩ := h.wrapper x hxd name hm
      rw [Own.withoutMarker_of_some hm] at hself
      rw [Content.wrapMarked_node_of_some hm]
      exact shows_node.2 ⟨ho, hch ▸ .cons hself .nil⟩

end Wrapped

/-- Taking listed nodes one after the other. -/
theorem WellFormed.exists_wrapped (h : t.WellFormed) (hnd : ids.Nodup)
    (hsize : ∀ i ∈ ids, i < t.size) (log : Log) :
    ∃ top, Wrapped ids top t (ids.foldl wrapMarkedTold (log, t)).2 := by
  induction ids using List.reverseRecOn with
  | nil => exact ⟨_, Wrapped.nil h⟩
  | append_singleton ids i ih =>
    obtain ⟨hids, -, hdis⟩ := List.nodup_append.1 hnd
    obtain ⟨top, hw⟩ := ih hids fun k hk => hsize k (List.mem_append_left [i] hk)
    rw [List.foldl_concat, snd_wrapMarkedTold]
    exact hw.step (hsize i (by simp)) fun hi => hdis i hi i List.mem_cons_self rfl

/-- **Both sweeps** leave everything below a node that keeps its place
swept. -/
theorem WellFormed.shows_swept (h : t.WellFormed) (hid : id < t.size) (hc : t.Shows id c)
    (hkind : (t.own id).kind ≠ .element) :
    ((t.migrateMarkersBelow id).wrapMarkedBelow id).2.WellFormed
      ∧ ((t.migrateMarkersBelow id).wrapMarkedBelow id).2.Shows id c.swept := by
  have hr := h.recastAll_migrateMarkersBelow hid
  have hwf := h.recastAll hr fun _ => Own.nodup_names_migrate
  have hid' : id < (t.migrateMarkersBelow id).size := hr.size_eq ▸ hid
  have hs := hr.shows_mapAll hc fun x hx => (h.mem_descendants_iff hid).2 hx
  obtain ⟨top, hw⟩ := hwf.exists_wrapped (hwf.nodup_descendants id)
    (fun i hi => hwf.lt_of_within hid' ((hwf.mem_descendants_iff hid').1 hi)) []
  have htop : top id = id := hw.top_eq id fun _ => by
    rw [hr.own_eq, if_pos ((h.mem_descendants_iff hid).2 .refl), Own.movedMarker?,
      if_neg fun hk => hkind ((Own.kind_migrate _).symm.trans hk.1)]
  have hshows := hw.shows hwf hid' hs fun y hy => (hwf.mem_descendants_iff hid').2 hy
  rw [htop, Content.wrapped_mapAll_migrate] at hshows
  exact ⟨hw.wellFormed, hshows⟩

end Tree

end PageSlots.Markup
