import PageSlots.Proofs.Page.Labels
import PageSlots.Proofs.Page.Simulation

/-!
# Trees that are reached

A tree is well formed when it is empty, and every operation keeps it so:
the edits of single nodes and of the shape, reading markup, the edits of
markers and slots, and both passes over a page, whether they return or
fail half way. So every tree is well formed that is reached by operations
from the empty one (`wellFormed_of_reached`).

Only an insertion can go wrong: a node that is put below itself would be
its own ancestor. An operation is `Allowed` if it names nodes of the tree
and inserts none of them below itself.
-/

namespace PageSlots.Markup.Tree

open PageSlots.Component PageSlots.Page PageSlots.Slot

variable {t : Tree} {id x : NodeId}

/-! ## Markers -/

theorem WellFormed.migrateMarker (h : t.WellFormed) (hid : id < t.size) :
    (t.migrateMarker id).2.WellFormed :=
  h.recast (recast_migrateMarker hid) (Own.nodup_names_migrate (h.nodup_names id))

/-- Wrapping a marked node keeps the tree well formed, and no node goes. -/
theorem WellFormed.wrapMarked (h : t.WellFormed) (hid : id < t.size) :
    (t.wrapMarked id).2.WellFormed ∧ t.size ≤ (t.wrapMarked id).2.size := by
  unfold Tree.wrapMarked
  split
  · split
    · exact ⟨h, Nat.le_refl _⟩
    · rename_i name _
      have hr := recast_removeAttr hid name
      have hwf := h.recast hr (Own.nodup_names_removeAttr name (h.nodup_names id))
      refine ⟨hwf.wrap (hr.size_eq ▸ hid) _ (List.nodup_singleton name), ?_⟩
      dsimp only
      rw [size_wrap, hr.size_eq]
      exact Nat.le_succ _
  · exact ⟨h, Nat.le_refl _⟩

/-- A node that a walk lists is in the pool. -/
theorem WellFormed.lt_of_mem_descendants (h : t.WellFormed) (hid : id < t.size)
    (hx : x ∈ t.descendants id) : x < t.size := by
  obtain ⟨i, hi, hw⟩ := exists_within_of_mem_walk hx
  rw [List.mem_singleton.1 hi] at hw
  exact h.lt_of_within hid hw

theorem WellFormed.migrateMarkersBelow (h : t.WellFormed) (hid : id < t.size) :
    (t.migrateMarkersBelow id).WellFormed := by
  have hfold : ∀ (ids : List NodeId) (t : Tree), t.WellFormed → (∀ i ∈ ids, i < t.size) →
      (ids.foldl (fun t id => (t.migrateMarker id).2) t).WellFormed := by
    intro ids
    induction ids with
    | nil => exact fun t h _ => h
    | cons i ids ih =>
      intro t h hids
      have hi := hids i List.mem_cons_self
      refine ih _ (h.migrateMarker hi) fun k hk => ?_
      rw [(recast_migrateMarker hi).size_eq]
      exact hids k (List.mem_cons_of_mem i hk)
  exact hfold _ t h fun i hi => h.lt_of_mem_descendants hid hi

theorem WellFormed.wrapMarkedBelow (h : t.WellFormed) (hid : id < t.size) :
    (t.wrapMarkedBelow id).2.WellFormed := by
  have hfold : ∀ (ids : List NodeId) (step : Log × Tree), step.2.WellFormed →
      (∀ i ∈ ids, i < step.2.size) → (ids.foldl wrapMarkedTold step).2.WellFormed := by
    intro ids
    induction ids with
    | nil => exact fun step h _ => h
    | cons i ids ih =>
      intro step h hids
      have htold : (wrapMarkedTold step i).2 = (step.2.wrapMarked i).2 := by
        unfold wrapMarkedTold
        split <;> (rename_i he; rw [he])
      obtain ⟨hwf, hle⟩ := h.wrapMarked (hids i List.mem_cons_self)
      refine ih _ (htold ▸ hwf) fun k hk => ?_
      rw [htold]
      exact Nat.lt_of_lt_of_le (hids k (List.mem_cons_of_mem i hk)) hle
  exact hfold _ ([], t) h fun i hi => h.lt_of_mem_descendants hid hi

end PageSlots.Markup.Tree

namespace PageSlots.Page

open PageSlots.Component PageSlots.Markup PageSlots.Markup.Tree PageSlots.Slot

/-! ## Operations -/

/-- **What can be done to a tree.** -/
inductive Operation where
  /-- Create a document root. -/
  | createDocument
  /-- Create an element. -/
  | createElement (tag : String)
  /-- Create a text. -/
  | createText (text : String)
  /-- Create a comment. -/
  | createComment (text : String)
  /-- Give an element another tag. -/
  | setTag (id : NodeId) (tag : String)
  /-- Replace character data. -/
  | setText (id : NodeId) (text : String)
  /-- Append to character data. -/
  | pushText (id : NodeId) (text : String)
  /-- Set an attribute. -/
  | setAttr (id : NodeId) (name value : String)
  /-- Remove an attribute. -/
  | removeAttr (id : NodeId) (name : String)
  /-- Rename an attribute. -/
  | renameAttr (id : NodeId) (src dst : String)
  /-- Insert a node among the children of another. -/
  | insertChild (parent id : NodeId) (index : Nat)
  /-- Insert a node after the children of another. -/
  | appendChild (parent id : NodeId)
  /-- Insert nodes before the children of another. -/
  | prependChildren (parent : NodeId) (ids : List NodeId)
  /-- Replace the children of a node. -/
  | replaceChildren (parent : NodeId) (ids : List NodeId)
  /-- Detach a node. -/
  | detach (id : NodeId)
  /-- Wrap a node. -/
  | wrap (id : NodeId) (tag : String) (attrs : List Attribute)
  /-- Read markup into a node. -/
  | readInto (parent : NodeId) (markup : String)
  /-- Replace the older marker of a node. -/
  | migrateMarker (id : NodeId)
  /-- Move the shorthand marker of a node onto a wrapper. -/
  | wrapMarked (id : NodeId)
  /-- Replace the older markers below a node. -/
  | migrateMarkersBelow (id : NodeId)
  /-- Wrap the marked elements below a node. -/
  | wrapMarkedBelow (id : NodeId)
  /-- Replace the old slot names on the children of a component. -/
  | renameSlots (id : NodeId) (renames : List Rename)
  /-- Keep one child of a component for each slot. -/
  | dedupeSlots (id : NodeId)
  /-- Set the flags of a component. -/
  | applyFixups (id : NodeId) (fixups : List Fixup)
  /-- Run the first pass over a node, in a context and after calls of the
  renderer. -/
  | resolve (p : Processor) (context : Context) (calls : List RenderCall) (id : NodeId)
  /-- Run the second pass over a node. -/
  | deriveIds (p : Processor) (id : NodeId)

namespace Operation

/-- **The tree after an operation.** -/
def apply (t : Tree) : Operation → Tree
  | createDocument => t.createDocument.2
  | createElement tag => (t.createElement tag).2
  | createText text => (t.createText text).2
  | createComment text => (t.createComment text).2
  | setTag id tag => t.setTag id tag
  | setText id text => t.setText id text
  | pushText id text => t.pushText id text
  | setAttr id name value => t.setAttr id name value
  | removeAttr id name => (t.removeAttr id name).2
  | renameAttr id src dst => (t.renameAttr id src dst).2
  | insertChild parent id index => t.insertChild parent id index
  | appendChild parent id => t.appendChild parent id
  | prependChildren parent ids => t.prependChildren parent ids
  | replaceChildren parent ids => t.replaceChildren parent ids
  | detach id => t.detach id
  | wrap id tag attrs => (t.wrap id tag attrs).2
  | readInto parent markup => (t.readInto parent markup).tree
  | migrateMarker id => (t.migrateMarker id).2
  | wrapMarked id => (t.wrapMarked id).2
  | migrateMarkersBelow id => t.migrateMarkersBelow id
  | wrapMarkedBelow id => (t.wrapMarkedBelow id).2
  | renameSlots id renames => (t.renameSlots id renames).2
  | dedupeSlots id => (t.dedupeSlots id).2
  | applyFixups id fixups => t.applyFixups id fixups
  | resolve p context calls id => treeAfter (p.resolve id { tree := t, context, calls })
  | deriveIds p id => (p.deriveIds t id).2

/-- Whether a node can be put under another: both are there, and the other
does not stand below it. -/
def CanHold (t : Tree) (parent id : NodeId) : Prop :=
  parent < t.size ∧ id < t.size ∧ ¬ t.Within id parent

/-- **Whether an operation is allowed**: the nodes it names are there, none
is put below itself, and a wrapper has distinct names. -/
def Allowed (t : Tree) : Operation → Prop
  | createDocument | createElement _ | createText _ | createComment _ => True
  | setTag id _ | setText id _ | pushText id _ | setAttr id _ _ | removeAttr id _
  | renameAttr id _ _ | detach id | migrateMarker id | wrapMarked id | migrateMarkersBelow id
  | wrapMarkedBelow id | renameSlots id _ | dedupeSlots id | applyFixups id _
  | resolve _ _ _ id | deriveIds _ id | readInto id _ => id < t.size
  | insertChild parent id _ | appendChild parent id => CanHold t parent id
  | prependChildren parent ids | replaceChildren parent ids =>
    parent < t.size ∧ ∀ id ∈ ids, CanHold t parent id
  | wrap id _ attrs => id < t.size ∧ (attributeNames attrs).Nodup

variable {t : Tree} {op : Operation}

/-- **An operation that is allowed keeps a tree well formed.** -/
theorem wellFormed_apply (h : t.WellFormed) (ha : op.Allowed t) : (op.apply t).WellFormed := by
  cases op with
  | createDocument => exact (adds_createDocument t).wellFormed h List.nodup_nil
  | createElement tag => exact (adds_createElement t tag).wellFormed h List.nodup_nil
  | createText text => exact (adds_createText t text).wellFormed h List.nodup_nil
  | createComment text => exact (adds_createComment t text).wellFormed h List.nodup_nil
  | setTag id tag => exact h.recast (recast_setTag ha tag) (h.nodup_names id)
  | setText id text => exact h.recast (recast_setText ha text) (h.nodup_names id)
  | pushText id text => exact h.recast (recast_pushText ha text) (h.nodup_names id)
  | setAttr id name value =>
    exact h.recast (recast_setAttr ha name value)
      (Own.nodup_names_setAttr name value (h.nodup_names id))
  | removeAttr id name =>
    exact h.recast (recast_removeAttr ha name) (Own.nodup_names_removeAttr name (h.nodup_names id))
  | renameAttr id src dst =>
    exact h.recast (recast_renameAttr ha src dst)
      (Own.nodup_names_renameAttr src dst (h.nodup_names id))
  | insertChild parent id index => exact h.insertChild ha.1 ha.2.1 ha.2.2 index
  | appendChild parent id => exact h.appendChild ha.1 ha.2.1 ha.2.2
  | prependChildren parent ids => exact h.insertFrom ha.1 0 fun id hid => (ha.2 id hid).2
  | replaceChildren parent ids => exact h.replaceChildren ha.1 fun id hid => (ha.2 id hid).2
  | detach id => exact h.detach id
  | wrap id tag attrs => exact h.wrap ha.1 tag ha.2
  | readInto parent markup =>
    cases hp : (Content.parse markup).1 with
    | ok cs =>
      obtain ⟨ids, -, hr⟩ := h.readInto_of_ok ha hp
      exact hr.wellFormed
    | error fault => exact (h.readInto_of_error parent hp).2.1
  | migrateMarker id => exact h.migrateMarker ha
  | wrapMarked id => exact (h.wrapMarked ha).1
  | migrateMarkersBelow id => exact h.migrateMarkersBelow ha
  | wrapMarkedBelow id => exact h.wrapMarkedBelow ha
  | renameSlots id renames =>
    exact h.recastAll (recastAll_renameSlots h id renames).1 fun _ =>
      Own.nodup_names_renameSlot renames
  | dedupeSlots id => exact (drops_dedupeSlots h id).1.wellFormed
  | applyFixups id fixups =>
    exact h.recast (recast_applyFixups h ha fixups)
      (Own.nodup_names_applyFixups _ fixups (h.nodup_names id))
  | resolve p context calls id => exact wellFormed_resolve p { tree := t, context, calls } h ha
  | deriveIds p id => exact (p.labels_deriveIds t id).wellFormed h

end Operation

/-- **The trees that are reached** from the empty one. -/
inductive Reached : Tree → Prop where
  /-- At first there is no node. -/
  | empty : Reached Tree.empty
  /-- An operation that is allowed leads on. -/
  | step {t : Tree} (op : Operation) : Reached t → op.Allowed t → Reached (op.apply t)

/-- **Every tree that is reached is well formed.** -/
theorem wellFormed_of_reached {t : Tree} (h : Reached t) : t.WellFormed := by
  induction h with
  | empty => exact wellFormed_empty
  | step op _ ha ih => exact Operation.wellFormed_apply ih ha

/-- A pass over a document that fails at its first region. -/
theorem wellFormed_of_reached_failing :
    let p : Processor := { renderer := .ofFunction fun _ => .error { reason := "no markdown" } }
    let t := (Operation.readInto 0 "<p slot=\"a\"></p><md>x</md>").apply
      (Operation.createDocument.apply Tree.empty)
    ((Operation.resolve p { file := "page.md" } [] 0).apply t).WellFormed := by
  intro p t
  have h₀ : (0 : NodeId) < (Operation.createDocument.apply Tree.empty).size := by decide
  have h₁ : (0 : NodeId) < t.size := by decide +kernel
  exact wellFormed_of_reached (.step _ (.step _ (.step _ .empty trivial) h₀) h₁)

end PageSlots.Page
