import PageSlots.Component.Rule
import PageSlots.Slot.Marker

/-!
# The slots of a component

The direct children of a component that carry a slot marker fill its
slots. Before attributes are promoted, old slot names are replaced and of
several children for one slot only the first is kept; afterwards flags
are set according to which slots and attributes are there.
-/

namespace PageSlots.Markup.Tree

open PageSlots.Component

/-- **The child that fills a slot**, marked in either notation. -/
def findSlot (t : Tree) (id : NodeId) (slot : String) : Option NodeId :=
  (t.children id).find? fun child => t.slotName child = some slot

/-- Rename the slot of one child of a component, and tell of it. -/
def renameSlot (id : NodeId) (renames : List Rename) (step : Log × Tree) (child : NodeId) :
    Log × Tree :=
  let (log, t) := step
  match (t.slotName child).bind fun slot => renames.find? (·.source = slot) with
  | none => (log, t)
  | some rename =>
    (log ++ [⟨.debug, .components, "renaming deprecated slot",
      [("tag", .shown (t.tag id)), ("from", .text rename.source), ("to", .text rename.target)]⟩],
      t.setSlotName child rename.target)

/-- **Replace the old slot names on the children of a component.** -/
def renameSlots (t : Tree) (id : NodeId) (renames : List Rename) : Log × Tree :=
  (t.children id).foldl (renameSlot id renames) ([], t)

/-- What is known while the children of a component are looked through for
slots that are filled twice. -/
structure Dedupe where
  /-- The slots that have been filled. -/
  seen : List String
  /-- What there is to tell. -/
  log : Log
  /-- The tree. -/
  tree : Tree

/-- Look at one child, and drop it if its slot is filled. -/
def Dedupe.visit (id : NodeId) (d : Dedupe) (child : NodeId) : Dedupe :=
  match d.tree.slotName child with
  | none => d
  | some slot =>
    if d.seen.contains slot then
      { d with
        log := d.log ++ [⟨.debug, .components, "dropping duplicate slot content",
          [("tag", .shown (d.tree.tag id)), ("slot", .shown slot)]⟩]
        tree := d.tree.detach child }
    else { d with seen := slot :: d.seen }

/-- **Keep only the first child of a component for each slot.** -/
def dedupeSlots (t : Tree) (id : NodeId) : Log × Tree :=
  let d := (t.children id).foldl (Dedupe.visit id) ⟨[], [], t⟩
  (d.log, d.tree)

/-- Set the flag of one fixup, if it applies. -/
def applyFixup (t : Tree) (id : NodeId) : Fixup → Tree
  | .flagIfAttr attr flag => if t.hasAttr id attr then t.setAttr id flag "" else t
  | .flagUnless slot attr flag =>
    if (t.findSlot id slot).isNone && !t.hasAttr id attr then t.setAttr id flag "" else t

/-- **Set the flags of a component**, one fixup after the other. -/
def applyFixups (t : Tree) (id : NodeId) (fixups : List Fixup) : Tree :=
  fixups.foldl (fun t fixup => t.applyFixup id fixup) t

end PageSlots.Markup.Tree
