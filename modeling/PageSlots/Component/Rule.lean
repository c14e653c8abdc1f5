import PageSlots.Page.Context
import PageSlots.Page.Renderer

/-!
# Component rules

What a component's tag implies is written down as data. A `Rule` tells
which attributes are promoted to slots, which old slot names are renamed,
which flags the page template expects and where the component belongs.
Rules are looked up by tag in a table; the table of the known components
is `Rule.builtIn`.
-/

namespace PageSlots.Component

open PageSlots.Page

/-- **A promotion** of an attribute to a slot. -/
structure Promotion where
  /-- The attribute. It is taken off the component in any case. -/
  attr : String
  /-- The slot that its value fills, unless the slot is filled already. -/
  slot : String
  /-- How the value is rendered. -/
  content : RenderMode
  /-- What fills the slot if neither the attribute nor the slot is
  there. -/
  fallback : Option String := none
  deriving DecidableEq, Repr

/-- An old slot name and its replacement. -/
structure Rename where
  /-- The old name. -/
  source : String
  /-- The replacement. -/
  target : String
  deriving DecidableEq, Repr

/-- A flag, an attribute without a value, that is set after promotion. -/
inductive Fixup where
  /-- Set a flag if an attribute is there. -/
  | flagIfAttr (attr flag : String)
  /-- Set a flag if neither a slot nor an attribute is there. -/
  | flagUnless (slot attr flag : String)
  deriving DecidableEq, Repr

/-- **The rule of a component.** -/
structure Rule where
  /-- The tags to which the rule applies. -/
  tags : List String
  /-- The promotions, in the order in which they are tried. -/
  promotions : List Promotion := []
  /-- The slots that are renamed. -/
  renames : List Rename := []
  /-- The flags that are set. -/
  fixups : List Fixup := []
  /-- The containers in one of which the component belongs. If none is
  named, it belongs anywhere. -/
  containers : List String := []
  /-- The slot whose first heading gives the component its id. -/
  idFromSlot : Option String := none
  deriving DecidableEq, Repr

/-- Whether a component stands inside one of its containers. -/
def Rule.isPlaced (rule : Rule) (ctx : Context) : Bool :=
  rule.containers.isEmpty || rule.containers.any ctx.hasAncestor

/-- A table of rules. -/
abbrev RuleTable := List Rule

/-- **The rule for a tag**: the first one in the table that names it. -/
def RuleTable.find (table : RuleTable) (tag : String) : Option Rule :=
  List.find? (fun rule : Rule => rule.tags.contains tag) table

/-- **The rules of the known components.** -/
def builtIn : RuleTable := [
  { tags := ["panel"]
    promotions := [
      { attr := "alt", slot := "_alt", content := .block },
      { attr := "header", slot := "header", content := .block }]
    idFromSlot := some "header" },
  { tags := ["question"]
    promotions := [
      { attr := "header", slot := "header", content := .block },
      { attr := "hint", slot := "hint", content := .block },
      { attr := "answer", slot := "answer", content := .block }] },
  { tags := ["q-option"]
    promotions := [{ attr := "reason", slot := "reason", content := .block }]
    containers := ["question"] },
  { tags := ["quiz"]
    promotions := [
      { attr := "intro", slot := "intro", content := .block,
        fallback := some "Click start to begin" }] },
  { tags := ["popover"]
    promotions := [
      { attr := "header", slot := "header", content := .inline },
      { attr := "content", slot := "content", content := .inline }] },
  { tags := ["tooltip"]
    promotions := [{ attr := "content", slot := "content", content := .inline }] },
  { tags := ["modal"]
    promotions := [
      { attr := "header", slot := "header", content := .inline },
      { attr := "title", slot := "header", content := .inline }]
    renames := [⟨"modal-header", "header"⟩, ⟨"modal-footer", "footer"⟩]
    fixups := [.flagIfAttr "ok-text" "ok-only", .flagUnless "footer" "ok-text" "hide-footer"] },
  { tags := ["tab", "tab-disabled"]
    promotions := [{ attr := "header", slot := "header", content := .inline }]
    containers := ["tabs", "tab-group"] },
  { tags := ["tab-group"]
    promotions := [{ attr := "header", slot := "header", content := .inline }]
    containers := ["tabs"] },
  { tags := ["box"]
    promotions := [
      { attr := "icon", slot := "icon", content := .inline },
      { attr := "header", slot := "header", content := .block }] },
  { tags := ["dropdown"]
    promotions := [
      { attr := "header", slot := "header", content := .inline },
      { attr := "text", slot := "header", content := .inline }] }]

end PageSlots.Component
