import Mathlib.Algebra.BigOperators.Group.List.Basic
import PageSlots.Proofs.Page.NormalForm
import PageSlots.Proofs.Slot.Below

/-!
# How often the renderer can be called

The renderer is called for regions and for promoted attributes. An element
allows for a number of calls, its budget: one if it is a region, and one
for each promotion of its rule. The budget of a content is what its nodes
allow for together, and the first pass stays within it.

What makes this true is that the pass makes nothing that allows for
calls. A wrapper, an anchor and the element that a region becomes have no
rule, and what comes from the renderer is plain. So when a node has been
visited, within what the node itself allows for, the children together
have the budget that they had before (`spends_visit`), and the rest of the
pass goes on with that.

`Spends F k Q x` is the statement about a step: it makes at most `k`
calls, whatever comes out of it; it fails with faults in `F` only; and
what it returns has `Q`.
-/

namespace PageSlots.Markup

open PageSlots.Slot

namespace Content

variable {f : Own → Nat} {c : Content} {cs : List Content}

/-- A measure of nodes, summed up over contents. -/
def totals (f : Own → Nat) (cs : List Content) : Nat :=
  ((cs.flatMap inOrder).map f).sum

/-- A measure of nodes, summed up over a content. -/
def total (f : Own → Nat) (c : Content) : Nat :=
  (c.inOrder.map f).sum

theorem total_node (f : Own → Nat) (o : Own) (cs : List Content) :
    (node o cs).total f = f o + totals f cs := by
  rw [total, inOrder_node, List.map_cons, List.sum_cons, totals]

theorem total_eq (f : Own → Nat) (c : Content) : c.total f = f c.own + totals f c.children := by
  rw [← total_node, node_own_children]

@[simp] theorem totals_nil (f : Own → Nat) : totals f [] = 0 := rfl

@[simp] theorem totals_cons (f : Own → Nat) (c : Content) (cs : List Content) :
    totals f (c :: cs) = c.total f + totals f cs := by
  rw [totals, List.flatMap_cons, List.map_append, List.sum_append, total, totals]

theorem total_le_totals (hc : c ∈ cs) : c.total f ≤ totals f cs := by
  induction cs with
  | nil => cases hc
  | cons d cs ih =>
    rw [totals_cons]
    rcases List.mem_cons.1 hc with rfl | hc
    · exact Nat.le_add_right _ _
    · exact Nat.le_trans (ih hc) (Nat.le_add_left _ _)

theorem totals_eq_zero_iff : totals f cs = 0 ↔ ∀ c ∈ cs, c.total f = 0 := by
  induction cs with
  | nil => simp
  | cons d cs ih => simp [ih]

theorem totals_map_le {g : Content → Content} (h : ∀ c ∈ cs, (g c).total f ≤ c.total f) :
    totals f (cs.map g) ≤ totals f cs := by
  induction cs with
  | nil => exact Nat.le_refl _
  | cons c cs ih =>
    rw [List.map_cons, totals_cons, totals_cons]
    exact Nat.add_le_add (h c List.mem_cons_self) (ih fun d hd => h d (List.mem_cons_of_mem c hd))

theorem totals_le_of_sublist {ds : List Content} (h : ds.Sublist cs) :
    totals f ds ≤ totals f cs := by
  induction h with
  | slnil => exact Nat.le_refl _
  | cons c _ ih => exact Nat.le_trans ih (by rw [totals_cons]; exact Nat.le_add_left _ _)
  | cons_cons c _ ih =>
    rw [totals_cons, totals_cons]
    exact Nat.add_le_add_left ih _

theorem totals_perm {ds : List Content} (h : cs.Perm ds) : totals f cs = totals f ds :=
  ((h.flatMap_right _).map f).sum_eq

/-- **Normalizing adds nothing** to a measure, if migrating a node does not
and a wrapper weighs no more than its marker. -/
theorem total_normalize_le (hmigrate : ∀ o, f o.migrate ≤ f o)
    (hwrap : ∀ o name, o.movedMarker? = some name →
      f (Own.wrapper name) + f (o.removeAttr name) ≤ f o) (c : Content) :
    c.normalize.total f ≤ c.total f := by
  obtain ⟨o, cs⟩ := c
  have hm := hmigrate o
  rw [normalize_node, total_node]
  cases h : o.migrate.movedMarker? with
  | none =>
    rw [wrapMarked_node_of_none h, total_node]
    exact Nat.add_le_add_right hm _
  | some name =>
    have hw := hwrap _ _ h
    rw [wrapMarked_node_of_some h, total_node, totals_cons, totals_nil, total_node]
    omega

end Content

end PageSlots.Markup

namespace PageSlots.Page

open PageSlots.Component PageSlots.Markup PageSlots.Markup.Content PageSlots.Slot

/-! ## Budgets -/

/-- **How many calls a tag allows for**: one as a region, and one for each
promotion of its rule. -/
def tagBudget (table : RuleTable) (tag : String) : Nat :=
  (if (regionOf tag).isSome then 1 else 0)
    + ((table.find tag).elim 0 fun rule => rule.promotions.length)

/-- How many calls a node allows for. -/
def budget (table : RuleTable) (o : Own) : Nat :=
  if o.isElement then tagBudget table o.tag else 0

/-- **The tags that the pass makes have no rule**, and every rule promotes
something. -/
structure Frugal (table : RuleTable) : Prop where
  /-- The tag of wrappers has none. -/
  wrapper : table.find wrapperTag = none
  /-- The tag of anchors and inline regions has none. -/
  span : table.find "span" = none
  /-- The tag of block regions has none. -/
  div : table.find "div" = none
  /-- Every rule promotes something. -/
  promotes : ∀ rule ∈ table, rule.promotions ≠ []

/-- The table of the known components. -/
theorem frugal_builtIn : Frugal builtIn where
  wrapper := by decide
  span := by decide
  div := by decide
  promotes := by decide

/-- **A page is plain**: there is no region in it, and no element with a
rule. -/
def IsPlain (table : RuleTable) (t : Tree) : Prop :=
  ∀ x ∈ t.descendants 0, t.isElement x = true →
    (t.tag x ≠ "md" ∧ t.tag x ≠ "markdown") ∧ table.find (t.tag x) = none

instance (table : RuleTable) (t : Tree) : Decidable (IsPlain table t) :=
  inferInstanceAs (Decidable (∀ x ∈ t.descendants 0, _))

/-- **What a renderer answers is plain**, as far as it can be read. -/
def PlainRenderer (table : RuleTable) (renderer : Renderer) : Prop :=
  ∀ n call markup, renderer.answer n call = .ok markup →
    ∀ ids, (readFragment markup).nodes = .ok ids → IsPlain table (readFragment markup).tree

section Budgets

variable {table : RuleTable} {o o' : Own} {name : String} {c : Content} {cs : List Content}

theorem budget_congr (hk : o'.kind = o.kind) (ht : o'.tag = o.tag) :
    budget table o' = budget table o := by
  unfold budget Own.isElement
  rw [hk, ht]

/-- What is no region and has no rule allows for no call. -/
theorem tagBudget_of_none {tag : String} (hregion : regionOf tag = none)
    (hrule : table.find tag = none) : tagBudget table tag = 0 := by
  rw [tagBudget, hregion, hrule]
  rfl

theorem budget_wrapper (ht : Frugal table) (name : String) :
    budget table (Own.wrapper name) = 0 :=
  tagBudget_of_none rfl ht.wrapper

theorem total_anchor (ht : Frugal table) (anchorClass id : String) :
    (Content.node (Value.anchor anchorClass id) []).total (budget table) = 0 := by
  rw [total_node, totals_nil, Nat.add_zero]
  exact tagBudget_of_none rfl ht.span

/-- Normalizing keeps within a budget. -/
theorem total_normalize_budget_le (ht : Frugal table) (c : Content) :
    c.normalize.total (budget table) ≤ c.total (budget table) := by
  refine total_normalize_le (fun o => ?_) (fun o name _ => ?_) c
  · rw [Own.migrate_eq o]
    exact Nat.le_of_eq (budget_congr rfl rfl)
  · rw [budget_wrapper ht, Nat.zero_add]
    exact Nat.le_of_eq (budget_congr rfl rfl)

/-- What is read from plain answers allows for no calls. -/
theorem totals_budget_parse {renderer : Renderer} (hr : PlainRenderer table renderer)
    {n : Nat} {call : RenderCall} {markup : String} (ha : renderer.answer n call = .ok markup)
    (hp : (Content.parse markup).1 = .ok cs) : totals (budget table) cs = 0 := by
  have hread := readFragment_eq markup
  rw [hp] at hread
  obtain ⟨⟨ids, hids⟩, hwf, hsize, hs⟩ := hread
  have hzero : ∀ o ∈ cs.flatMap inOrder, budget table o = 0 := by
    intro o ho
    have hm : o ∈ ((readFragment markup).tree.descendants 0).map
        (readFragment markup).tree.own := by
      rw [hwf.map_own_descendants hsize hs, inOrder_node]
      exact List.mem_cons_of_mem _ ho
    obtain ⟨x, hx, rfl⟩ := List.mem_map.1 hm
    unfold budget
    split
    · rename_i he
      obtain ⟨hregion, hrule⟩ := hr n call markup ha ids hids x hx he
      exact tagBudget_of_none (regionOf_eq_none_iff.2 hregion) hrule
    · rfl
  refine List.sum_eq_zero fun n hn => ?_
  obtain ⟨o, ho, rfl⟩ := List.mem_map.1 hn
  exact hzero o ho

end Budgets

/-! ## What steps spend -/

/-- **A step makes a number of calls at most**, whether it returns or
fails. What it returns has a property, and so has a fault. -/
def Spends {α : Type} (F : PageFault → Prop) (k : Nat) (Q : α → Prop) (x : ValueM α) : Prop :=
  ∀ notes, match x notes with
    | .ok a next => next.calls.length ≤ notes.calls.length + k ∧ Q a
    | .error fault next => next.calls.length ≤ notes.calls.length + k ∧ F fault

namespace Spends

variable {F F' : PageFault → Prop} {α β : Type} {k l : Nat} {Q Q' : α → Prop} {R : β → Prop}
variable {x : ValueM α} {g : α → ValueM β}

theorem pure {a : α} (h : Q a) : Spends F k Q (pure a) :=
  fun _ => ⟨Nat.le_add_right _ _, h⟩

theorem mono (h : Spends F k Q x) (hk : k ≤ l) (hq : ∀ a, Q a → Q' a) : Spends F l Q' x := by
  intro notes
  have hx := h notes
  split at hx
  · exact ⟨Nat.le_trans hx.1 (Nat.add_le_add_left hk _), hq _ hx.2⟩
  · exact ⟨Nat.le_trans hx.1 (Nat.add_le_add_left hk _), hx.2⟩

theorem of_fault (h : Spends F k Q x) (hf : ∀ e, F e → F' e) : Spends F' k Q x := by
  intro notes
  have hx := h notes
  split at hx
  · exact hx
  · exact ⟨hx.1, hf _ hx.2⟩

/-- **Steps one after the other** spend what both spend. -/
theorem bind (h : Spends F k Q x) (hg : ∀ a, Q a → Spends F l R (g a)) :
    Spends F (k + l) R (x >>= g) := by
  intro notes
  have hx := h notes
  cases hr : x notes with
  | error fault next =>
    rw [hr] at hx
    rw [bind_of_error hr]
    exact ⟨Nat.le_trans hx.1 (by omega), hx.2⟩
  | ok a next =>
    rw [hr] at hx
    rw [bind_of_ok hr]
    have hy := hg a hx.2 next
    have hle := hx.1
    split at hy
    · exact ⟨by omega, hy.2⟩
    · exact ⟨by omega, hy.2⟩

/-- A step without a call in front. -/
theorem bind_free (h : Spends F 0 Q x) (hg : ∀ a, Q a → Spends F l R (g a)) :
    Spends F l R (x >>= g) :=
  Nat.zero_add l ▸ h.bind hg

/-- A step for each of several contents spends what their measures are
together. -/
theorem mapM {f : Own → Nat} {g : Content → ValueM Content}
    (h : ∀ c, Spends F (c.total f) (fun _ => True) (g c)) (cs : List Content) :
    Spends F (totals f cs) (fun _ => True) (cs.mapM g) := by
  induction cs with
  | nil => exact .pure trivial
  | cons c cs ih =>
    rw [List.mapM_cons, totals_cons]
    exact (h c).bind fun _ _ => ih.bind (l := 0) fun _ _ => .pure trivial

end Spends

section Steps

variable {F : PageFault → Prop} {table : RuleTable} {renderer : Renderer} {c : Content}
variable {cs : List Content} {k : Nat} {α : Type} {Q : α → Prop}

theorem spends_tell (log : Log) : Spends F 0 (fun _ => True) (Value.tell log) :=
  fun _ => ⟨Nat.le_refl _, trivial⟩

theorem spends_modifyContext (f : Context → Context) :
    Spends F 0 (fun _ => True) (Value.modifyContext f) :=
  fun _ => ⟨Nat.le_refl _, trivial⟩

/-- Rendering is one call. -/
theorem spends_render (renderer : Renderer) (mode : RenderMode) (source : String) :
    Spends (· ≠ .tooDeep) 1 (fun markup => ∃ n call, renderer.answer n call = .ok markup)
      (Value.render renderer mode source) := by
  intro notes
  unfold Value.render
  dsimp only
  cases ha : renderer.answer notes.calls.length ⟨mode, source⟩ with
  | error e => exact ⟨by simp, nofun⟩
  | ok markup => exact ⟨by simp, _, _, ha⟩

/-- Reading what has been rendered gives nothing that allows for calls. -/
theorem spends_read (hr : PlainRenderer table renderer) {markup : String}
    (ha : ∃ n call, renderer.answer n call = .ok markup) :
    Spends (· ≠ .tooDeep) 0 (fun cs => totals (budget table) cs = 0) (Value.read markup) := by
  obtain ⟨n, call, ha⟩ := ha
  intro notes
  unfold Value.read
  cases hp : (Content.parse markup).1 with
  | error fault => exact ⟨Nat.le_refl _, nofun⟩
  | ok cs => exact ⟨Nat.le_refl _, totals_budget_parse hr ha hp⟩

/-- **Rendering and reading what comes out** is one call, and gives nothing
that allows for others. -/
theorem spends_render_read (hr : PlainRenderer table renderer) (mode : RenderMode)
    (source : String) {g : List Content → ValueM α}
    (hg : ∀ cs, totals (budget table) cs = 0 → Spends (· ≠ .tooDeep) 0 Q (g cs)) :
    Spends (· ≠ .tooDeep) 1 Q
      (Value.render renderer mode source >>= fun markup => Value.read markup >>= g) :=
  (spends_render renderer mode source).bind (l := 0) fun _ ha => (spends_read hr ha).bind_free hg

theorem spends_checkPlace (rule : Rule) (tag : String) :
    Spends F 0 (fun _ => True) (Value.checkPlace rule tag) := by
  intro notes
  unfold Value.checkPlace
  rw [bind_of_ok (get_eq notes)]
  by_cases hp : rule.isPlaced notes.context = true
  · rw [if_pos hp]
    exact ⟨Nat.le_refl _, trivial⟩
  · rw [if_neg hp]
    exact ⟨Nat.le_refl _, trivial⟩

/-- A heading keeps what is in it. -/
theorem spends_headingId (c : Content) : Spends F 0 (fun b => b.2.children = c.children
    ∧ b.2.own.kind = c.own.kind ∧ b.2.own.tag = c.own.tag) (Value.headingId c) := by
  intro notes
  unfold Value.headingId
  rw [bind_of_ok (get_eq notes)]
  cases c.own.attr? "id" with
  | some written =>
    dsimp only
    cases (notes.context.registerHeadingId written).1 <;> exact ⟨Nat.le_refl _, rfl, rfl, rfl⟩
  | none =>
    dsimp only
    cases (notes.context.uniqueHeadingId (decodeReferences c.textContent)).1 <;>
      exact ⟨Nat.le_refl _, rfl, rfl, rfl⟩

/-- A heading gets an anchor at most. -/
theorem spends_anchorHeading (anchorClass : String) (c : Content) :
    Spends F 0 (fun c' => (c'.own.kind = c.own.kind ∧ c'.own.tag = c.own.tag)
      ∧ (c'.children = c.children
        ∨ ∃ id, c'.children = .node (Value.anchor anchorClass id) [] :: c.children))
      (Value.anchorHeading anchorClass c) := by
  unfold Value.anchorHeading
  refine (spends_headingId c).bind_free ?_
  rintro ⟨made, c'⟩ ⟨hch, hk, ht⟩
  cases made with
  | none => exact .pure ⟨⟨hk, ht⟩, .inl hch⟩
  | some made =>
    dsimp only
    split
    · exact .pure ⟨⟨hk, ht⟩, .inl hch⟩
    · exact .pure ⟨⟨hk, ht⟩, .inr ⟨made, congrArg _ hch⟩⟩

/-- Going on to the children. -/
theorem spends_descend {f : Own → Nat} {g : Content → ValueM Content}
    (hg : ∀ c, Spends F (c.total f) (fun _ => True) (g c)) (c : Content) :
    Spends F (totals f c.children) (fun _ => True) (Value.descend g c) := by
  have hturn := Spends.mapM hg c.children
  unfold Value.descend
  split
  · refine (spends_modifyContext _).bind_free fun _ _ => ?_
    exact hturn.bind (l := 0) fun _ _ => (spends_modifyContext _).bind_free fun _ _ =>
      .pure trivial
  · exact hturn.bind (l := 0) fun _ _ => .pure trivial

section Plain

variable (hr : PlainRenderer table renderer) (ht : Frugal table)
include hr ht

/-- A promotion is one call at most, and adds nothing that allows for
others. -/
theorem spends_promote (index : Nat) (promotion : Promotion) (c : Content) :
    Spends (· ≠ .tooDeep) 1
      (fun b => totals (budget table) b.2.children ≤ totals (budget table) c.children)
      (Value.promote renderer index promotion c) := by
  unfold Value.promote
  dsimp only
  split
  · split
    · exact (spends_tell _).bind_free fun _ _ => .pure (Nat.le_refl _)
    · exact .pure (Nat.le_refl _)
  · split
    · exact .pure (Nat.le_refl _)
    · refine spends_render_read hr _ _ fun cs hcs => (spends_tell _).bind_free fun _ _ => .pure ?_
      have htemplate : (Value.template promotion.slot cs).total (budget table) = 0 := by
        rw [Value.template, total_node, budget_wrapper ht, hcs]
      refine Nat.le_of_eq ?_
      dsimp only
      rw [children_node, totals_perm (List.perm_insertIdx _ _ (Nat.min_le_right _ _)), totals_cons,
        htemplate, Nat.zero_add, children_mapOwn]

theorem spends_promoteAll (promotions : List Promotion) : ∀ (index : Nat) (c : Content),
    Spends (· ≠ .tooDeep) promotions.length
      (fun c' => totals (budget table) c'.children ≤ totals (budget table) c.children)
      (Value.promoteAll renderer index promotions c) := by
  induction promotions with
  | nil => exact fun _ _ => .pure (Nat.le_refl _)
  | cons promotion promotions ih =>
    intro index c
    rw [List.length_cons, Nat.add_comm]
    refine (spends_promote hr ht index promotion c).bind fun b hb => ?_
    exact (ih _ b.2).mono (Nat.le_refl _) fun _ hq => Nat.le_trans hq hb

/-- **The rule of a component** is worth its promotions. -/
theorem spends_applyRule (rule : Rule) (c : Content) :
    Spends (· ≠ .tooDeep) rule.promotions.length
      (fun c' => totals (budget table) c'.children ≤ totals (budget table) c.children)
      (Value.applyRule renderer rule c) := by
  have hexplicit : totals (budget table) (Value.explicit rule.renames c.children)
      ≤ totals (budget table) c.children := by
    refine Nat.le_trans (totals_le_of_sublist (keepFirst_sublist _ [] _))
      (totals_map_le fun d _ => Nat.le_of_eq ?_)
    obtain ⟨o, ds⟩ := d
    rw [mapOwn, total_node, total_node, own_node, Own.renameSlot_eq]
    rfl
  unfold Value.applyRule
  refine (spends_checkPlace rule _).bind_free fun _ _ => (spends_tell _).bind_free fun _ _ => ?_
  refine (spends_promoteAll hr ht rule.promotions 0 _).bind (l := 0) fun c' hc' => .pure ?_
  exact Nat.le_trans hc' hexplicit

end Plain

end Steps

/-! ## The pass -/

section Pass

variable {p : Processor} {c d : Content}

/-- **What hangs from a node after its visit**: an old child, an anchor in
a heading, or something that allows for fewer calls than the node did with
everything below it. -/
def LeftBehind (p : Processor) (c d : Content) : Prop :=
  d ∈ c.children
    ∨ (c.own.isHeading = true ∧ ∃ id, d = .node (Value.anchor p.anchorClass id) [])
    ∨ d.total (budget p.rules) < c.total (budget p.rules)

/-- **A visit leaves no more calls** than were allowed for below its
node. -/
structure KeepsBudget (p : Processor) (c c' : Content) : Prop where
  /-- All the children together have the budget that they had. -/
  totals_le : totals (budget p.rules) c'.children ≤ totals (budget p.rules) c.children
  /-- Each of them is old, an anchor, or has a smaller one. -/
  leftBehind : ∀ d ∈ c'.children, LeftBehind p c d

variable (hr : PlainRenderer p.rules p.renderer) (ht : Frugal p.rules)
include hr ht

/-- A region is rendered once, and what it becomes has no rule. -/
theorem spends_visitElement_of_region {region : RenderMode × String}
    (hregion : regionOf c.own.tag = some region) :
    Spends (· ≠ .tooDeep) 1 (fun c' => totals (budget p.rules) c'.children = 0)
      (Value.visitElement p c) := by
  obtain ⟨mode, tag⟩ := region
  have htag : tag = "span" ∨ tag = "div" := by
    unfold regionOf at hregion
    split at hregion <;> cases hregion
    · exact .inl rfl
    · exact .inr rfl
  have hfind : p.rules.find tag = none := by
    rcases htag with rfl | rfl
    · exact ht.span
    · exact ht.div
  have hheading : ∀ o : Own, o.tag = tag → ¬ o.isHeading = true := fun o ho hh => by
    have hm := Own.tag_mem_of_isHeading hh
    rw [ho] at hm
    rcases htag with rfl | rfl <;> exact absurd hm (by decide)
  unfold Value.visitElement Value.renderRegion
  rw [hregion]
  simp only [bind_assoc, pure_bind]
  refine spends_render_read hr mode _ fun cs hcs => ?_
  rw [if_neg (hheading _ rfl), Value.applyRules, own_node, hfind]
  exact .pure hcs

/-- The rule of an element that is no region, once it has its anchor. -/
theorem spends_applyRules {c' : Content} (he : c.own.isElement = true)
    (htag : c'.own.tag = c.own.tag)
    (hch : c'.children = c.children ∨ c.own.isHeading = true
      ∧ ∃ id, c'.children = .node (Value.anchor p.anchorClass id) [] :: c.children) :
    Spends (· ≠ .tooDeep) (budget p.rules c.own) (KeepsBudget p c) (Value.applyRules p c') := by
  have htotals : totals (budget p.rules) c'.children = totals (budget p.rules) c.children := by
    rcases hch with hch | ⟨-, id, hch⟩
    · rw [hch]
    · rw [hch, totals_cons, total_anchor ht, Nat.zero_add]
  unfold Value.applyRules
  rw [htag]
  cases hf : p.rules.find c.own.tag with
  | none =>
    refine .pure ⟨Nat.le_of_eq htotals, fun d hd => ?_⟩
    rcases hch with hch | ⟨hh, id, hch⟩
    · exact .inl (hch ▸ hd)
    · rw [hch] at hd
      rcases List.mem_cons.1 hd with rfl | hd
      · exact .inr (.inl ⟨hh, id, rfl⟩)
      · exact .inl hd
  | some rule =>
    have hpos : 0 < rule.promotions.length :=
      List.length_pos_of_ne_nil (ht.promotes rule (List.mem_of_find?_eq_some hf))
    have hbudget : rule.promotions.length ≤ budget p.rules c.own := by
      rw [budget, if_pos he, tagBudget, hf]
      exact Nat.le_add_left _ _
    refine (spends_applyRule hr ht rule c').mono hbudget fun c'' hle => ?_
    rw [htotals] at hle
    refine ⟨hle, fun d hd => .inr (.inr ?_)⟩
    -- the rule has been worth something, so each child has less than the node had
    have hd := total_le_totals (f := budget p.rules) hd
    rw [total_eq _ c]
    omega

/-- **A visit stays within the budget of its node**, and leaves no more to
the children than they had. -/
theorem spends_visit (c : Content) :
    Spends (· ≠ .tooDeep) (budget p.rules c.own) (KeepsBudget p c) (Value.visit p c) := by
  unfold Value.visit
  by_cases he : c.own.isElement = true
  · rw [if_pos he]
    cases hregion : regionOf c.own.tag with
    | some region =>
      have hbudget : 1 ≤ budget p.rules c.own := by
        rw [budget, if_pos he, tagBudget, hregion]
        exact Nat.le_add_right _ _
      refine (spends_visitElement_of_region hr ht hregion).mono hbudget fun c' hzero => ?_
      refine ⟨hzero ▸ Nat.zero_le _, fun d hd => .inr (.inr ?_)⟩
      rw [totals_eq_zero_iff.1 hzero d hd, total_eq _ c]
      omega
    | none =>
      unfold Value.visitElement Value.renderRegion
      rw [hregion, pure_bind]
      split
      · rename_i hh
        refine (spends_anchorHeading p.anchorClass c).bind_free ?_
        rintro c' ⟨⟨-, htag⟩, hch⟩
        exact spends_applyRules hr ht he htag (hch.imp_right fun h => ⟨hh, h⟩)
      · rw [pure_bind]
        exact spends_applyRules hr ht he rfl (.inl rfl)
  · rw [if_neg he]
    exact .pure ⟨Nat.le_refl _, fun d hd => .inl hd⟩

/-- **The pass over a content stays within its budget**, however deep it
goes and however it ends. -/
theorem spends_resolveTo (depth : Nat) : ∀ c : Content,
    Spends (fun _ => True) (c.total (budget p.rules)) (fun _ => True)
      (Value.resolveTo p depth c) := by
  induction depth with
  | zero => exact fun c notes => ⟨Nat.le_add_right _ _, trivial⟩
  | succ depth ih =>
    intro c
    have hvisit : Spends (fun _ => True) (budget p.rules c.own) (KeepsBudget p c)
        (Value.visit p c) := (spends_visit hr ht c).of_fault fun _ _ => trivial
    unfold Value.resolveTo
    rw [total_eq]
    refine hvisit.bind fun c' hc' => (spends_descend ih _).mono ?_ fun _ hq => hq
    rw [children_node]
    exact Nat.le_trans (totals_map_le fun d _ => total_normalize_budget_le ht d) hc'.totals_le

end Pass

end PageSlots.Page
