import PageSlots.Proofs.Component.Finished
import PageSlots.Proofs.Page.Context
import PageSlots.Proofs.Page.NormalForm
import PageSlots.Proofs.Page.Visits

/-!
# Pages that the first pass leaves as they are

What the first pass has done to an element it need not do again: its rule
is `Finished`, and its marker and those of its children are in their
places. The one thing that a second pass may find undone is a heading,
because its id and its anchor are given before its children are looked at.
A node is `Stable` if there is nothing to do for its heading either.

A step is `Idle` if it returns without a call of the renderer and leaves
the tree. The steps of a visit to a stable node are idle, and so is the
pass over a tree of stable nodes (`idle_resolveTo`).
-/

namespace PageSlots.Page

open PageSlots.Component PageSlots.Markup PageSlots.Markup.Content PageSlots.Markup.Tree
open PageSlots.Slot

/-! ## What a rule leaves -/

/-- **The rule of a component is finished**, given the slots that its
children fill: there is nothing to take off, to drop or to rename, no slot
to fill and no flag to set. -/
structure Finished (rule : Rule) (slots : List String) (o : Own) : Prop where
  /-- It is left tidy. -/
  tidied : Tidied rule slots o
  /-- A slot that has something to fall back on is filled. -/
  filled : ∀ promotion ∈ rule.promotions, promotion.fallback ≠ none → promotion.slot ∈ slots
  /-- A flag that applies is set. -/
  flagged : ∀ fixup ∈ rule.fixups, o.applies slots.contains fixup = true →
    o.attr? fixup.flag = some ""

/-- **A rule is repeatable**: what its flags depend on is neither a flag
nor an id, and no flag is an id. -/
structure Repeatable (rule : Rule) : Prop where
  /-- No flag decides on a flag. -/
  flag_ne : ∀ fixup ∈ rule.fixups, ∀ fixup' ∈ rule.fixups, fixup.flag ≠ fixup'.attr
  /-- No id is concerned. -/
  id_ne : ∀ fixup ∈ rule.fixups, fixup.flag ≠ "id" ∧ fixup.attr ≠ "id"

/-- The rules of the known components are repeatable. -/
theorem repeatable_of_mem_builtIn {rule : Rule} (h : rule ∈ builtIn) : Repeatable rule where
  flag_ne := by revert rule; decide
  id_ne := by revert rule; decide

section Rules

variable {renderer : Renderer} {rule : Rule} {promotion : Promotion} {c : Content}

/-- A promotion with something to fall back on leaves its slot filled, and
no promotion empties a slot. -/
theorem ensures_promote_filled (index : Nat) (hs : promotion.slot ≠ "") :
    Ensures (Value.promote renderer index promotion c) fun b =>
      slotsOf c.children ⊆ slotsOf b.2.children
        ∧ (promotion.fallback ≠ none → promotion.slot ∈ slotsOf b.2.children) := by
  unfold Value.promote
  dsimp only
  by_cases hf : Value.filled (c.mapOwn (Own.removeAttr promotion.attr)) promotion.slot = true
  · rw [if_pos hf]
    have hslot : promotion.slot ∈ slotsOf c.children := filled_iff.1 hf
    split
    · exact (Ensures.any _).bind fun _ _ => .pure ⟨List.Subset.refl _, fun _ => hslot⟩
    · exact .pure ⟨List.Subset.refl _, fun _ => hslot⟩
  · rw [if_neg hf]
    split
    · rename_i hnone
      exact .pure ⟨List.Subset.refl _, fun hne => absurd (Option.or_eq_none_iff.1 hnone).2 hne⟩
    · refine (Ensures.any _).bind fun markup _ => (Ensures.any _).bind fun cs _ => ?_
      refine (Ensures.any _).bind fun _ _ => .pure ?_
      have hslots := (List.perm_insertIdx (Value.template promotion.slot cs) c.children
        (Nat.min_le_right index c.children.length)).filterMap Value.slotOf
      rw [List.filterMap_cons_some (slotOf_template hs cs)] at hslots
      exact ⟨fun slot hm => hslots.symm.subset (List.mem_cons_of_mem _ hm),
        fun _ => hslots.symm.subset List.mem_cons_self⟩

theorem ensures_promoteAll_filled {promotions : List Promotion}
    (hs : ∀ promotion ∈ promotions, promotion.slot ≠ "") :
    ∀ (c : Content) (index : Nat), Ensures (Value.promoteAll renderer index promotions c) fun c' =>
      slotsOf c.children ⊆ slotsOf c'.children
        ∧ ∀ promotion ∈ promotions, promotion.fallback ≠ none →
          promotion.slot ∈ slotsOf c'.children := by
  induction promotions with
  | nil => exact fun _ _ => .pure ⟨List.Subset.refl _, nofun⟩
  | cons promotion promotions ih =>
    intro c index
    refine (ensures_promote_filled index (hs promotion List.mem_cons_self)).bind ?_
    rintro ⟨added, c₁⟩ ⟨hsub, hfilled⟩
    refine (ih (fun q hq => hs q (List.mem_cons_of_mem _ hq)) c₁ _).mono ?_
    rintro c₂ ⟨hsub₂, hfilled₂⟩
    refine ⟨List.Subset.trans hsub hsub₂, fun q hq hne => ?_⟩
    rcases List.mem_cons.1 hq with rfl | hq
    · exact hsub₂ (hfilled hne)
    · exact hfilled₂ q hq hne

/-- **An orderly and repeatable rule is finished** when it has been
applied. -/
theorem establishes_finished (ho : Orderly rule) (hr : Repeatable rule) :
    Establishes renderer rule Finished := by
  intro c hd hp
  have hrest : Ensures (Value.applyRule renderer rule c) fun c' =>
      (∀ promotion ∈ rule.promotions, promotion.fallback ≠ none →
        promotion.slot ∈ slotsOf c'.children)
      ∧ ∀ fixup ∈ rule.fixups, c'.own.applies (slotsOf c'.children).contains fixup = true →
        c'.own.attr? fixup.flag = some "" := by
    unfold Value.applyRule
    refine (Ensures.any _).bind fun _ _ => (Ensures.any _).bind fun _ _ => ?_
    refine (ensures_promoteAll_filled (fun q hq => (ho.slot_ne q hq).1) _ 0).bind ?_
    rintro c₂ ⟨-, hfilled⟩
    refine .pure ⟨hfilled, fun fixup hf happlies => ?_⟩
    have hcontains : (slotsOf c₂.children).contains = Value.filled c₂ := funext fun slot => by
      rw [Bool.eq_iff_iff, List.contains_iff_mem, filled_iff]
    rw [children_mapOwn, hcontains] at happlies
    exact Own.attr?_flag_applyFixups hr.flag_ne hf happlies
  refine ((ensures_applyRule ho hd hp).and hrest).mono ?_
  rintro c' ⟨⟨hv, ht, htidied⟩, hfilled, hflagged⟩
  exact ⟨hv, ht, htidied, hfilled, hflagged⟩

end Rules

/-! ## Stable nodes -/

/-- **A heading is settled**: with an id it has its anchor, and without one
its text has no slug. -/
structure SettledHeading (anchorClass : String) (t : Tree) (x : NodeId) : Prop where
  /-- With an id it has its anchor. -/
  anchored : t.attr? x "id" ≠ none → hasAnchor t x anchorClass = true
  /-- Without one its text has no slug. -/
  without_slug : t.attr? x "id" = none → slug (decodeReferences (t.textContent x)) = ""

/-- **A node is stable**: if it is an element there is nothing left to do
for its marker, for a region or for its rule, and if it is a heading, it is
settled. -/
structure Stable (p : Processor) (t : Tree) (x : NodeId) : Prop where
  /-- An element is left as its rule leaves it. -/
  ruled : t.isElement x = true → Ruled p.rules Finished (t.slotsBelow x) (t.own x)
  /-- A heading is settled. -/
  settled : t.isHeading x = true → SettledHeading p.anchorClass t x

/-! ## Idle steps -/

/-- **A step is idle** in a run: it returns, does not call the renderer and
leaves the tree. -/
def Idle {α : Type} (x : PageM α) (run : Run) : Prop :=
  ∃ a next, x run = .ok a next ∧ next.tree = run.tree ∧ next.calls = run.calls

namespace Idle

variable {α β : Type} {x : PageM α} {f : α → PageM β} {run : Run}

theorem pure (a : α) (run : Run) : Idle (pure a) run :=
  ⟨a, run, rfl, rfl, rfl⟩

/-- Changes of the context are idle. -/
theorem modifyContext (f : Context → Context) (run : Run) : Idle (modifyContext f) run :=
  ⟨(), _, modifyContext_eq f run, rfl, rfl⟩

/-- An edit that leaves the tree is idle. -/
theorem modifyTree {f : Tree → Tree} (h : f run.tree = run.tree) : Idle (modifyTree f) run :=
  ⟨(), _, modifyTree_eq f run, h, rfl⟩

theorem editTree {f : Tree → Log × Tree} (h : (f run.tree).2 = run.tree) :
    Idle (editTree f) run :=
  ⟨(), _, editTree_eq f run, h, rfl⟩

theorem getTree (run : Run) : Idle getTree run :=
  ⟨_, _, getTree_eq run, rfl, rfl⟩

/-- **Idle steps one after the other are idle.** -/
theorem bind (h : Idle x run)
    (hf : ∀ a next, x run = .ok a next → next.tree = run.tree → Idle (f a) next) :
    Idle (x >>= f) run := by
  obtain ⟨a, mid, hx, ht, hc⟩ := h
  obtain ⟨b, next, hb, ht', hc'⟩ := hf a mid hx ht
  exact ⟨b, next, (bind_of_ok hx f).trans hb, ht'.trans ht, hc'.trans hc⟩

/-- An idle step for each of some nodes. -/
theorem forM {ids : List NodeId} {g : NodeId → PageM Unit} {t : Tree}
    (h : ∀ i ∈ ids, ∀ run : Run, run.tree = t → Idle (g i) run) :
    ∀ run : Run, run.tree = t → Idle (ids.forM g) run := by
  induction ids with
  | nil => exact fun run _ => pure () run
  | cons i ids ih =>
    intro run ht
    rw [List.forM_eq_forM, List.forM_cons]
    refine (h i List.mem_cons_self run ht).bind fun _ next _ ht' => ?_
    exact ih (fun k hk => h k (List.mem_cons_of_mem i hk)) next (ht'.trans ht)

end Idle

section Steps

variable {p : Processor} {t : Tree} {run : Run} {id : NodeId} {rule : Rule}

/-- What is no region is not rendered. -/
theorem idle_renderRegion (h : run.tree.tag id ≠ "md" ∧ run.tree.tag id ≠ "markdown") :
    Idle (p.renderRegion id) run := by
  unfold Processor.renderRegion
  refine (Idle.getTree run).bind fun t _ ht _ => ?_
  cases ht
  rw [regionOf_eq_none_iff.2 h]
  exact .pure () run

/-- A settled heading has its id and its anchor. -/
theorem idle_anchorHeading {anchorClass : String} (h : SettledHeading anchorClass run.tree id) :
    Idle (anchorHeading anchorClass id) run := by
  have hid : ∃ made next, headingId id run = .ok made next ∧ next.tree = run.tree
      ∧ next.calls = run.calls ∧ (made ≠ none → run.tree.attr? id "id" ≠ none) := by
    unfold headingId
    rw [bind_of_ok (get_eq run)]
    cases hattr : run.tree.attr? id "id" with
    | some written =>
      dsimp only
      by_cases hnew : (run.context.registerHeadingId written).1 = true
      · rw [if_pos hnew]
        exact ⟨_, _, rfl, rfl, rfl, fun _ => nofun⟩
      · rw [if_neg hnew]
        exact ⟨_, _, rfl, rfl, rfl, fun _ => nofun⟩
    | none =>
      dsimp only
      rw [Context.uniqueHeadingId_of_slug_eq (h.without_slug hattr)]
      exact ⟨_, _, rfl, rfl, rfl, fun hne => absurd rfl hne⟩
  obtain ⟨made, next, hok, ht, hc, hmade⟩ := hid
  unfold anchorHeading
  refine Idle.bind ⟨made, next, hok, ht, hc⟩ fun made' next' hok' ht' => ?_
  rw [hok] at hok'
  cases hok'
  cases made with
  | none => exact .pure () next
  | some made =>
    refine .modifyTree ?_
    rw [ht, if_pos (h.anchored (hmade nofun))]

/-- A promotion finds its attribute gone and its slot filled, or nothing to
fill it with. -/
theorem idle_promote {renderer : Renderer} {index : Nat} {promotion : Promotion}
    (ha : promotion.attr ∉ (run.tree.own id).names)
    (hs : promotion.fallback ≠ none → promotion.slot ∈ run.tree.slotsBelow id) :
    Idle (promote renderer id index promotion) run := by
  have hnone : run.tree.attr? id promotion.attr = none := Own.attr?_eq_none_iff.2 ha
  have htake : takeAttr id promotion.attr run = .ok none run := by
    rw [takeAttr_eq, removeAttr, hnone]
  unfold promote
  refine Idle.bind ⟨none, run, htake, rfl, rfl⟩ fun value _ hok _ => ?_
  rw [htake] at hok
  cases hok
  refine (Idle.getTree run).bind fun t _ ht _ => ?_
  cases ht
  by_cases hf : (run.tree.findSlot id promotion.slot).isSome = true
  · rw [if_pos hf]
    exact .pure false run
  · rw [if_neg hf]
    have hfallback : promotion.fallback = none := by
      by_contra hne
      rw [← contains_slotsBelow, List.contains_iff_mem] at hf
      exact hf (hs hne)
    rw [Option.none_or, hfallback]
    exact .pure false run

/-- **A finished rule** has nothing left to do. -/
theorem idle_applyRule (h : run.tree.WellFormed) (hid : id < run.tree.size) (renderer : Renderer)
    (hf : Finished rule (run.tree.slotsBelow id) (run.tree.own id)) :
    Idle (applyRule renderer id rule) run := by
  obtain ⟨⟨hattrs, hnodup, hrenames⟩, hfilled, hflagged⟩ := hf
  have hpromote : ∀ (promotions : List Promotion), (∀ q ∈ promotions, q ∈ rule.promotions) →
      ∀ (index : Nat) (run' : Run), run'.tree = run.tree →
        Idle (promoteAll renderer id index promotions) run' := by
    intro promotions
    induction promotions with
    | nil => exact fun _ _ run' _ => .pure () run'
    | cons promotion promotions ih =>
      intro hsub index run' ht
      have hmem := hsub promotion List.mem_cons_self
      refine (idle_promote (ht ▸ hattrs promotion hmem)
        fun hne => ht ▸ hfilled promotion hmem hne).bind fun added next _ ht' => ?_
      exact ih (fun q hq => hsub q (List.mem_cons_of_mem _ hq)) _ next (ht'.trans ht)
  have hplace : Idle (checkPlace id rule) run := by
    unfold checkPlace
    refine Idle.bind ⟨run, run, rfl, rfl, rfl⟩ fun run' _ hok _ => ?_
    cases hok
    by_cases hp : rule.isPlaced run.context = true
    · rw [if_pos hp]
      exact .pure () run
    · rw [if_neg hp]
      exact ⟨(), _, tell_eq _ run, rfl, rfl⟩
  unfold applyRule
  refine hplace.bind fun _ run₁ _ ht₁ => ?_
  refine (Idle.editTree (by rw [ht₁]; exact renameSlots_eq_self h hrenames)).bind
    fun _ run₂ _ ht₂ => ?_
  replace ht₂ := ht₂.trans ht₁
  refine (Idle.editTree (by rw [ht₂]; exact dedupeSlots_eq_self h hnodup)).bind
    fun _ run₃ _ ht₃ => ?_
  replace ht₃ := ht₃.trans ht₂
  refine (hpromote rule.promotions (fun _ hq => hq) 0 run₃ ht₃).bind fun _ run₄ _ ht₄ => ?_
  refine .modifyTree ?_
  rw [ht₄, ht₃]
  exact applyFixups_eq_self h hid hflagged

/-- **A stable element** is left as it is. -/
theorem idle_visitElement (h : run.tree.WellFormed) (hid : id < run.tree.size)
    (he : run.tree.isElement id = true) (hs : Stable p run.tree id) :
    Idle (p.visitElement id) run := by
  obtain ⟨-, hregion, hrule⟩ := hs.ruled he
  unfold Processor.visitElement
  refine (idle_renderRegion hregion).bind fun _ run₁ _ ht₁ => ?_
  refine (Idle.getTree run₁).bind fun t _ ht _ => ?_
  cases ht
  have hlast : ∀ run₂ : Run, run₂.tree = run.tree → Idle (p.applyRules id) run₂ := by
    intro run₂ ht₂
    unfold Processor.applyRules
    refine (Idle.getTree run₂).bind fun t _ ht _ => ?_
    cases ht
    rw [ht₂]
    cases hf : p.rules.find (run.tree.tag id) with
    | none => exact .pure () run₂
    | some rule =>
      rw [← ht₂] at h hid
      exact idle_applyRule h hid p.renderer (by rw [ht₂]; exact hrule rule hf)
  by_cases hh : run₁.tree.isHeading id = true
  · rw [if_pos hh]
    refine (idle_anchorHeading ?_).bind fun _ run₂ _ ht₂ => hlast run₂ (ht₂.trans ht₁)
    rw [ht₁] at hh ⊢
    exact hs.settled hh
  · rw [if_neg hh]
    exact hlast run₁ ht₁

/-- **A stable node is entered** without a change, if the markers of its
children are in their places. -/
theorem idle_enter (h : run.tree.WellFormed) (hid : id < run.tree.size)
    (hs : Stable p run.tree id)
    (hchildren : ∀ c ∈ run.tree.children id, (run.tree.own c).Placed) :
    Idle (p.enter id) run := by
  have hnormal : Processor.normalizeChildren run.tree id = run.tree := by
    refine List.foldlRecOn (motive := fun t => t = run.tree) _ _ rfl ?_
    rintro t rfl c hc
    exact normalizeChild_eq_self (h.lt_of_mem hc) (fun hk => (hchildren c hc hk).1)
      fun hk => (hchildren c hc hk).2
  have hlast : ∀ run₁ : Run, run₁.tree = run.tree →
      Idle (modifyTree (Processor.normalizeChildren · id) >>= fun _ => getTree >>= fun t =>
        if t.isElement id then modifyContext (·.pushAncestor (t.tag id)) else pure ()) run₁ := by
    intro run₁ ht₁
    refine (Idle.modifyTree (by rw [ht₁, hnormal])).bind fun _ run₂ _ _ => ?_
    refine (Idle.getTree run₂).bind fun t _ _ _ => ?_
    split
    · exact .modifyContext _ _
    · exact .pure () _
  unfold Processor.enter
  refine (Idle.getTree run).bind fun t _ ht _ => ?_
  cases ht
  by_cases he : run.tree.isElement id = true
  · rw [if_pos he]
    exact (idle_visitElement h hid he hs).bind fun _ run₁ _ ht₁ => hlast run₁ ht₁
  · rw [if_neg he]
    exact hlast run rfl

/-- **The pass over a tree of stable nodes** changes nothing and does not
call the renderer, if it goes deep enough. -/
theorem idle_resolveTo (h : t.WellFormed) (depth : Nat) :
    ∀ {id : NodeId}, id < t.size → t.FitsIn depth id → (∀ x, t.Within id x → Stable p t x) →
      ∀ run : Run, run.tree = t → Idle (p.resolveTo depth id) run := by
  induction depth with
  | zero => exact fun _ hfit => absurd hfit id
  | succ depth ih =>
    rintro id hid hfit hs run rfl
    have henter := idle_enter h hid (hs id .refl) fun c hc hk =>
      ((hs c (Within.refl.child hc)).ruled (isElement_iff.2 hk)).placed hk
    obtain ⟨a, next, hok, ht, hc⟩ := henter.bind (f := fun _ => getTree >>= fun t =>
      (t.children id).forM (p.resolveTo depth) >>= fun _ =>
        if t.isElement id then modifyContext (·.popAncestor.2) else pure ())
      fun _ run₁ _ ht₁ => by
        refine (Idle.getTree run₁).bind fun t _ ht _ => ?_
        cases ht
        rw [ht₁]
        refine (Idle.forM (fun i hi run' ht' => ?_) run₁ ht₁).bind fun _ run₂ _ _ => ?_
        · exact ih (h.lt_of_mem hi) (hfit i hi)
            (fun x hx => hs x ((Within.refl.child hi).trans hx)) run' ht'
        · split
          · exact .modifyContext _ _
          · exact .pure () _
    exact ⟨a, next, (p.resolveTo_succ depth id run).trans hok, ht, hc⟩

end Steps

end PageSlots.Page
