import PageSlots.Proofs.Page.Agreement
import PageSlots.Proofs.Page.NormalForm
import PageSlots.Proofs.Slot.Spelling

/-!
# The pass over alike contents

The first pass is run on two contents that are the same but for the
spelling of markers. The runs go in parallel: step by step both return or
both fail with the same fault, having called the renderer and told alike
(`Parallel`). What a step looks at is either the same in both contents –
the tag and the attributes of the node that is visited, because its own
marker has been normalized before the visit – or does not depend on the
spelling: which slots the children fill, and what a heading says.

A visit leaves contents that are alike inside, and normalizing the children
levels one more spelling on each side. At the bottom nothing is left to
differ, so the pass over contents that are alike inside is one and the same
step (`resolveTo_eq_of_alikeInside`).
-/

namespace PageSlots.Page

open PageSlots.Component PageSlots.Markup PageSlots.Markup.Content PageSlots.Markup.Tree
open PageSlots.Slot

/-! ## Parallel steps -/

/-- **Two results correspond**: both return, what they return is related,
or both fail with the same fault. -/
inductive Corresponds {ε σ α β : Type} (R : α → β → Prop) :
    EStateM.Result ε σ α → EStateM.Result ε σ β → Prop where
  /-- Both return. -/
  | ok {a : α} {b : β} {s : σ} : R a b → Corresponds R (.ok a s) (.ok b s)
  /-- Both fail. -/
  | error {e : ε} {s : σ} : Corresponds R (.error e s) (.error e s)

/-- **Two steps run in parallel**: from the same start their results
correspond. -/
def Parallel {α β : Type} (R : α → β → Prop) (x : ValueM α) (y : ValueM β) : Prop :=
  ∀ notes, Corresponds R (x notes) (y notes)

namespace Parallel

variable {α β γ δ : Type} {R : α → β → Prop} {S : γ → δ → Prop} {x : ValueM α} {y : ValueM β}

theorem pure {a : α} {b : β} (h : R a b) : Parallel R (Pure.pure a) (Pure.pure b) :=
  fun _ => .ok h

/-- A step runs in parallel with itself. -/
theorem refl {R : α → α → Prop} (h : ∀ a, R a a) (x : ValueM α) : Parallel R x x := by
  intro notes
  cases x notes with
  | ok a s => exact .ok (h a)
  | error e s => exact .error

/-- **Parallel steps one after the other.** -/
theorem bind (h : Parallel R x y) {f : α → ValueM γ} {g : β → ValueM δ}
    (hf : ∀ a b, R a b → Parallel S (f a) (g b)) : Parallel S (x >>= f) (y >>= g) := by
  intro notes
  have h := h notes
  cases hx : x notes with
  | ok a s =>
    rw [hx] at h
    cases hy : y notes with
    | ok b s' =>
      rw [hy] at h
      rw [bind_of_ok hx, bind_of_ok hy]
      cases h with
      | ok hab => exact hf a b hab s
    | error e s' =>
      rw [hy] at h
      cases h
  | error e s =>
    rw [hx] at h
    cases hy : y notes with
    | ok b s' =>
      rw [hy] at h
      cases h
    | error e' s' =>
      rw [hy] at h
      rw [bind_of_error hx, bind_of_error hy]
      cases h
      exact .error

/-- The same step in front. -/
theorem bind_same {x : ValueM α} {f : α → ValueM γ} {g : α → ValueM δ}
    (hf : ∀ a, Parallel S (f a) (g a)) : Parallel S (x >>= f) (x >>= g) :=
  (refl (R := Eq) (fun _ => rfl) x).bind fun a _ h => h ▸ hf a

/-- Steps that correspond by equality are the same. -/
theorem eq {x y : ValueM α} (h : Parallel Eq x y) : x = y := by
  funext notes
  have h := h notes
  generalize x notes = r at h
  generalize y notes = r' at h
  cases h with
  | ok hab => rw [hab]
  | error => rfl

end Parallel

section Visit

variable {p : Processor} {renderer : Renderer} {rule : Rule} {c c' : Content}
variable {cs cs' : List Content}

/-! ## Regions and headings -/

/-- A region is rendered from what alike contents have in common. -/
theorem parallel_renderRegion (h : c.AlikeInside c') :
    Parallel AlikeInside (Value.renderRegion p c) (Value.renderRegion p c') := by
  cases h with
  | @node cs cs' o hcs hr =>
    cases hregion : regionOf o.tag with
    | none =>
      rw [Value.renderRegion, Value.renderRegion, own_node, own_node, hregion]
      exact .pure (.node o hcs hr)
    | some region =>
      rw [hr (by simp [hregion])]
      exact .refl .refl _

/-- Both headings get the same id. -/
theorem parallel_headingId (h : c.AlikeInside c') :
    Parallel (fun a b => a.1 = b.1 ∧ a.2.AlikeInside b.2) (Value.headingId c)
      (Value.headingId c') := by
  unfold Value.headingId
  rw [h.own_eq, h.alike.textContent_eq]
  refine .bind_same fun notes => ?_
  cases c'.own.attr? "id" with
  | some written =>
    dsimp only
    refine .bind_same fun _ => ?_
    split
    · exact .pure ⟨rfl, h⟩
    · exact .bind_same fun _ => .pure ⟨rfl, h⟩
  | none =>
    dsimp only
    refine .bind_same fun _ => ?_
    cases (notes.context.uniqueHeadingId (decodeReferences c'.textContent)).1 with
    | none => exact .pure ⟨rfl, h⟩
    | some made => exact .pure ⟨rfl, h.mapOwn fun _ => rfl⟩

/-- Alike contents begin with an anchor or do not. -/
theorem hasAnchor_eq_of_alike (h : List.Forall₂ Alike cs cs') (anchorClass : String) :
    Value.hasAnchor anchorClass cs = Value.hasAnchor anchorClass cs' := by
  cases h with
  | nil => rfl
  | @cons d d' ds ds' hd _ =>
    show (d.own.isElement && decide (d.own.attr? "class" = some anchorClass))
      = (d'.own.isElement && decide (d'.own.attr? "class" = some anchorClass))
    rw [Own.isElement, Own.isElement, hd.own.kind_eq, hd.own.attr?_eq (by decide) (by decide)]

/-- Both headings get the same anchor. -/
theorem parallel_anchorHeading (h : c.AlikeInside c') :
    Parallel AlikeInside (Value.anchorHeading p.anchorClass c)
      (Value.anchorHeading p.anchorClass c') := by
  unfold Value.anchorHeading
  refine (parallel_headingId h).bind ?_
  rintro ⟨made, d⟩ ⟨made', d'⟩ ⟨rfl, hd⟩
  dsimp only at hd ⊢
  cases made with
  | none => exact .pure hd
  | some made =>
    dsimp only
    rw [hasAnchor_eq_of_alike hd.children]
    split
    · exact .pure hd
    · exact .pure (hd.mapChildren fun ds ds' hds => .cons (Alike.refl _) hds)

/-! ## Rules -/

/-- Alike contents fill the same slots. -/
theorem filled_eq (h : c.AlikeInside c') : Value.filled c = Value.filled c' := by
  funext slot
  have hcs := h.children
  unfold Value.filled
  rw [List.any_map, List.any_map]
  generalize c.children = cs at hcs
  generalize c'.children = cs' at hcs
  induction hcs with
  | nil => rfl
  | cons hd _ ih =>
    rw [List.any_cons, List.any_cons, ih]
    show (decide (_ = _) || _) = (decide (_ = _) || _)
    rw [hd.own.slotName_eq]

/-- A promotion adds the same template to both. -/
theorem parallel_promote (index : Nat) (promotion : Promotion) (h : c.AlikeInside c') :
    Parallel (fun a b => a.1 = b.1 ∧ a.2.AlikeInside b.2)
      (Value.promote renderer index promotion c) (Value.promote renderer index promotion c') := by
  have htaken := h.mapOwn (f := Own.removeAttr promotion.attr) fun _ => rfl
  have hlength := h.children.length_eq
  unfold Value.promote
  dsimp only
  rw [filled_eq htaken, own_mapOwn, own_mapOwn, h.own_eq, children_mapOwn, children_mapOwn, hlength]
  split
  · split
    · exact .bind_same fun _ => .pure ⟨rfl, htaken⟩
    · exact .pure ⟨rfl, htaken⟩
  · split
    · exact .pure ⟨rfl, htaken⟩
    · refine .bind_same fun markup => .bind_same fun cs => .bind_same fun _ => .pure ⟨rfl, ?_⟩
      have hadded := htaken.mapChildren fun ds ds' (hds : List.Forall₂ Alike ds ds') =>
        forall₂_insertIdx hds (Alike.refl (Value.template promotion.slot cs))
          (min index c'.children.length)
      rw [own_mapOwn, own_mapOwn, h.own_eq] at hadded
      exact hadded

theorem parallel_promoteAll (promotions : List Promotion) : ∀ (index : Nat) {c c' : Content},
    c.AlikeInside c' → Parallel AlikeInside (Value.promoteAll renderer index promotions c)
      (Value.promoteAll renderer index promotions c') := by
  induction promotions with
  | nil => exact fun _ _ _ h => .pure h
  | cons promotion promotions ih =>
    intro index c c' h
    refine (parallel_promote index promotion h).bind ?_
    rintro ⟨added, d⟩ ⟨added', d'⟩ ⟨rfl, hd⟩
    exact ih _ hd

section Slots

variable {renames : List Rename} (hr : ∀ r ∈ renames, r.target ≠ "")
include hr

/-- Alike children stay so when old slot names are replaced. -/
theorem alike_renameSlots (h : List.Forall₂ Alike cs cs') :
    List.Forall₂ Alike (Value.renameSlots renames cs) (Value.renameSlots renames cs') := by
  unfold Value.renameSlots
  rw [List.forall₂_map_left_iff, List.forall₂_map_right_iff]
  refine h.imp fun d d' hd => ?_
  cases hd with
  | @node o o' ds ds' ho hds hregion =>
    have htag : (o.renameSlot renames).tag = o.tag := by
      rw [Own.renameSlot_eq]
    exact .node (ho.renameSlot hr) hds fun hne => hregion (htag ▸ hne)

/-- The same children are dropped, and the same is told. -/
theorem alike_explicit (h : List.Forall₂ Alike cs cs') :
    List.Forall₂ Alike (Value.explicit renames cs) (Value.explicit renames cs')
      ∧ ∀ tag, Value.slotsLog tag renames cs = Value.slotsLog tag renames cs' := by
  have hslot : ∀ d d' : Content, d.Alike d' → Value.slotOf d = Value.slotOf d' :=
    fun d d' hd => hd.own.slotName_eq
  obtain ⟨hkept, hrepeats⟩ := forall₂_keepFirst (alike_renameSlots hr h) Value.slotOf Value.slotOf
    hslot []
  refine ⟨hkept, fun tag => ?_⟩
  unfold Value.slotsLog
  rw [filterMap_eq_of_forall₂ h fun d d' hd => by rw [hd.own.renamed?_eq],
    map_eq_of_forall₂ hrepeats fun d d' hd => by rw [hslot d d' hd]]

end Slots

/-- **A rule does the same to both.** -/
theorem parallel_applyRule (hr : ∀ r ∈ rule.renames, r.target ≠ "") (h : c.AlikeInside c') :
    Parallel AlikeInside (Value.applyRule renderer rule c) (Value.applyRule renderer rule c') := by
  have hexplicit := h.mapChildren fun ds ds' hds => (alike_explicit hr hds).1
  unfold Value.applyRule
  rw [(alike_explicit hr h.children).2, h.own_eq]
  rw [h.own_eq] at hexplicit
  refine .bind_same fun _ => .bind_same fun _ => (parallel_promoteAll _ 0 hexplicit).bind
    fun d d' hd => .pure ?_
  rw [filled_eq hd]
  exact hd.mapOwn fun o => Own.applyFixups_induct (P := fun o' => o'.tag = o.tag) _ rfl
    fun _ _ _ ho => ho

/-! ## The pass -/

variable (hrules : ∀ rule ∈ p.rules, ∀ r ∈ rule.renames, r.target ≠ "")
include hrules

/-- **A visit does the same to both.** -/
theorem parallel_visit (h : c.AlikeInside c') :
    Parallel AlikeInside (Value.visit p c) (Value.visit p c') := by
  have happly : ∀ d d' : Content, d.AlikeInside d' →
      Parallel AlikeInside (Value.applyRules p d) (Value.applyRules p d') := fun d d' hd => by
    unfold Value.applyRules
    rw [hd.own_eq]
    cases hf : p.rules.find d'.own.tag with
    | none => exact .pure hd
    | some rule => exact parallel_applyRule (hrules rule (List.mem_of_find?_eq_some hf)) hd
  unfold Value.visit Value.visitElement
  rw [h.own_eq]
  split
  · refine (parallel_renderRegion h).bind fun d d' hd => ?_
    rw [hd.own_eq]
    dsimp only
    split
    · exact (parallel_anchorHeading hd).bind happly
    · exact happly d d' hd
  · exact .pure h

/-- **The pass over contents that are alike inside** is the same step. -/
theorem resolveTo_eq_of_alikeInside (depth : Nat) : ∀ {c c' : Content}, c.AlikeInside c' →
    Value.resolveTo p depth c = Value.resolveTo p depth c' := by
  induction depth with
  | zero => exact fun _ => rfl
  | succ depth ih =>
    intro c c' h
    refine Parallel.eq ?_
    unfold Value.resolveTo
    refine (parallel_visit hrules h).bind fun d d' hd => ?_
    cases hd with
    | @node cs cs' o hcs hregion =>
      clear hregion
      have hkids : (cs.map Content.normalize).mapM (Value.resolveTo p depth)
          = (cs'.map Content.normalize).mapM (Value.resolveTo p depth) := by
        induction hcs with
        | nil => rfl
        | cons hd _ ihcs =>
          rw [List.map_cons, List.map_cons, List.mapM_cons, List.mapM_cons, ihcs, ih hd.normalize]
      unfold Value.descend
      simp only [own_node, children_node, hkids]
      exact .refl (fun _ => rfl) _

end Visit

end PageSlots.Page
