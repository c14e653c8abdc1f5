import PageSlots.Proofs.Page.Budget
import PageSlots.Proofs.Page.Visits

/-!
# How deep the pass has to go

The pass goes into what it makes itself: wrappers, templates, and all that
the renderer answers. So there is no bound on the depth in the page alone.
That the pass ends nevertheless has two reasons. Where a visit calls the
renderer, or could have done so, the children are left with a smaller
budget than the node had (`KeepsBudget`). Where it could not, what hangs
from the node is what hung there, and normalizing it makes it no heavier:
a wrapper weighs no more than the marker that it takes, and an anchor no
more than being a heading. The weight of a child is then smaller than that
of the node.

So the pair of budget and weight decreases at every level, and the pass
over a content `Settles`: from some depth on the depth does not matter. The
depth is not computed, and cannot be without the answers of the renderer.

A pass over a tree that has been deep enough does the same when it may go
deeper (`deepens_resolveTo`).
-/

namespace PageSlots.Markup

open PageSlots.Slot

namespace Own

variable {o : Own} {name : String}

/-- How many markers of either kind a node has. -/
def marks (o : Own) : Nat :=
  o.attrs.countP fun a => isMarker a.name || a.name = legacyName

/-- **The weight of a node**: it counts for itself, for the anchor that it
gets as a heading, and for the wrappers that its markers make. A `template`
keeps its markers. -/
def weight (o : Own) : Nat :=
  1 + (if o.isHeading then 1 else 0) + if o.tag = wrapperTag then 0 else o.marks

theorem weight_pos (o : Own) : 0 < o.weight := by
  unfold weight
  omega

theorem marks_removeAttr_le (name : String) (o : Own) : (o.removeAttr name).marks ≤ o.marks :=
  List.eraseP_sublist.countP_le

theorem marks_migrate_le (o : Own) : o.migrate.marks ≤ o.marks := by
  by_cases hk : o.kind = .element
  · rcases migrate_cases hk with ⟨-, h⟩ | ⟨_, -, -, h⟩
      | ⟨slot, pre, post, -, hne, -, hattrs, hmig, -, -⟩
    · exact Nat.le_of_eq (congrArg marks h)
    · rw [h]
      exact marks_removeAttr_le _ o
    · -- one marker in the place of the other
      rw [marks, marks, hattrs, hmig, List.countP_append, List.countP_append, List.countP_cons,
        List.countP_cons]
      simp [isMarker_marker hne]
  · exact Nat.le_of_eq (congrArg marks (if_neg hk))

/-- Taking off a marker takes something off. -/
theorem marks_removeAttr_lt (h : o.marker? = some name) : (o.removeAttr name).marks < o.marks := by
  obtain ⟨pre, a, post, hattrs, rfl, ha, hpre⟩ := findMarker_eq_some_iff.1 h
  rw [marks, marks, attrs_removeAttr_append hattrs (notMem_of_isMarker ha hpre), hattrs,
    List.countP_append, List.countP_append, List.countP_cons, if_pos (by simp [ha])]
  omega

theorem weight_migrate_le (o : Own) : o.migrate.weight ≤ o.weight := by
  have hm := marks_migrate_le o
  have hh : o.migrate.isHeading = o.isHeading := by
    rw [migrate_eq o]
    rfl
  have ht : o.migrate.tag = o.tag := by
    rw [migrate_eq o]
  unfold weight
  rw [hh, ht]
  refine Nat.add_le_add_left ?_ _
  split
  · exact Nat.le_refl 0
  · exact hm

/-- **A wrapper weighs no more than its marker.** -/
theorem weight_wrapper_add_le (h : o.movedMarker? = some name) :
    (wrapper name).weight + (o.removeAttr name).weight ≤ o.weight := by
  obtain ⟨⟨-, ht⟩, hmark⟩ := movedMarker?_eq_some_iff.1 h
  have hm := marks_removeAttr_lt hmark
  have hw : (wrapper name).weight = 1 := rfl
  rw [hw]
  unfold weight
  rw [if_neg ht, if_neg (show (o.removeAttr name).tag ≠ wrapperTag from ht)]
  have hh : (o.removeAttr name).isHeading = o.isHeading := rfl
  rw [hh]
  omega

end Own

end PageSlots.Markup

namespace PageSlots.Page

open PageSlots.Component PageSlots.Markup PageSlots.Markup.Content PageSlots.Slot

/-! ## What decreases -/

section Decrease

variable {p : Processor} {c d : Content}

/-- **One content is smaller than another**: it has a smaller budget, or
the same one and less weight. -/
def Smaller (table : RuleTable) (d c : Content) : Prop :=
  Prod.Lex (· < ·) (· < ·) (d.total (budget table), d.total Own.weight)
    (c.total (budget table), c.total Own.weight)

theorem wellFounded_smaller (table : RuleTable) : WellFounded (Smaller table) :=
  InvImage.wf (fun c : Content => (c.total (budget table), c.total Own.weight))
    (Prod.lex Nat.lt_wfRel Nat.lt_wfRel).wf

theorem smaller_of_lt {table : RuleTable}
    (h : d.total (budget table) < c.total (budget table)) : Smaller table d c :=
  .left _ _ h

theorem smaller_of_le {table : RuleTable}
    (h : d.total (budget table) ≤ c.total (budget table))
    (hw : d.total Own.weight < c.total Own.weight) : Smaller table d c := by
  rcases Nat.lt_or_eq_of_le h with h | h
  · exact .left _ _ h
  · unfold Smaller
    rw [h]
    exact .right _ hw

/-- An anchor has no markers. -/
theorem weight_anchor (anchorClass id : String) : (Value.anchor anchorClass id).weight = 1 := by
  have hattrs : (Value.anchor anchorClass id).attrs = [⟨"id", id⟩, ⟨"class", anchorClass⟩] := rfl
  have hmarks : (Value.anchor anchorClass id).marks = 0 := by
    rw [Own.marks, hattrs]
    simp [show isMarker "id" = false by decide, show isMarker "class" = false by decide, legacyName]
  rw [Own.weight, hmarks]
  rfl

/-- **What a visit leaves at a node is smaller** once it is normalized. -/
theorem LeftBehind.smaller (h : LeftBehind p c d) (ht : Frugal p.rules) :
    Smaller p.rules d.normalize c := by
  have hbudget := total_normalize_budget_le ht d
  have hweight : d.normalize.total Own.weight ≤ d.total Own.weight :=
    total_normalize_le Own.weight_migrate_le (fun _ _ => Own.weight_wrapper_add_le) d
  rcases h with hd | ⟨hh, id, rfl⟩ | hlt
  · have hb := total_le_totals (f := budget p.rules) hd
    have hw := total_le_totals (f := Own.weight) hd
    have hpos := Own.weight_pos c.own
    refine smaller_of_le ?_ ?_
    · rw [total_eq _ c]
      omega
    · rw [total_eq _ c]
      omega
  · rw [total_anchor ht] at hbudget
    have hanchor : (Content.node (Value.anchor p.anchorClass id) []).total Own.weight = 1 := by
      rw [total_node, totals_nil, weight_anchor]
    have hheading : 1 < c.own.weight := by
      unfold Own.weight
      rw [if_pos hh]
      omega
    refine smaller_of_le (Nat.le_trans hbudget (Nat.zero_le _)) ?_
    rw [total_eq _ c]
    omega
  · exact smaller_of_lt (Nat.lt_of_le_of_lt hbudget hlt)

end Decrease

/-! ## Steps that settle -/

/-- **A step has come to a page that is too deep for it.** -/
def TooDeep {σ α : Type} (r : EStateM.Result PageFault σ α) : Prop :=
  ∃ s, r = .error .tooDeep s

theorem not_tooDeep_ok {σ α : Type} (a : α) (s : σ) :
    ¬ TooDeep (.ok a s : EStateM.Result PageFault σ α) := by
  rintro ⟨_, h⟩
  cases h

theorem tooDeep_error_iff {σ α : Type} {fault : PageFault} {s : σ} :
    TooDeep (.error fault s : EStateM.Result PageFault σ α) ↔ fault = .tooDeep := by
  refine ⟨fun ⟨_, h⟩ => ?_, fun h => ⟨s, h ▸ rfl⟩⟩
  cases h
  rfl

/-- **A step that depends on a depth settles**, wherever it begins: from
some depth on it is deep enough, and does the same at every depth. -/
def Settles {α : Type} (x : Nat → ValueM α) : Prop :=
  ∀ notes, ∃ depth, ¬ TooDeep (x depth notes) ∧ ∀ d ≥ depth, x d notes = x depth notes

namespace Settles

variable {α β : Type} {x : Nat → ValueM α} {f : Nat → α → ValueM β} {k : Nat} {Q : α → Prop}

/-- A step that does not depend on the depth. -/
theorem const {y : ValueM α} (h : Spends (· ≠ .tooDeep) k Q y) : Settles fun _ => y := by
  refine fun notes => ⟨0, ?_, fun _ _ => rfl⟩
  have hy := h notes
  dsimp only
  cases hr : y notes with
  | ok a next => exact not_tooDeep_ok a next
  | error fault next =>
    rw [hr] at hy
    exact fun hd => hy.2 (tooDeep_error_iff.1 hd)

/-- One level more or less does not matter. -/
theorem of_succ (h : Settles fun d => x (d + 1)) : Settles x := by
  intro notes
  obtain ⟨depth, hdeep, hsame⟩ := h notes
  refine ⟨depth + 1, hdeep, fun d hd => ?_⟩
  obtain ⟨d, rfl⟩ : ∃ e, d = e + 1 := ⟨d - 1, by omega⟩
  exact hsame d (Nat.le_of_succ_le_succ hd)

/-- **Steps that settle, one after the other.** What follows needs to
settle only for what the first step returns. -/
theorem bind_of_returned (h : Settles x)
    (hf : ∀ a, (∃ d notes next, x d notes = .ok a next) → Settles fun d => f d a) :
    Settles fun d => x d >>= f d := by
  intro notes
  obtain ⟨depth, hdeep, hsame⟩ := h notes
  cases hx : x depth notes with
  | error fault next =>
    rw [hx] at hdeep hsame
    refine ⟨depth, ?_, fun d hd => ?_⟩
    · dsimp only
      rw [bind_of_error hx]
      exact fun hd => hdeep (tooDeep_error_iff.2 (tooDeep_error_iff.1 hd))
    · dsimp only
      rw [bind_of_error hx, bind_of_error (hsame d hd)]
  | ok a next =>
    rw [hx] at hsame
    obtain ⟨depth', hdeep', hsame'⟩ := hf a ⟨depth, notes, next, hx⟩ next
    have hmax : ∀ d ≥ max depth depth', (x d >>= f d) notes = f depth' a next := fun d hd => by
      rw [bind_of_ok (hsame d (Nat.le_trans (Nat.le_max_left _ _) hd))]
      exact hsame' d (Nat.le_trans (Nat.le_max_right _ _) hd)
    refine ⟨max depth depth', ?_, fun d hd => ?_⟩
    · dsimp only
      rw [hmax _ (Nat.le_refl _)]
      exact hdeep'
    · dsimp only
      rw [hmax d hd, hmax _ (Nat.le_refl _)]

theorem bind (h : Settles x) (hf : ∀ a, Settles fun d => f d a) :
    Settles fun d => x d >>= f d :=
  h.bind_of_returned fun a _ => hf a

/-- A first step that does not depend on the depth. -/
theorem const_bind {y : ValueM α} (h : Spends (· ≠ .tooDeep) k Q y)
    (hf : ∀ a, Q a → Settles fun d => f d a) : Settles fun d => y >>= f d := by
  refine (const h).bind_of_returned fun a ⟨_, notes, next, ha⟩ => hf a ?_
  have hy := h notes
  rw [ha] at hy
  exact hy.2

/-- A step for each of several contents. -/
theorem mapM {g : Nat → Content → ValueM Content} {cs : List Content}
    (h : ∀ c ∈ cs, Settles fun d => g d c) : Settles fun d => cs.mapM (g d) := by
  induction cs with
  | nil => exact const (Spends.pure (k := 0) (Q := fun _ => True) trivial)
  | cons c cs ih =>
    simp only [List.mapM_cons]
    refine (h c List.mem_cons_self).bind fun c' => ?_
    refine (ih fun d hd => h d (List.mem_cons_of_mem c hd)).bind fun cs' => ?_
    exact const (Spends.pure (k := 0) (Q := fun _ => True) trivial)

end Settles

section Pass

variable {p : Processor}

/-- **The pass over a content settles.** The induction is on the pair of
budget and weight. -/
theorem settles_resolveTo (hr : PlainRenderer p.rules p.renderer) (ht : Frugal p.rules)
    (c : Content) : Settles fun d => Value.resolveTo p d c := by
  induction c using (wellFounded_smaller p.rules).induction with
  | _ c ih =>
    refine .of_succ (.const_bind (spends_visit hr ht c) fun c' hc' => ?_)
    have hkids : ∀ e ∈ c'.children.map Content.normalize,
        Settles fun d => Value.resolveTo p d e := fun e he => by
      obtain ⟨d, hd, rfl⟩ := List.mem_map.1 he
      exact ih d.normalize ((hc'.leftBehind d hd).smaller ht)
    unfold Value.descend
    split
    · refine .const_bind (spends_modifyContext _) fun _ _ => ?_
      refine (Settles.mapM hkids).bind fun cs => .const_bind (spends_modifyContext _) fun _ _ => ?_
      exact .const (Spends.pure (k := 0) (Q := fun _ => True) trivial)
    · refine (Settles.mapM hkids).bind fun cs => ?_
      exact .const (Spends.pure (k := 0) (Q := fun _ => True) trivial)

end Pass

/-! ## Going deeper -/

/-- **One step does the same as another unless the other is not deep
enough.** -/
def Deepens {α : Type} (x y : PageM α) : Prop :=
  ∀ run, TooDeep (x run) ∨ y run = x run

namespace Deepens

variable {α β : Type} {x y z : PageM α} {f g : α → PageM β}

theorem refl (x : PageM α) : Deepens x x := fun _ => .inr rfl

theorem trans (h : Deepens x y) (h' : Deepens y z) : Deepens x z := by
  intro run
  rcases h run with h | h
  · exact .inl h
  · rw [← h]
    exact h' run

theorem bind (h : Deepens x y) (hf : ∀ a, Deepens (f a) (g a)) :
    Deepens (x >>= f) (y >>= g) := by
  intro run
  rcases h run with h | h
  · obtain ⟨mid, hx⟩ := h
    exact .inl ⟨mid, bind_of_error hx f⟩
  · cases hx : x run with
    | ok a mid =>
      rw [bind_of_ok hx, bind_of_ok (h.trans hx)]
      exact hf a mid
    | error fault mid =>
      rw [bind_of_error hx, bind_of_error (h.trans hx)]
      exact .inr rfl

theorem forM {f g : NodeId → PageM Unit} (h : ∀ id, Deepens (f id) (g id)) (ids : List NodeId) :
    Deepens (ids.forM f) (ids.forM g) := by
  induction ids with
  | nil => exact refl _
  | cons id ids ih => exact (h id).bind fun _ => ih

end Deepens

/-- **The pass may go deeper** if it is deep enough. -/
theorem deepens_resolveTo (p : Processor) {depth depth' : Nat} (h : depth ≤ depth')
    (id : NodeId) : Deepens (p.resolveTo depth id) (p.resolveTo depth' id) := by
  have hstep : ∀ (depth : Nat) (id : NodeId),
      Deepens (p.resolveTo depth id) (p.resolveTo (depth + 1) id) := by
    intro depth
    induction depth with
    | zero => exact fun _ run => .inl ⟨run, rfl⟩
    | succ depth ih =>
      intro id run
      rw [p.resolveTo_succ, p.resolveTo_succ]
      exact ((Deepens.refl _).bind fun _ => (Deepens.refl _).bind fun t =>
        (Deepens.forM ih _).bind fun _ => .refl _) run
  induction h with
  | refl => exact .refl _
  | step _ ih => exact ih.trans (hstep _ id)

end PageSlots.Page
