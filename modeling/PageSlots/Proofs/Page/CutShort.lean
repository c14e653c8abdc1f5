import PageSlots.Proofs.Page.Agreement
import PageSlots.Proofs.Page.Visits

/-!
# A run that is cut short

A renderer that fails at one call makes no difference before it, and ends
the run there: what has been called up to that moment is what would have
been called anyway, and nothing is called afterwards.

This is a statement about two runs, one with the renderer and one with the
renderer that fails. They go side by side as long as the call has not been
made, from the same state to the same state; later calls depend on what
earlier ones gave, but so they do in both runs. `CutShort` tells it of a
step, and that it goes along with steps one after the other is the whole
argument (`CutShort.bind`): once the second run has failed, whatever the
first one does next only adds calls behind those that the second one has
made.
-/

namespace PageSlots.Page

open PageSlots.Component PageSlots.Markup PageSlots.Markup.Tree

/-- The calls of the renderer after a step, whether it returns or fails. -/
def callsAfter {α : Type} : EStateM.Result PageFault Run α → List RenderCall
  | .ok _ run => run.calls
  | .error _ run => run.calls

/-- **A result is cut at a call** that fails with an error: it is the same
result if the call has not been made, or else the error right after that
call. -/
inductive CutAt (k : Nat) (e : RenderError) {α : Type} (r : EStateM.Result PageFault Run α) :
    EStateM.Result PageFault Run α → Prop where
  /-- The call has not been made. -/
  | unreached : (callsAfter r).length ≤ k → CutAt k e r r
  /-- The call has been made, and was the last one. -/
  | reached (run : Run) : k < (callsAfter r).length → run.calls = (callsAfter r).take (k + 1) →
      CutAt k e r (.error (.render e) run)

/-- **A step is cut short by another** that is to fail at a call. -/
structure CutShort (k : Nat) (e : RenderError) {α : Type} (x y : PageM α) : Prop where
  /-- No call is forgotten. -/
  isPrefix_calls : ∀ run, run.calls <+: callsAfter (x run)
  /-- From where the call has not been made, the result is cut. -/
  cutAt : ∀ run, run.calls.length ≤ k → CutAt k e (x run) (y run)

namespace CutShort

variable {k : Nat} {e : RenderError} {α β : Type} {x y : PageM α} {f g : α → PageM β}

/-- A step without a call is not cut. -/
theorem of_calls_eq (h : ∀ run, callsAfter (x run) = run.calls) : CutShort k e x x where
  isPrefix_calls run := (h run).symm ▸ List.prefix_rfl
  cutAt run hk := .unreached (by rwa [h])

theorem pure (a : α) : CutShort k e (Pure.pure a) (Pure.pure a) :=
  .of_calls_eq fun _ => rfl

/-- What a prefix has enough of is taken from it. -/
private theorem take_eq_of_prefix {l m : List RenderCall} (h : l <+: m) (hk : k < l.length) :
    m.take (k + 1) = l.take (k + 1) := by
  obtain ⟨rest, rfl⟩ := h
  exact List.take_append_of_le_length hk

/-- **Steps that are cut short, one after the other.** -/
theorem bind (h : CutShort k e x y) (hf : ∀ a, CutShort k e (f a) (g a)) :
    CutShort k e (x >>= f) (y >>= g) := by
  -- what follows a step only adds calls
  have hafter : ∀ run, callsAfter (x run) <+: callsAfter ((x >>= f) run) := fun run => by
    cases hx : x run with
    | ok a mid => rw [bind_of_ok hx]; exact (hf a).isPrefix_calls mid
    | error fault mid => rw [bind_of_error hx]; exact List.prefix_rfl
  refine ⟨fun run => (h.isPrefix_calls run).trans (hafter run), fun run hk => ?_⟩
  have hadded := hafter run
  have hcut := h.cutAt run hk
  generalize hy : y run = s at hcut
  cases hcut with
  | unreached hle =>
    cases hx : x run with
    | ok a mid =>
      rw [hx] at hy hle
      rw [bind_of_ok hx, bind_of_ok hy]
      exact (hf a).cutAt mid hle
    | error fault mid =>
      rw [hx] at hy hle
      rw [bind_of_error hx, bind_of_error hy]
      exact .unreached hle
  | reached mid hlt hcalls =>
    rw [bind_of_error hy]
    refine .reached mid (Nat.lt_of_lt_of_le hlt hadded.length_le) ?_
    rw [hcalls, take_eq_of_prefix hadded hlt]

/-- A step without a call in front. -/
theorem bind_quiet (h : ∀ run, callsAfter (x run) = run.calls)
    (hf : ∀ a, CutShort k e (f a) (g a)) : CutShort k e (x >>= f) (x >>= g) :=
  (of_calls_eq h).bind hf

/-- A step for each of several nodes. -/
theorem forM {f g : NodeId → PageM Unit} (h : ∀ id, CutShort k e (f id) (g id))
    (ids : List NodeId) : CutShort k e (ids.forM f) (ids.forM g) := by
  induction ids with
  | nil => exact pure ()
  | cons id ids ih => exact (h id).bind fun _ => ih

end CutShort

section Steps

variable {k : Nat} {e : RenderError} {r : Renderer}

/-- **A call of the renderer that fails** is the last one. -/
theorem cutShort_render (mode : RenderMode) (source : String) :
    CutShort k e (render r mode source) (render (r.failingAt k e) mode source) := by
  have hcalls : ∀ run, callsAfter (render r mode source run) = run.calls ++ [⟨mode, source⟩] :=
    fun run => by
      unfold render
      dsimp only
      split <;> rfl
  refine ⟨fun run => ⟨_, (hcalls run).symm⟩, fun run hk => ?_⟩
  by_cases hlast : run.calls.length = k
  · have hfails : render (r.failingAt k e) mode source run
        = .error (.render e) { run with calls := run.calls ++ [⟨mode, source⟩] } := by
      unfold render Renderer.failingAt
      dsimp only
      rw [if_pos hlast]
    rw [hfails]
    refine .reached _ ?_ ?_
    · rw [hcalls, List.length_append, hlast]
      exact Nat.lt_succ_self k
    · rw [hcalls, List.take_of_length_le]
      rw [List.length_append, hlast]
      exact Nat.le_refl _
  · have hsame : render (r.failingAt k e) mode source run = render r mode source run := by
      unfold render Renderer.failingAt
      dsimp only
      rw [if_neg hlast]
    rw [hsame]
    refine .unreached ?_
    rw [hcalls, List.length_append]
    exact Nat.lt_of_le_of_ne hk hlast

theorem callsAfter_readInto (parent : NodeId) (markup : String) (run : Run) :
    callsAfter (readInto parent markup run) = run.calls := by
  unfold readInto
  dsimp only
  split <;> rfl

theorem callsAfter_anchorHeading (anchorClass : String) (id : NodeId) (run : Run) :
    callsAfter (anchorHeading anchorClass id run) = run.calls := by
  have hid : callsAfter (headingId id run) = run.calls := by
    unfold headingId
    rw [bind_of_ok (get_eq run)]
    cases run.tree.attr? id "id" with
    | some written =>
      dsimp only
      cases (run.context.registerHeadingId written).1 <;> rfl
    | none =>
      dsimp only
      cases (run.context.uniqueHeadingId (decodeReferences (run.tree.textContent id))).1 <;> rfl
  unfold anchorHeading
  cases hr : headingId id run with
  | error fault mid =>
    rw [hr] at hid
    rw [bind_of_error hr]
    exact hid
  | ok made mid =>
    rw [hr] at hid
    rw [bind_of_ok hr]
    cases made with
    | none => exact hid
    | some made => exact hid

theorem callsAfter_checkPlace (id : NodeId) (rule : Rule) (run : Run) :
    callsAfter (checkPlace id rule run) = run.calls := by
  unfold checkPlace
  rw [bind_of_ok (get_eq run)]
  split <;> rfl

/-- A promotion renders once at most. -/
theorem cutShort_promote (id : NodeId) (index : Nat) (promotion : Promotion) :
    CutShort k e (promote r id index promotion) (promote (r.failingAt k e) id index promotion) := by
  unfold promote
  refine .bind_quiet (fun _ => rfl) fun value => .bind_quiet (fun _ => rfl) fun t => ?_
  split
  · split
    · exact .bind_quiet (fun _ => rfl) fun _ => .pure false
    · exact .pure false
  · split
    · exact .pure false
    · refine (cutShort_render _ _).bind fun markup => .bind_quiet (fun _ => rfl) fun template => ?_
      refine .bind_quiet (callsAfter_readInto template markup) fun _ => ?_
      exact .bind_quiet (fun _ => rfl) fun _ => .bind_quiet (fun _ => rfl) fun _ => .pure true

theorem cutShort_promoteAll (id : NodeId) (promotions : List Promotion) : ∀ index : Nat,
    CutShort k e (promoteAll r id index promotions)
      (promoteAll (r.failingAt k e) id index promotions) := by
  induction promotions with
  | nil => exact fun _ => .pure ()
  | cons promotion promotions ih =>
    exact fun index => (cutShort_promote id index promotion).bind fun _ => ih _

theorem cutShort_applyRule (id : NodeId) (rule : Rule) :
    CutShort k e (applyRule r id rule) (applyRule (r.failingAt k e) id rule) := by
  unfold applyRule
  refine .bind_quiet (callsAfter_checkPlace id rule) fun _ => .bind_quiet (fun _ => rfl) fun _ =>
    .bind_quiet (fun _ => rfl) fun _ => ?_
  exact (cutShort_promoteAll id rule.promotions 0).bind fun _ => .of_calls_eq fun _ => rfl

end Steps

namespace Processor

/-- The processor whose renderer fails at one call. -/
def failingAt (p : Processor) (k : Nat) (e : RenderError) : Processor :=
  { p with renderer := p.renderer.failingAt k e }

variable (p : Processor) (k : Nat) (e : RenderError)

theorem cutShort_renderRegion (id : NodeId) :
    CutShort k e (p.renderRegion id) ((p.failingAt k e).renderRegion id) := by
  unfold renderRegion
  refine .bind_quiet (fun _ => rfl) fun t => ?_
  split
  · exact .pure ()
  · refine (cutShort_render _ _).bind fun markup => .bind_quiet (fun _ => rfl) fun _ => ?_
    exact .of_calls_eq (callsAfter_readInto id markup)

theorem cutShort_visitElement (id : NodeId) :
    CutShort k e (p.visitElement id) ((p.failingAt k e).visitElement id) := by
  have hrules : CutShort k e (p.applyRules id) ((p.failingAt k e).applyRules id) := by
    unfold applyRules
    refine .bind_quiet (fun _ => rfl) fun t => ?_
    have hrule : (p.failingAt k e).rules.find (t.tag id) = p.rules.find (t.tag id) := rfl
    rw [hrule]
    split
    · exact .pure ()
    · exact cutShort_applyRule id _
  unfold visitElement
  refine (p.cutShort_renderRegion k e id).bind fun _ => .bind_quiet (fun _ => rfl) fun t => ?_
  dsimp only
  split
  · exact .bind_quiet (callsAfter_anchorHeading _ id) fun _ => hrules
  · exact hrules

/-- **The first pass is cut short** at a call that fails. -/
theorem cutShort_resolveTo (depth : Nat) : ∀ id : NodeId,
    CutShort k e (p.resolveTo depth id) ((p.failingAt k e).resolveTo depth id) := by
  induction depth with
  | zero => exact fun _ => .of_calls_eq fun _ => rfl
  | succ depth ih =>
    intro id
    -- going on to the children, after the element has been visited
    have hrest : CutShort k e
        (modifyTree (normalizeChildren · id) >>= fun _ => getTree >>= fun t =>
          if t.isElement id = true then
            modifyContext (·.pushAncestor (t.tag id)) >>= fun _ =>
              (t.children id).forM (p.resolveTo depth) >>= fun _ => modifyContext (·.popAncestor.2)
          else (t.children id).forM (p.resolveTo depth))
        (modifyTree (normalizeChildren · id) >>= fun _ => getTree >>= fun t =>
          if t.isElement id = true then
            modifyContext (·.pushAncestor (t.tag id)) >>= fun _ =>
              (t.children id).forM ((p.failingAt k e).resolveTo depth) >>= fun _ =>
                modifyContext (·.popAncestor.2)
          else (t.children id).forM ((p.failingAt k e).resolveTo depth)) := by
      refine .bind_quiet (fun _ => rfl) fun _ => .bind_quiet (fun _ => rfl) fun t => ?_
      split
      · exact .bind_quiet (fun _ => rfl) fun _ => (CutShort.forM ih _).bind fun _ =>
          .of_calls_eq fun _ => rfl
      · exact CutShort.forM ih _
    unfold resolveTo
    refine .bind_quiet (fun _ => rfl) fun t => ?_
    dsimp only
    split
    · exact (p.cutShort_visitElement k e id).bind fun _ => hrest
    · exact hrest

/-- The second pass does not render. -/
theorem deriveIds_failingAt : (p.failingAt k e).deriveIds = p.deriveIds := by
  have hto : ∀ depth, (p.failingAt k e).deriveIdsTo depth = p.deriveIdsTo depth := by
    intro depth
    induction depth with
    | zero => rfl
    | succ depth ih =>
      funext step id
      rw [deriveIdsTo, deriveIdsTo, ih]
      rfl
  funext t id
  rw [deriveIds, deriveIds, hto]

/-- **Processing a page is cut short** at a call that fails. -/
theorem cutShort_resolvePage (file content : String) :
    CutShort k e (p.resolvePage file content) ((p.failingAt k e).resolvePage file content) := by
  have hmarkup : CutShort k e (p.markupOf file content)
      ((p.failingAt k e).markupOf file content) := by
    unfold markupOf
    split
    · exact cutShort_render .block content
    · exact .pure content
  unfold resolvePage
  rw [deriveIds_failingAt]
  refine hmarkup.bind fun markup => .bind_quiet (fun _ => rfl) fun root => ?_
  refine .bind_quiet (callsAfter_readInto root markup) fun _ => ?_
  refine (p.cutShort_resolveTo k e p.maxDepth root).bind fun _ => ?_
  refine .bind_quiet (fun _ => rfl) fun _ => .bind_quiet (fun _ => rfl) fun _ => ?_
  exact .bind_quiet (fun _ => rfl) fun t => .pure _

end Processor

/-- **A failing render cuts the run at exactly that call.** If the renderer
fails at one call, counted from zero, and otherwise answers as before, then
the calls are those that were made before, up to this one. The page is the
error, if the call is made at all, or else what it was before. -/
theorem process_failingAt (p : Processor) (file content : String) (k : Nat) (e : RenderError) :
    let whole := p.process file content
    let cut := (p.failingAt k e).process file content
    cut.calls = whole.calls.take (k + 1)
      ∧ cut.page = if k < whole.calls.length then .error (.render e) else whole.page := by
  intro whole cut
  let start : Run := { tree := .empty, context := { file } }
  have hwhole : whole.calls = callsAfter (p.resolvePage file content start) := by
    show (p.processAfter [] file content).calls = _
    unfold Processor.processAfter
    cases p.resolvePage file content start <;> rfl
  have hcut := (p.cutShort_resolvePage k e file content).cutAt start (Nat.zero_le k)
  generalize hr : (p.failingAt k e).resolvePage file content start = result at hcut
  cases hcut with
  | unreached hle =>
    have hsame : cut = whole := by
      show (p.failingAt k e).processAfter [] file content = p.processAfter [] file content
      unfold Processor.processAfter
      rw [hr]
    rw [hsame, if_neg (Nat.not_lt_of_le (hwhole ▸ hle)),
      List.take_of_length_le (Nat.le_succ_of_le (hwhole ▸ hle))]
    exact ⟨rfl, rfl⟩
  | reached run hlt hcalls =>
    have hfails : cut = ⟨.error (.render e), run.calls, run.log⟩ := by
      show (p.failingAt k e).processAfter [] file content = _
      unfold Processor.processAfter
      rw [hr]
    rw [hfails, if_pos (hwhole ▸ hlt), hwhole]
    exact ⟨hcalls, rfl⟩

end PageSlots.Page
