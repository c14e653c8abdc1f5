import PageSlots.Proofs.Page.Derived
import PageSlots.Proofs.Page.Simulation

/-!
# What processing a page gives

Processing a page is a function of values: the markup is read into
contents, the first pass and the second one are run on them, and what is
left is written. `Value.outcome` is the page that is written this way, or
the fault, together with the calls of the renderer, and it is what
`Processor.process` gives (`process_eq_outcome`).

So whatever makes the contents of two pages the same in the end makes the
two pages the same, and nothing has to be known of trees.
-/

namespace PageSlots.Page

open PageSlots.Markup PageSlots.Markup.Content PageSlots.Markup.Tree

namespace Value

/-- The markup of a page: rendered from markdown, or as it is. -/
def markupOf (p : Processor) (file content : String) : ValueM String :=
  if isMarkdownFile file then render p.renderer .block content else return content

/-- **The first pass over a page** that hangs from a document. -/
def resolvePage (p : Processor) (file content : String) : ValueM Content := do
  let markup ← markupOf p file content
  let cs ← read markup
  resolveTo p p.maxDepth (.node { kind := .document } cs)

/-- **What is written of a page** after the second pass, without the blanks
at its ends. -/
def pageText (p : Processor) (c : Content) : String :=
  String.ofList (Text.trim ((derived p c).children.flatMap Content.written))

/-- The page after the first pass or its fault, and the calls of the
renderer. -/
def outcome (p : Processor) :
    EStateM.Result PageFault Notes Content → Except PageFault String × List RenderCall
  | .ok c notes => (.ok (pageText p c), notes.calls)
  | .error fault notes => (.error fault, notes.calls)

end Value

variable {p : Processor}

/-- The markup of a page is the same on values. -/
theorem agree_markupOf (run : Run) (h : run.tree.WellFormed) (roots : List NodeId)
    (file content : String) :
    Agree roots run.tree (fun a t b => a = b ∧ t = run.tree)
      (p.markupOf file content run) (Value.markupOf p file content run.notes) := by
  unfold Processor.markupOf Value.markupOf
  split
  · exact agree_render run h roots p.renderer .block content
  · exact .ok run h (.refl roots run.tree) ⟨rfl, rfl⟩

/-- **A page is read and resolved** under the document with number zero as
on values. -/
theorem agree_read_resolve (p : Processor) (run : Run) (htree : run.tree = Tree.empty.createDocument.2)
    (markup : String) :
    Agree [0] run.tree (fun _ t c => t.Shows 0 c)
      ((readInto 0 markup >>= fun _ => p.resolve 0) run)
      ((Value.read markup >>= fun cs =>
        Value.resolveTo p p.maxDepth (.node { kind := .document } cs)) run.notes) := by
  have ha := adds_createDocument Tree.empty
  have hwf := ha.wellFormed wellFormed_empty List.nodup_nil
  have hroot : (0 : NodeId) < Tree.empty.createDocument.2.size := ha.lt_size
  have hown := (ha.own_eq 0).trans (if_pos rfl)
  have hnone := (ha.children_eq 0).trans (children_of_le (Nat.zero_le _))
  rw [← htree] at hwf hroot hown hnone
  refine (agree_readInto run hwf hroot markup).bind fun _ cs run₁ hwf₁ hc₁ ⟨ids, hr⟩ => ?_
  have hids := hr.children_eq
  rw [hnone, List.nil_append] at hids
  have hshows : run₁.tree.Shows 0 (.node { kind := .document } cs) :=
    shows_node.2 ⟨hr.own_eq.trans hown, hids.symm ▸ hr.shows⟩
  have hsize : 0 < run₁.tree.size := Nat.lt_of_lt_of_le hroot hr.size_le
  exact (agree_resolveTo p p.maxDepth hwf₁ hsize hshows).after hc₁ hwf hwf₁

/-- **Processing a page is a function of values.** -/
theorem process_eq_outcome (p : Processor) (file content : String) :
    ((p.process file content).page, (p.process file content).calls)
      = Value.outcome p (Value.resolvePage p file content { context := { file } }) := by
  let start : Run := { tree := .empty, context := { file } }
  have hok : ∀ {page : String} {run : Run}, p.resolvePage file content start = .ok page run →
      ((p.process file content).page, (p.process file content).calls) = (.ok page, run.calls) := by
    intro page run h
    rw [Processor.process, Processor.processAfter, h]
  have herror : ∀ {fault : PageFault} {run : Run},
      p.resolvePage file content start = .error fault run →
      ((p.process file content).page, (p.process file content).calls)
        = (.error fault, run.calls) := by
    intro fault run h
    rw [Processor.process, Processor.processAfter, h]
  unfold Processor.resolvePage at hok herror
  have hmarkup := agree_markupOf (p := p) start wellFormed_empty [] file content
  show _ = Value.outcome p (Value.resolvePage p file content start.notes)
  unfold Value.resolvePage
  cases hm : p.markupOf file content start with
  | error fault run =>
    rw [hm] at hmarkup
    generalize hv : Value.markupOf p file content start.notes = r at hmarkup
    cases hmarkup with
    | error _ _ _ =>
      rw [bind_of_error hv]
      exact herror (bind_of_error hm _)
  | ok markup run =>
    rw [hm] at hmarkup
    obtain ⟨_, hv, rfl, htree⟩ := hmarkup.exists_value_of_ok
    obtain ⟨tree, context, calls, log⟩ := run
    obtain rfl : tree = .empty := htree
    rw [bind_of_ok hm] at hok herror
    rw [bind_of_ok hv]
    -- the document under which the page is read is node zero
    let next : Run := ⟨Tree.empty.createDocument.2, context, calls, log⟩
    show _ = Value.outcome p ((Value.read markup >>= fun cs =>
      Value.resolveTo p p.maxDepth (.node { kind := .document } cs)) next.notes)
    have hagree := agree_read_resolve p next rfl markup
    generalize hpass : (readInto 0 markup >>= fun _ => p.resolve 0) next = r at hagree
    generalize hvalue : (Value.read markup >>= fun cs =>
      Value.resolveTo p p.maxDepth (.node { kind := .document } cs)) next.notes = s at hagree ⊢
    have hregroup : ∀ rest : PageM String,
        (readInto 0 markup >>= fun _ => p.resolve 0 >>= fun _ => rest) next
          = ((readInto 0 markup >>= fun _ => p.resolve 0) >>= fun _ => rest) next := fun rest => by
      rw [bind_assoc]
    cases hagree with
    | error run _ _ =>
      exact herror ((hregroup _).trans (bind_of_error hpass _))
    | ok run hwf hconfined hc =>
      have hpos : 0 < run.tree.size :=
        Nat.lt_of_lt_of_le (adds_createDocument Tree.empty).lt_size hconfined.size_le
      refine (hok ((hregroup _).trans (bind_of_ok hpass _))).trans ?_
      show (Except.ok (String.ofList (Text.trim ((p.deriveIds run.tree 0).2.innerHtml 0).toList)),
        run.calls) = Value.outcome p (.ok _ run.notes)
      exact congrArg (fun text => (Except.ok (String.ofList (Text.trim text)), run.calls))
        (toList_innerHtml_deriveIds hwf hpos hc)

end PageSlots.Page
