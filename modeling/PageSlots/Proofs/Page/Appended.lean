import PageSlots.Proofs.Page.Derived
import PageSlots.Proofs.Page.Simulation

/-!
# What is appended to a page

What stands earlier in a page is resolved before what stands later, so
nothing that is appended can change it. A run has a memory that could tell
of the appended part – the ids that are used, the calls of the renderer,
the log, the enclosing elements –, but all of it grows in document order.

Two pages, one of which goes on where the other one ends, can differ in
more: in their names, in the numbers of their nodes, in what was rendered
and told before them. Of all that only the used ids and the counters of
the suffixes matter to what a step makes of a content. A step that has no
other memory is `Oblivious`: from runs that know the same ids it makes the
same content, or the same fault. With a renderer that does not remember
its calls the whole first pass is oblivious (`oblivious_resolveTo`), and
the second pass looks at each top-level node alone.
-/

namespace PageSlots.Page

open PageSlots.Component PageSlots.Markup PageSlots.Markup.Content PageSlots.Markup.Tree
open PageSlots.Slot

/-! ## Oblivious steps -/

/-- **Two runs know the same ids**: the same ones are used, and every
search for a suffix starts at the same number. -/
structure Notes.SameIds (notes notes' : Notes) : Prop where
  /-- The same ids are used. -/
  usedIds_eq : notes'.context.usedIds = notes.context.usedIds
  /-- The suffixes go on alike. -/
  counts_eq : notes'.context.counts = notes.context.counts

/-- **Two results are the same but for what is not about ids.** -/
inductive SameResult {α : Type} :
    EStateM.Result PageFault Notes α → EStateM.Result PageFault Notes α → Prop where
  /-- Both return the same, and know the same ids. -/
  | ok {a : α} {notes notes' : Notes} : notes.SameIds notes' →
      SameResult (.ok a notes) (.ok a notes')
  /-- Both fail alike. -/
  | error {fault : PageFault} {notes notes' : Notes} :
      SameResult (.error fault notes) (.error fault notes')

/-- **A step is oblivious**: its result depends on the ids that are known,
and on nothing else in the run. -/
def Oblivious {α : Type} (x : ValueM α) : Prop :=
  ∀ notes notes' : Notes, notes.SameIds notes' → SameResult (x notes) (x notes')

namespace Oblivious

variable {α β : Type} {x : ValueM α} {f : α → ValueM β}

theorem pure (a : α) : Oblivious (Pure.pure a) :=
  fun _ _ h => .ok h

/-- **Oblivious steps one after the other.** -/
theorem bind (h : Oblivious x) (hf : ∀ a, Oblivious (f a)) : Oblivious (x >>= f) := by
  intro notes notes' hn
  have h := h notes notes' hn
  generalize hx : x notes = r at h
  generalize hy : x notes' = s at h
  cases h with
  | ok hn' =>
    rw [bind_of_ok hx, bind_of_ok hy]
    exact hf _ _ _ hn'
  | error =>
    rw [bind_of_error hx, bind_of_error hy]
    exact .error

/-- An oblivious step for each of several contents. -/
theorem mapM {f : Content → ValueM Content} (h : ∀ c, Oblivious (f c)) (cs : List Content) :
    Oblivious (cs.mapM f) := by
  induction cs with
  | nil => exact pure []
  | cons c cs ih =>
    rw [List.mapM_cons]
    exact (h c).bind fun d => ih.bind fun ds => pure (d :: ds)

end Oblivious

section Steps

/-- A new id depends on the ids that are known. -/
theorem uniqueHeadingId_congr {ctx ctx' : Context} (hused : ctx'.usedIds = ctx.usedIds)
    (hcounts : ctx'.counts = ctx.counts) (text : String) :
    (ctx'.uniqueHeadingId text).1 = (ctx.uniqueHeadingId text).1
      ∧ (ctx'.uniqueHeadingId text).2.usedIds = (ctx.uniqueHeadingId text).2.usedIds
      ∧ (ctx'.uniqueHeadingId text).2.counts = (ctx.uniqueHeadingId text).2.counts := by
  obtain ⟨file, used, counts, ancestors⟩ := ctx
  obtain ⟨file', used', counts', ancestors'⟩ := ctx'
  obtain rfl : used' = used := hused
  obtain rfl : counts' = counts := hcounts
  unfold Context.uniqueHeadingId
  dsimp only
  split <;> exact ⟨rfl, rfl, rfl⟩

/-- Recording an id depends on the ids that are known. -/
theorem registerHeadingId_congr {ctx ctx' : Context} (hused : ctx'.usedIds = ctx.usedIds)
    (hcounts : ctx'.counts = ctx.counts) (id : String) :
    (ctx'.registerHeadingId id).1 = (ctx.registerHeadingId id).1
      ∧ (ctx'.registerHeadingId id).2.usedIds = (ctx.registerHeadingId id).2.usedIds
      ∧ (ctx'.registerHeadingId id).2.counts = (ctx.registerHeadingId id).2.counts := by
  obtain ⟨file, used, counts, ancestors⟩ := ctx
  obtain ⟨file', used', counts', ancestors'⟩ := ctx'
  obtain rfl : used' = used := hused
  obtain rfl : counts' = counts := hcounts
  unfold Context.registerHeadingId
  dsimp only
  split <;> exact ⟨rfl, rfl, rfl⟩

theorem oblivious_tell (log : Log) : Oblivious (Value.tell log) :=
  fun _ _ h => .ok ⟨h.usedIds_eq, h.counts_eq⟩

theorem oblivious_pushAncestor (tag : String) :
    Oblivious (Value.modifyContext (·.pushAncestor tag)) :=
  fun _ _ h => .ok ⟨h.usedIds_eq, h.counts_eq⟩

theorem oblivious_popAncestor : Oblivious (Value.modifyContext (·.popAncestor.2)) :=
  fun _ _ h => .ok ⟨h.usedIds_eq, h.counts_eq⟩

/-- Rendering is oblivious if the renderer is. -/
theorem oblivious_render (answer : RenderCall → Except RenderError String) (mode : RenderMode)
    (source : String) : Oblivious (Value.render (.ofFunction answer) mode source) := by
  intro notes notes' h
  unfold Value.render Renderer.ofFunction
  dsimp only
  cases answer ⟨mode, source⟩ with
  | ok markup => exact .ok ⟨h.usedIds_eq, h.counts_eq⟩
  | error e => exact .error

theorem oblivious_read (markup : String) : Oblivious (Value.read markup) := by
  intro notes notes' h
  unfold Value.read
  dsimp only
  cases (Content.parse markup).1 with
  | ok cs => exact .ok ⟨h.usedIds_eq, h.counts_eq⟩
  | error fault => exact .error

/-- **The id of a heading** is where the known ids come in. -/
theorem oblivious_headingId (c : Content) : Oblivious (Value.headingId c) := by
  intro notes notes' h
  unfold Value.headingId
  rw [bind_of_ok (get_eq notes), bind_of_ok (get_eq notes')]
  cases c.own.attr? "id" with
  | some written =>
    have hcongr := registerHeadingId_congr h.usedIds_eq h.counts_eq written
    dsimp only
    generalize notes.context.registerHeadingId written = r at hcongr ⊢
    generalize notes'.context.registerHeadingId written = r' at hcongr ⊢
    obtain ⟨isNew, context⟩ := r
    obtain ⟨isNew', context'⟩ := r'
    obtain ⟨rfl, hused, hcounts⟩ := hcongr
    cases isNew' with
    | true => exact .ok ⟨hused, hcounts⟩
    | false => exact .ok ⟨hused, hcounts⟩
  | none =>
    have hcongr :=
      uniqueHeadingId_congr h.usedIds_eq h.counts_eq (decodeReferences c.textContent)
    dsimp only
    generalize notes.context.uniqueHeadingId (decodeReferences c.textContent) = r at hcongr ⊢
    generalize notes'.context.uniqueHeadingId (decodeReferences c.textContent) = r' at hcongr ⊢
    obtain ⟨made, context⟩ := r
    obtain ⟨made', context'⟩ := r'
    obtain ⟨rfl, hused, hcounts⟩ := hcongr
    cases made' with
    | none => exact .ok ⟨hused, hcounts⟩
    | some made => exact .ok ⟨hused, hcounts⟩

theorem oblivious_anchorHeading (anchorClass : String) (c : Content) :
    Oblivious (Value.anchorHeading anchorClass c) := by
  unfold Value.anchorHeading
  refine (oblivious_headingId c).bind ?_
  rintro ⟨made, d⟩
  dsimp only
  split
  · exact .pure d
  · split
    · exact .pure d
    · exact .pure _

/-- Looking at the place of a component only tells something. -/
theorem oblivious_checkPlace (rule : Rule) (tag : String) :
    Oblivious (Value.checkPlace rule tag) := by
  have hresult : ∀ notes, ∃ log, Value.checkPlace rule tag notes = .ok () { notes with log } :=
    fun notes => by
      unfold Value.checkPlace
      rw [bind_of_ok (get_eq notes)]
      by_cases hp : rule.isPlaced notes.context = true
      · rw [if_pos hp]
        exact ⟨notes.log, rfl⟩
      · rw [if_neg hp]
        exact ⟨_, rfl⟩
  intro notes notes' h
  obtain ⟨log, hlog⟩ := hresult notes
  obtain ⟨log', hlog'⟩ := hresult notes'
  rw [hlog, hlog']
  exact .ok ⟨h.usedIds_eq, h.counts_eq⟩

variable {p : Processor} {answer : RenderCall → Except RenderError String}

theorem oblivious_promote (index : Nat) (promotion : Promotion) (c : Content) :
    Oblivious (Value.promote (.ofFunction answer) index promotion c) := by
  unfold Value.promote
  dsimp only
  split
  · split
    · exact (oblivious_tell _).bind fun _ => .pure _
    · exact .pure _
  · split
    · exact .pure _
    · refine (oblivious_render answer _ _).bind fun markup =>
        (oblivious_read markup).bind fun cs => ?_
      exact (oblivious_tell _).bind fun _ => .pure _

theorem oblivious_promoteAll (promotions : List Promotion) : ∀ (index : Nat) (c : Content),
    Oblivious (Value.promoteAll (.ofFunction answer) index promotions c) := by
  induction promotions with
  | nil => exact fun _ c => .pure c
  | cons promotion promotions ih =>
    exact fun index c => (oblivious_promote index promotion c).bind fun d => ih _ d.2

theorem oblivious_applyRule (rule : Rule) (c : Content) :
    Oblivious (Value.applyRule (.ofFunction answer) rule c) := by
  unfold Value.applyRule
  refine (oblivious_checkPlace rule _).bind fun _ => (oblivious_tell _).bind fun _ => ?_
  exact (oblivious_promoteAll rule.promotions 0 _).bind fun d => .pure _

variable (hp : p.renderer = .ofFunction answer)
include hp

theorem oblivious_renderRegion (c : Content) : Oblivious (Value.renderRegion p c) := by
  unfold Value.renderRegion
  rw [hp]
  split
  · exact .pure c
  · refine (oblivious_render answer _ _).bind fun markup => ?_
    exact (oblivious_read markup).bind fun cs => .pure _

theorem oblivious_visit (c : Content) : Oblivious (Value.visit p c) := by
  have hrules : ∀ c, Oblivious (Value.applyRules p c) := fun c => by
    unfold Value.applyRules
    rw [hp]
    split
    · exact .pure c
    · exact oblivious_applyRule _ c
  unfold Value.visit Value.visitElement
  split
  · refine (oblivious_renderRegion hp c).bind fun d => ?_
    dsimp only
    split
    · exact (oblivious_anchorHeading p.anchorClass d).bind hrules
    · exact hrules d
  · exact .pure c

/-- **The first pass is oblivious**, if the renderer does not remember its
calls. -/
theorem oblivious_resolveTo (depth : Nat) :
    ∀ c : Content, Oblivious (Value.resolveTo p depth c) := by
  induction depth with
  | zero => exact fun _ _ _ _ => .error
  | succ depth ih =>
    intro c
    unfold Value.resolveTo Value.descend
    refine (oblivious_visit hp c).bind fun d => ?_
    split
    · refine (oblivious_pushAncestor _).bind fun _ => (Oblivious.mapM ih _).bind fun ds => ?_
      exact oblivious_popAncestor.bind fun _ => .pure _
    · exact (Oblivious.mapM ih _).bind fun ds => .pure _

end Steps

/-! ## Top-level nodes -/

/-- **A document with top-level nodes** in a tree. -/
structure IsDocument (t : Tree) (root : NodeId) (cs : List Content) : Prop where
  /-- The tree is well formed. -/
  wellFormed : t.WellFormed
  /-- The document is there. -/
  lt_size : root < t.size
  /-- It is a document. -/
  kind_eq : t.kind root = .document
  /-- Its children show the top-level nodes. -/
  shows : List.Forall₂ t.Shows (t.children root) cs

section Documents

variable {p : Processor} {depth : Nat} {o : Own} {cs ds : List Content} {c : Content}
variable {t : Tree} {root : NodeId} {notes notes' : Notes}

/-- What is read from markup hangs from a document. -/
theorem isDocument_of_readFragment {markup : String} {ids : List NodeId}
    (h : (readFragment markup).nodes = .ok ids)
    (hs : List.Forall₂ (readFragment markup).tree.Shows
      ((readFragment markup).tree.children 0) cs) :
    IsDocument (readFragment markup).tree 0 cs := by
  obtain ⟨hwf, hsize, cs', hcs'⟩ := readFragment_of_ok h
  exact ⟨hwf, hsize, congrArg Own.kind hcs'.own_eq, hs⟩

/-- **The first pass over a document** is the pass over its top-level
nodes. -/
theorem resolveTo_document (ho : o.kind = .document) (cs : List Content) :
    Value.resolveTo p (depth + 1) (.node o cs)
      = (cs.map Content.normalize).mapM (Value.resolveTo p depth) >>= fun ds =>
        pure (.node o ds) := by
  have hkind : ¬ o.isElement = true := fun he => by
    rw [Own.isElement_iff, ho] at he
    cases he
  have hvisit : Value.visit p (.node o cs) = pure (.node o cs) := by
    unfold Value.visit
    exact if_neg hkind
  unfold Value.resolveTo Value.descend
  rw [hvisit, pure_bind]
  exact if_neg hkind

/-- Contents are gone through one after the other. -/
theorem exists_of_mapM_append {f : Content → ValueM Content} {all : List Content}
    (hok : (cs ++ ds).mapM f notes = .ok all notes') :
    ∃ first mid rest, cs.mapM f notes = .ok first mid ∧ all = first ++ rest
      ∧ first.length = cs.length := by
  induction cs generalizing notes all with
  | nil => exact ⟨[], notes, all, rfl, rfl, rfl⟩
  | cons c cs ih =>
    rw [List.cons_append, List.mapM_cons] at hok
    obtain ⟨d, notes₁, hd, hok⟩ := exists_of_bind_ok hok
    obtain ⟨all', notes₂, hall, hok⟩ := exists_of_bind_ok hok
    cases hok
    obtain ⟨first, mid, rest, hfirst, rfl, hlength⟩ := ih hall
    refine ⟨d :: first, mid, rest, ?_, rfl, by rw [List.length_cons, List.length_cons, hlength]⟩
    rw [List.mapM_cons, bind_of_ok hd, bind_of_ok hfirst]
    rfl

/-- Both passes make of a document what they make of its top-level
nodes. -/
theorem exists_of_resolve_document {run run' : Run} (hdoc : IsDocument run.tree root cs)
    (hok : p.resolve root run = .ok () run') :
    ∃ depth ds, (cs.map Content.normalize).mapM (Value.resolveTo p depth) run.notes
        = .ok ds run'.notes
      ∧ p.maxDepth = depth + 1
      ∧ ((p.deriveIds run'.tree root).2.children root).map (p.deriveIds run'.tree root).2.toHtml
        = ds.map fun d => String.ofList (Value.derived p d).written := by
  have hshows : run.tree.Shows root (.node (run.tree.own root) cs) :=
    shows_node.2 ⟨rfl, hdoc.shows⟩
  have hagree := agree_resolveTo p p.maxDepth hdoc.wellFormed hdoc.lt_size hshows
  rw [show p.resolveTo p.maxDepth root run = .ok () run' from hok] at hagree
  generalize hvalue : Value.resolveTo p p.maxDepth (.node (run.tree.own root) cs) run.notes = r
    at hagree
  cases hagree with
  | @ok _ c _ hwf hcf hc =>
    obtain ⟨depth, hdepth⟩ : ∃ depth, p.maxDepth = depth + 1 := by
      cases hmax : p.maxDepth with
      | zero =>
        rw [hmax] at hvalue
        cases hvalue
      | succ depth => exact ⟨depth, rfl⟩
    rw [hdepth] at hvalue
    rw [resolveTo_document (show (run.tree.own root).kind = .document from hdoc.kind_eq)] at hvalue
    obtain ⟨ds, notes, hds, hvalue⟩ := exists_of_bind_ok hvalue
    cases hvalue
    refine ⟨depth, ds, hds, hdepth, ?_⟩
    have hroot := Nat.lt_of_lt_of_le hdoc.lt_size hcf.size_le
    have hderived := (shows_deriveIds (p := p) hwf hroot hc).children
    have hwf' := (p.labels_deriveIds run'.tree root).wellFormed hwf
    rw [Value.derived_node, children_node, List.forall₂_map_right_iff] at hderived
    have hbelow : List.Forall₂ (fun i d => i < (p.deriveIds run'.tree root).2.size
        ∧ (p.deriveIds run'.tree root).2.Shows i (Value.derived p d))
        ((p.deriveIds run'.tree root).2.children root) ds :=
      List.forall₂_iff_zip.2 ⟨hderived.length_eq, fun hid =>
        ⟨hwf'.lt_of_mem (List.of_mem_zip hid).1, List.forall₂_zip hderived hid⟩⟩
    refine map_eq_of_forall₂ hbelow fun i d ⟨hi, hs⟩ => ?_
    rw [← hwf'.toList_toHtml hi hs, String.ofList_toList]

end Documents

/-- **Later content never changes earlier content.** Of two documents the
second one goes on where the first one ends. If both passes succeed on both
of them, with new contexts and a renderer that does not remember its calls,
then the first document still has as many top-level nodes, the second one
begins with as many, and each of these is written as in the first one. -/
theorem toHtml_children_append {p : Processor} {answer : RenderCall → Except RenderError String}
    (hp : p.renderer = .ofFunction answer) {short long short' long' : Run} {root root' : NodeId}
    {cs ds : List Content} {file file' : String}
    (hshort : IsDocument short.tree root cs) (hlong : IsDocument long.tree root' (cs ++ ds))
    (hnew : short.context = { file }) (hnew' : long.context = { file := file' })
    (hok : p.resolve root short = .ok () short') (hok' : p.resolve root' long = .ok () long') :
    let first := (p.deriveIds short'.tree root).2
    let second := (p.deriveIds long'.tree root').2
    (first.children root).length = cs.length
      ∧ ((second.children root').take cs.length).map second.toHtml
        = (first.children root).map first.toHtml
      ∧ String.join (((second.children root').take cs.length).map second.toHtml)
        = first.innerHtml root := by
  intro first second
  obtain ⟨depth, es, hes, hdepth, hfirst⟩ := exists_of_resolve_document hshort hok
  obtain ⟨depth', all, hall, hdepth', hsecond⟩ := exists_of_resolve_document hlong hok'
  obtain rfl : depth' = depth := Nat.succ.inj (hdepth'.symm.trans hdepth)
  rw [List.map_append] at hall
  obtain ⟨es', mid, rest, hes', rfl, hlength⟩ := exists_of_mapM_append hall
  -- the two runs over the shared part start with the same ids, and so they make the same of it
  have hids : short.notes.SameIds long.notes := by
    refine ⟨?_, ?_⟩
    · show long.context.usedIds = short.context.usedIds
      rw [hnew, hnew']
    · show long.context.counts = short.context.counts
      rw [hnew, hnew']
  have hsame := Oblivious.mapM (oblivious_resolveTo hp depth') (cs.map Content.normalize) _ _ hids
  rw [hes'] at hsame
  generalize hr : (cs.map Content.normalize).mapM (Value.resolveTo p depth') short.notes = r
    at hsame
  cases hsame with
  | ok _ =>
    rw [hes] at hr
    cases hr
    rw [List.length_map] at hlength
    have hcount : (first.children root).length = cs.length := by
      have hlengths := congrArg List.length hfirst
      rwa [List.length_map, List.length_map, hlength] at hlengths
    have htake : ((second.children root').take cs.length).map second.toHtml
        = (first.children root).map first.toHtml := by
      rw [hfirst, List.map_take, hsecond, List.map_append, ← hlength,
        ← List.length_map (f := fun d => String.ofList (Value.derived p d).written), List.take_left]
    exact ⟨hcount, htake, congrArg String.join htake⟩

/-- A heading is appended that says the same as the one before it. -/
theorem toHtml_children_append_heading :
    let p : Processor := { renderer := .ofFunction fun call => .ok call.source }
    let short : Run := { tree := (readFragment "<h1>a</h1>").tree
                         context := { file := "short.html" } }
    let long : Run := { tree := (readFragment "<h1>a</h1><h1>a</h1>").tree
                        context := { file := "long.html" } }
    ∃ short' long', p.resolve 0 short = .ok () short' ∧ p.resolve 0 long = .ok () long'
      ∧ let first := (p.deriveIds short'.tree 0).2
        let second := (p.deriveIds long'.tree 0).2
        (first.children 0).length = 1
          ∧ ((second.children 0).take 1).map second.toHtml = (first.children 0).map first.toHtml
          ∧ String.join (((second.children 0).take 1).map second.toHtml) = first.innerHtml 0 := by
  intro p short long
  let letter : Own := { kind := .text, text := "a" }
  let heading : Own := { kind := .element, tag := "h1" }
  have hshows : ∀ (t : Tree) (i k : NodeId), t.own i = heading → t.children i = [k] →
      t.own k = letter → t.children k = [] → t.Shows i (.node heading [.node letter []]) :=
    fun t i k hi hik hk hnone =>
      shows_node.2 ⟨hi, hik ▸ .cons (shows_node.2 ⟨hk, hnone ▸ .nil⟩) .nil⟩
  have hshort : IsDocument short.tree 0 [.node heading [.node letter []]] := by
    have hread : (readFragment "<h1>a</h1>").nodes = .ok [2] := by decide +kernel
    refine isDocument_of_readFragment hread ?_
    rw [show (readFragment "<h1>a</h1>").tree.children 0 = [2] by decide +kernel]
    exact .cons (hshows _ 2 3 (by decide +kernel) (by decide +kernel) (by decide +kernel)
      (by decide +kernel)) .nil
  have hlong : IsDocument long.tree 0
      ([.node heading [.node letter []]] ++ [.node heading [.node letter []]]) := by
    have hread : (readFragment "<h1>a</h1><h1>a</h1>").nodes = .ok [2, 4] := by decide +kernel
    refine isDocument_of_readFragment hread ?_
    rw [show (readFragment "<h1>a</h1><h1>a</h1>").tree.children 0 = [2, 4] by decide +kernel]
    exact .cons (hshows _ 2 3 (by decide +kernel) (by decide +kernel) (by decide +kernel)
      (by decide +kernel)) (.cons (hshows _ 4 5 (by decide +kernel) (by decide +kernel)
      (by decide +kernel) (by decide +kernel)) .nil)
  obtain ⟨_, short', hok⟩ := exists_of_returns (show returns (p.resolve 0 short) = true by
    decide +kernel)
  obtain ⟨_, long', hok'⟩ := exists_of_returns (show returns (p.resolve 0 long) = true by
    decide +kernel)
  exact ⟨short', long', hok, hok', toHtml_children_append rfl hshort hlong rfl rfl hok hok'⟩

end PageSlots.Page
