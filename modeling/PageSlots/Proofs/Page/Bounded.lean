import PageSlots.Proofs.Page.CutShort
import PageSlots.Proofs.Page.Depth

/-!
# The pass is bounded

Over a page with a plain renderer the first pass ends, visits no node
twice, and calls the renderer no more often than the page as it is read
allows for (`bounded_resolveTo`).

The pass may fail in the middle, so the visits cannot be those of a pass
that returns. Wherever it ends, the nodes that have been visited are the
first ones of the tree that is left, in document order
(`isPrefix_visits`): below the children that are finished nothing is
missing, below the one where the pass stopped there is a part, and there is
nothing below the others. A document order names no node twice.
-/

namespace PageSlots.Page

open PageSlots.Component PageSlots.Markup PageSlots.Markup.Content PageSlots.Markup.Tree

/-! ## No node twice -/

section Visits

variable {p : Processor} {run : Run} {id : NodeId}

/-- The pass over several nodes that are apart is confined to them, however
it ends. -/
theorem confined_runAfter_forM (depth : Nat) {ids : List NodeId} (h : run.tree.WellFormed)
    (hids : ∀ i ∈ ids, i < run.tree.size) (hapart : ids.Pairwise run.tree.Apart) :
    (runAfter (ids.forM (p.resolveTo depth) run)).tree.WellFormed
      ∧ Confined ids run.tree (runAfter (ids.forM (p.resolveTo depth) run)).tree := by
  obtain ⟨cs, hcs⟩ := exists_forall₂_shows fun i (_ : i ∈ ids) => h.exists_shows i
  exact (agree_forM (agree_resolveTo p depth) h hids hapart hcs).confined

/-- The first ones below several nodes, one after the other, if they are
the first ones below each. -/
theorem isPrefix_listInTurn {depth : Nat}
    (h : ∀ {run : Run} {id : NodeId}, run.tree.WellFormed → id < run.tree.size →
      (p.visits depth id run).map Visit.id
        <+: (runAfter (p.resolveTo depth id run)).tree.descendants id) (ids : List NodeId) :
    ∀ run : Run, run.tree.WellFormed → (∀ i ∈ ids, i < run.tree.size) →
      ids.Pairwise run.tree.Apart →
      (Processor.listInTurn (p.resolveTo depth) (p.visits depth) ids run).map Visit.id
        <+: ids.flatMap (runAfter (ids.forM (p.resolveTo depth) run)).tree.descendants := by
  induction ids with
  | nil => exact fun _ _ _ _ => List.nil_prefix
  | cons i ids ih =>
    intro run hwf hids hapart
    have hi := hids i List.mem_cons_self
    have hforM : (i :: ids).forM (p.resolveTo depth) run
        = (p.resolveTo depth i >>= fun _ => ids.forM (p.resolveTo depth)) run := rfl
    rw [Processor.listInTurn, hforM, List.flatMap_cons, List.map_append]
    cases hmid : p.resolveTo depth i run with
    | error fault mid =>
      have hfirst := h hwf hi
      rw [hmid] at hfirst
      rw [bind_of_error hmid, List.map_nil, List.append_nil]
      exact hfirst.trans (List.prefix_append _ _)
    | ok _ mid =>
      have hids := fun k (hk : k ∈ ids) => hids k (List.mem_cons_of_mem i hk)
      obtain ⟨hwf', hcf⟩ := confined_of_resolveTo hwf hi hmid
      obtain ⟨hia, hapart'⟩ := List.pairwise_cons.1 (hcf.pairwise_apart hwf hwf' hids hapart)
      have hids' := fun k (hk : k ∈ ids) => Nat.lt_of_lt_of_le (hids k hk) hcf.size_le
      -- what is below the child that is finished is left by the later ones
      obtain ⟨-, hcf'⟩ := confined_runAfter_forM (p := p) depth hwf' hids' hapart'
      have hfirst := hcf'.descendants_eq hwf' (Nat.lt_of_lt_of_le hi hcf.size_le)
        fun r hr => (hia r hr).symm
      rw [bind_of_ok hmid, hfirst, map_id_visits depth hwf hi hmid]
      exact (List.prefix_append_right_inj _).2 (ih mid hwf' hids' hapart')

/-- **The visited nodes are the first ones** of the tree that the pass
leaves, in document order, however it ends. -/
theorem isPrefix_visits (depth : Nat) : ∀ {run : Run} {id : NodeId}, run.tree.WellFormed →
    id < run.tree.size → (p.visits depth id run).map Visit.id
      <+: (runAfter (p.resolveTo depth id run)).tree.descendants id := by
  induction depth with
  | zero => exact fun _ _ => List.nil_prefix
  | succ depth ih =>
    intro run id h hid
    obtain ⟨c, hc⟩ := h.exists_shows id
    obtain ⟨hwf', hcf'⟩ := (agree_resolveTo p (depth + 1) h hid hc).confined
    rw [hwf'.descendants_eq (Nat.lt_of_lt_of_le hid hcf'.size_le), p.resolveTo_succ]
    unfold Processor.visits
    cases henter : p.enter id run with
    | error fault mid => exact List.prefix_append [id] _
    | ok _ next =>
      obtain ⟨hwf, hcf⟩ := confined_of_enter h hid henter
      have hkids := fun i (hi : i ∈ next.tree.children id) => hwf.lt_of_mem hi
      have hapart := hwf.pairwise_apart_children id
      -- the tree that is left is the one after the children
      have hlast : (runAfter ((p.enter id >>= fun _ => getTree >>= fun t =>
          (t.children id).forM (p.resolveTo depth) >>= fun _ =>
            if t.isElement id then modifyContext (·.popAncestor.2) else pure ()) run)).tree
          = (runAfter ((next.tree.children id).forM (p.resolveTo depth) next)).tree := by
        rw [bind_of_ok henter, bind_of_ok (getTree_eq next)]
        cases hturn : (next.tree.children id).forM (p.resolveTo depth) next with
        | error fault last => rw [bind_of_error hturn]
        | ok _ last =>
          rw [bind_of_ok hturn]
          split <;> rfl
      rw [hlast, (confined_runAfter_forM depth hwf hkids hapart).2.children_eq
        (Nat.lt_of_lt_of_le hid hcf.size_le) fun r hr => hwf.not_within_of_mem hr]
      exact List.cons_prefix_cons.2 ⟨rfl, isPrefix_listInTurn ih _ next hwf hkids hapart⟩

end Visits

/-! ## No more calls than the page allows for -/

section Calls

variable {table : RuleTable} {t : Tree} {id : NodeId} {c : Content}

/-- **How many calls a page allows for**: one for each region in it, and
for each element with a rule as many as that rule has promotions. -/
def allowedCalls (table : RuleTable) (t : Tree) (id : NodeId) : Nat :=
  ((t.descendants id).filter fun x =>
      t.isElement x && (t.tag x = "md" || t.tag x = "markdown")).length
    + (((t.descendants id).filter t.isElement).map fun x =>
      (table.find (t.tag x)).elim 0 fun rule => rule.promotions.length).sum

theorem isSome_regionOf (tag : String) :
    (regionOf tag).isSome = (tag = "md" || tag = "markdown" : Bool) := by
  by_cases h : tag ≠ "md" ∧ tag ≠ "markdown"
  · rw [regionOf_eq_none_iff.2 h]
    simp [h]
  · obtain rfl | rfl : tag = "md" ∨ tag = "markdown" := by
      simpa [or_iff_not_imp_left] using h
    · rfl
    · rfl

/-- **The budget of a page** is what it allows for. -/
theorem total_budget_eq (h : t.WellFormed) (hid : id < t.size) (hc : t.Shows id c) :
    c.total (budget table) = allowedCalls table t id := by
  rw [Content.total, ← h.map_own_descendants hid hc, allowedCalls]
  induction t.descendants id with
  | nil => rfl
  | cons x ids ih =>
    rw [List.map_cons, List.map_cons, List.sum_cons, ih, budget, ← tag_eq_own, tagBudget,
      isSome_regionOf, List.filter_cons, List.filter_cons]
    have he : (t.own x).isElement = t.isElement x := rfl
    rw [he]
    cases t.isElement x
    · simp
    · cases htag : (t.tag x = "md" || t.tag x = "markdown" : Bool)
      · simp
        omega
      · simp
        omega

end Calls

/-! ## Pages -/

section Pages

variable {p : Processor}

/-- A step on the tree is too deep only if the one on values is. -/
theorem Agree.not_tooDeep {α β : Type} {roots : List NodeId} {t : Tree}
    {post : α → Tree → β → Prop} {r : EStateM.Result PageFault Run α}
    {s : EStateM.Result PageFault Notes β} (h : Agree roots t post r s) (hs : ¬ TooDeep s) :
    ¬ TooDeep r := by
  cases h with
  | ok run _ _ _ => exact not_tooDeep_ok _ run
  | error run _ _ => exact fun hr => hs (tooDeep_error_iff.2 (tooDeep_error_iff.1 hr))

/-- **The pass over a page is bounded**, whatever a plain renderer answers.
There is a depth that is enough: going that deep the pass returns or fails
for another reason, and it does the same if it may go deeper. At no depth
is a node visited twice, and at no depth are there more calls of the
renderer than the page as it is read allows for. -/
theorem bounded_resolveTo (hp : p.rules = builtIn) (hr : PlainRenderer builtIn p.renderer)
    {markup : String} {ids : List NodeId} (hread : (readFragment markup).nodes = .ok ids)
    {start : Run} (hstart : start.tree = (readFragment markup).tree) :
    (∃ enough, ¬ TooDeep (p.resolveTo enough 0 start)
        ∧ ∀ depth ≥ enough, p.resolveTo depth 0 start = p.resolveTo enough 0 start)
      ∧ ∀ depth, ((p.visits depth 0 start).map Visit.id).Nodup
        ∧ (callsAfter (p.resolveTo depth 0 start)).length
          ≤ start.calls.length + allowedCalls builtIn start.tree 0 := by
  obtain ⟨hwf, hpos, -⟩ := readFragment_of_ok hread
  rw [← hstart] at hwf hpos
  obtain ⟨c, hc⟩ := hwf.exists_shows 0
  rw [← hp] at hr ⊢
  have ht : Frugal p.rules := hp ▸ frugal_builtIn
  have hagree := fun depth => agree_resolveTo p depth hwf hpos hc
  refine ⟨?_, fun depth => ⟨?_, ?_⟩⟩
  · obtain ⟨enough, hdeep, -⟩ := settles_resolveTo hr ht c start.notes
    have hdeep := (hagree enough).not_tooDeep hdeep
    exact ⟨enough, hdeep, fun depth hle => (deepens_resolveTo p hle 0 start).resolve_left hdeep⟩
  · obtain ⟨hwf', -⟩ := (hagree depth).confined
    exact (isPrefix_visits depth hwf hpos).sublist.nodup (hwf'.nodup_descendants 0)
  · have hspent := spends_resolveTo hr ht depth c start.notes
    have hagree := hagree depth
    rw [total_budget_eq hwf hpos hc] at hspent
    generalize p.resolveTo depth 0 start = r at hagree ⊢
    generalize Value.resolveTo p depth c start.notes = s at hagree hspent
    cases hagree with
    | ok _ _ _ _ => exact hspent.1
    | error _ _ _ => exact hspent.1

/-- A component with two attributes to promote, a region in it and an
element with two markers, by a renderer whose answers have two markers as
well: there are three calls at most. -/
theorem bounded_resolveTo_panel :
    let p : Processor := { renderer := .ofFunction fun _ => .ok "<i #a #b>x</i>" }
    let start : Run := {
      tree := (readFragment
        "<panel header=\"T\" alt=\"A\"><md>y</md></panel><p #c #d>z</p>").tree
      context := { file := "page.html" } }
    (∃ enough, ¬ TooDeep (p.resolveTo enough 0 start)
        ∧ ∀ depth ≥ enough, p.resolveTo depth 0 start = p.resolveTo enough 0 start)
      ∧ ∀ depth, ((p.visits depth 0 start).map Visit.id).Nodup
        ∧ (callsAfter (p.resolveTo depth 0 start)).length ≤ 3 := by
  intro p start
  have hread : (readFragment
      "<panel header=\"T\" alt=\"A\"><md>y</md></panel><p #c #d>z</p>").nodes = .ok [2, 5] := by
    decide +kernel
  have hplain : PlainRenderer builtIn p.renderer := fun _ _ _ ha _ _ => by
    cases ha
    decide +kernel
  have hallowed : 3 = start.calls.length + allowedCalls builtIn start.tree 0 := by
    decide +kernel
  rw [hallowed]
  exact bounded_resolveTo rfl hplain hread rfl

end Pages

end PageSlots.Page
