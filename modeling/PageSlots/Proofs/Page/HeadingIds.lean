import PageSlots.Proofs.Page.Steady

/-!
# Heading ids over a page

A heading gets its id in the one visit to it. A run is steady along its
visits (`Leads.steady`), so the heading comes to its visit with the id
that it was read with, and leaves it with the id that it has in the
resolved page. The visits are the document order of the resolved page: an
id that is new when a heading is visited is the id of no heading before
it.
-/

namespace PageSlots.Page

open PageSlots.Component PageSlots.Markup PageSlots.Markup.Tree

/-- What is read during visits. -/
def Processor.readingsOf (p : Processor) (visits : List Visit) : List Reading :=
  visits.flatMap fun v => p.readings v.id v.run

/-- **The id of a heading is settled** in a tree, given the nodes before
it, the id that its author wrote, if any, and the text that it had when it
was visited. -/
structure SettledId (t : Tree) (earlier : List NodeId) (id : NodeId) (author : Option String)
    (text : String) : Prop where
  /-- An id that the author wrote stays. -/
  written : ∀ value, author = some value → t.attr? id "id" = some value
  /-- A heading without one whose text has no slug has no id. -/
  without : author = none → slug text = "" → t.attr? id "id" = none
  /-- A heading without one whose text has a slug has a candidate of the
  slug, which no earlier heading has. -/
  made : author = none → slug text ≠ "" → ∃ k, t.attr? id "id" = some (candidate (slug text) k)
    ∧ ∀ x ∈ earlier, t.isHeading x = true → t.attr? x "id" ≠ some (candidate (slug text) k)
  /-- It shares its id with an earlier heading only if the author wrote
  it. -/
  shared : ∀ x ∈ earlier, t.isHeading x = true → ∀ value, t.attr? x "id" = some value →
    t.attr? id "id" = some value → author = some value

section Runs

variable {p : Processor} (hrules : ∀ rule ∈ p.rules, LeavesIds rule)
variable {run run' : Run} {visits before after : List Visit} {v : Visit} {r : Reading}
include hrules

/-- **A run is steady along its visits.** -/
theorem Leads.steady (h : Leads p run visits run') :
    Steady (p.readingsOf visits) (visits.map Visit.id) run run' := by
  induction h with
  | stay ancestors => exact .of_tree_eq rfl (List.Subset.refl _)
  | @enter run run' next id visits ancestors hwf hid hok _ ih =>
    have hinside : Steady [] [] run (run.inside ancestors) := .of_tree_eq rfl (List.Subset.refl _)
    have henter := steady_enter hrules (show (run.inside ancestors).tree.WellFormed from hwf) hid hok
    exact (hinside.trans henter.2).trans ih

/-- A node that has been visited is there. -/
theorem Leads.lt_size (h : Leads p run visits run') {x : NodeId}
    (hx : x ∈ visits.map Visit.id) : x < run'.tree.size := by
  obtain ⟨v, hv, rfl⟩ := List.mem_map.1 hx
  obtain ⟨before, after, rfl⟩ := List.append_of_mem hv
  obtain ⟨next, -, hwf, hid, hok, hafter⟩ := h.split
  have hs := (steady_enter hrules hwf hid hok).2
  exact Nat.lt_of_lt_of_le hid (Nat.le_trans hs.size_le (hafter.steady hrules).size_le)

/-- **The id of a heading that has been visited is used.** -/
theorem Leads.mem_usedIds (h : Leads p run visits run') (hnodup : (visits.map Visit.id).Nodup)
    {x : NodeId} (hx : x ∈ visits.map Visit.id) (hhead : run'.tree.isHeading x = true)
    {value : String} (hvalue : run'.tree.attr? x "id" = some value) :
    value ∈ run'.context.usedIds := by
  obtain ⟨v, hv, rfl⟩ := List.mem_map.1 hx
  obtain ⟨before, after, rfl⟩ := List.append_of_mem hv
  obtain ⟨next, -, hwf, hid, hok, hafter⟩ := h.split
  obtain ⟨hgives, hs⟩ := steady_enter hrules hwf hid hok
  have hs' := hafter.steady hrules
  have hid' := Nat.lt_of_lt_of_le hid hs.size_le
  rw [List.map_append, List.map_cons, List.nodup_append, List.nodup_cons] at hnodup
  rw [hs'.isHeading_eq v.id hid', hs.isHeading_eq v.id hid] at hhead
  rw [hs'.id_eq v.id hid' hnodup.2.1.1] at hvalue
  exact hs'.usedIds_subset ((hgives hhead).mem_usedIds value hvalue)

/-- **A heading has been read**, from the page or from what was
rendered. -/
theorem Leads.exists_reading (h : Leads p run visits run') (hv : v ∈ visits)
    (hhead : run'.tree.isHeading v.id = true) :
    ∃ r ∈ ⟨.empty, run.tree⟩ :: p.readingsOf visits, r.Brings v.id := by
  by_cases hstart : v.id < run.tree.size
  · exact ⟨_, List.mem_cons_self, Nat.zero_le _, hstart⟩
  · obtain ⟨r, hr, hb⟩ := (h.steady hrules).exists_reading v.id (Nat.le_of_not_lt hstart)
      (h.lt_size hrules (List.mem_map_of_mem hv)) hhead
    exact ⟨r, List.mem_cons_of_mem _ hr, hb⟩

/-- **The id of a heading is settled by its visit.** -/
theorem Leads.settledId (h : Leads p run (before ++ v :: after) run')
    (hnodup : ((before ++ v :: after).map Visit.id).Nodup)
    (hhead : run'.tree.isHeading v.id = true)
    (hr : r ∈ ⟨.empty, run.tree⟩ :: p.readingsOf (before ++ v :: after)) (hb : r.Brings v.id) :
    SettledId run'.tree (before.map Visit.id) v.id (r.after.attr? v.id "id")
      (decodeReferences (v.run.tree.textContent v.id)) := by
  obtain ⟨next, hbefore, hwf, hid, hok, hafter⟩ := h.split
  obtain ⟨hgives, hs⟩ := steady_enter hrules hwf hid hok
  have hs₀ := hbefore.steady hrules
  have hs' := hafter.steady hrules
  have hid' := Nat.lt_of_lt_of_le hid hs.size_le
  rw [List.map_append, List.map_cons, List.nodup_append, List.nodup_cons] at hnodup
  obtain ⟨hnb, ⟨hna, -⟩, hdisj⟩ := hnodup
  have hvb : v.id ∉ before.map Visit.id := fun hm => hdisj v.id hm v.id List.mem_cons_self rfl
  -- what brought the heading was read before the visit, which finds the id that was written
  have hauthor : r.after.attr? v.id "id" = v.run.tree.attr? v.id "id" := by
    rcases List.mem_cons.1 hr with rfl | hr
    · exact (hs₀.id_eq v.id hb.2 hvb).symm
    · unfold Processor.readingsOf at hr
      rw [List.flatMap_append, List.flatMap_cons, List.mem_append, List.mem_append] at hr
      rcases hr with hr | hr | hr
      · exact ((hs₀.of_reading r hr v.id hb).2.2 hvb).symm
      · exact absurd hid (Nat.not_lt_of_le (hs.of_reading r hr v.id hb).1)
      · exact absurd hid' (Nat.not_lt_of_le (hs'.of_reading r hr v.id hb).1)
  -- the ids of the headings before are used when the visit begins
  have hused : ∀ x ∈ before.map Visit.id, run'.tree.isHeading x = true → ∀ value,
      run'.tree.attr? x "id" = some value → value ∈ v.run.context.usedIds := by
    intro x hx hxhead value hvalue
    have hxs := hbefore.lt_size hrules hx
    have hrest := hs.trans hs'
    rw [hrest.isHeading_eq x hxs] at hxhead
    rw [hrest.id_eq x hxs fun hm => hdisj x hx x hm rfl] at hvalue
    exact hbefore.mem_usedIds hrules hnb hx hxhead hvalue
  rw [hs'.isHeading_eq v.id hid', hs.isHeading_eq v.id hid] at hhead
  have hgiven := (hgives hhead).given
  rw [← hs'.id_eq v.id hid' hna] at hgiven
  rw [hauthor]
  generalize hfinal : run'.tree.attr? v.id "id" = given at hgiven
  cases hgiven with
  | written hw =>
    rw [hw]
    exact { written := fun _ he => hfinal.trans he
            without := nofun
            made := nofun
            shared := fun _ _ _ _ _ he => hfinal.symm.trans he }
  | without hn hslug =>
    rw [hn]
    exact { written := nofun
            without := fun _ _ => hfinal
            made := fun _ hne => absurd hslug hne
            shared := fun _ _ _ _ _ he => hfinal.symm.trans he }
  | made k hn hslug hfree =>
    have hnew : ∀ x ∈ before.map Visit.id, run'.tree.isHeading x = true →
        run'.tree.attr? x "id"
          ≠ some (candidate (slug (decodeReferences (v.run.tree.textContent v.id))) k) :=
      fun x hx hxhead he => hfree (hused x hx hxhead _ he)
    rw [hn]
    exact { written := nofun
            without := fun _ he => absurd he hslug
            made := fun _ _ => ⟨k, hfinal, hnew⟩
            shared := fun x hx hxhead value he he' =>
              absurd (he.trans (he'.symm.trans hfinal)) (hnew x hx hxhead) }

end Runs

/-! ## Pages -/

/-- **The headings of a page are settled** by the visits of a pass: each of
them has been read, from the page or from what was rendered for a region
or a promoted attribute, and its id is settled by the id it was read with
and the text it had when it was visited. -/
def HeadingsSettled (p : Processor) (start resolved : Tree) (visits : List Visit) : Prop :=
  ∀ before v after, visits = before ++ v :: after → resolved.isHeading v.id = true →
    (∃ r ∈ ⟨.empty, start⟩ :: p.readingsOf visits, r.Brings v.id)
      ∧ ∀ r ∈ ⟨.empty, start⟩ :: p.readingsOf visits, r.Brings v.id →
        SettledId resolved (before.map Visit.id) v.id (r.after.attr? v.id "id")
          (decodeReferences (v.run.tree.textContent v.id))

/-- **Heading ids over a page.** If the first pass over a page returns, then
its visits go through the resolved page in document order, each node once,
and they settle the headings of the page. -/
theorem headingIds_of_resolve {p : Processor} (hp : p.rules = builtIn) {markup file : String}
    {ids : List NodeId} {calls : List RenderCall} {log : Log} {run : Run}
    (hread : (readFragment markup).nodes = .ok ids)
    (hok : p.resolve 0 { tree := (readFragment markup).tree, context := { file }, calls, log }
      = .ok () run) :
    let start : Run := { tree := (readFragment markup).tree, context := { file }, calls, log }
    let visits := p.visits p.maxDepth 0 start
    visits.map Visit.id = run.tree.descendants 0
      ∧ HeadingsSettled p start.tree run.tree visits := by
  intro start visits
  have hrules : ∀ rule ∈ p.rules, LeavesIds rule := fun rule hr =>
    leavesIds_of_mem_builtIn (hp ▸ hr)
  obtain ⟨hwf, hsize, -⟩ := readFragment_of_ok hread
  have hlead : Leads p start visits run := leads_resolveTo p.maxDepth hwf hsize hok
  have horder : visits.map Visit.id = run.tree.descendants 0 :=
    map_id_visits p.maxDepth hwf hsize hok
  have hwf' : run.tree.WellFormed := (confined_of_resolveTo hwf hsize hok).1
  refine ⟨horder, fun before v after hsplit hhead => ?_⟩
  have hnodup : (visits.map Visit.id).Nodup := horder ▸ hwf'.nodup_descendants 0
  refine ⟨hlead.exists_reading hrules (hsplit ▸ List.mem_append_right _ List.mem_cons_self) hhead,
    fun r hr hb => ?_⟩
  rw [hsplit] at hlead hnodup hr
  exact hlead.settledId hrules hnodup hhead hr hb

/-- A heading of the page, and one that is rendered for an attribute. -/
theorem headingIds_of_resolve_panel :
    let p : Processor := { renderer := .ofFunction fun call => .ok ("<h2>" ++ call.source ++ "</h2>") }
    let start : Run := {
      tree := (readFragment "<h1>a</h1><panel header=\"A\"></panel>").tree
      context := { file := "page.md" } }
    ∃ run, p.resolve 0 start = .ok () run
      ∧ (p.visits p.maxDepth 0 start).map Visit.id = run.tree.descendants 0
      ∧ HeadingsSettled p start.tree run.tree (p.visits p.maxDepth 0 start) := by
  intro p start
  have hread : (readFragment "<h1>a</h1><panel header=\"A\"></panel>").nodes = .ok [2, 4] := by
    decide +kernel
  obtain ⟨_, run, hok⟩ := exists_of_returns (show returns (p.resolve 0 start) = true by
    decide +kernel)
  exact ⟨run, hok, headingIds_of_resolve rfl hread hok⟩

end PageSlots.Page
