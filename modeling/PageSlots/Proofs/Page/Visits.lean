import PageSlots.Proofs.Content.Walk
import PageSlots.Proofs.Page.Simulation

/-!
# The visits of the first pass

The first pass enters one node after the other. Between two entries it
only takes an element off the enclosing ones, so a run of the pass is a
sequence of entries: `Leads` says that a list of visits, each a node and
the run in which the pass comes to it, leads from one run to another.
Whatever an entry keeps is kept along the list, by induction on it.

`Processor.visits` lists the visits of a pass. The list leads from the
start of the pass to its end (`leads_resolveTo`), and its nodes are those
of the *final* tree in document order, each once (`map_id_visits`):
nothing that has been visited is taken out of the tree or moved, because
an entry is confined to its node and the passes over the children of a
node do not meet.
-/

namespace PageSlots.Page

open PageSlots.Component PageSlots.Markup PageSlots.Markup.Tree

/-- **A visit**: a node, and the run in which the pass comes to it. -/
structure Visit where
  /-- The node. -/
  id : NodeId
  /-- The run. -/
  run : Run

/-- A run with other enclosing elements. -/
def Run.inside (run : Run) (ancestors : List String) : Run :=
  { run with context := { run.context with ancestors } }

namespace Processor

variable (p : Processor)

/-- Apply the rule of an element, if there is one. -/
def applyRules (id : NodeId) : PageM Unit := do
  match p.rules.find ((← getTree).tag id) with
  | none => return
  | some rule => applyRule p.renderer id rule

/-- **Enter a node**: what the pass does before it goes on to the
children. -/
def enter (id : NodeId) : PageM Unit := do
  if (← getTree).isElement id then
    p.visitElement id
  modifyTree (normalizeChildren · id)
  let t ← getTree
  if t.isElement id then
    modifyContext (·.pushAncestor (t.tag id))

/-- What is listed for nodes that are gone through one after the other, as
far as that succeeds. -/
def listInTurn {α : Type} (f : NodeId → PageM Unit) (list : NodeId → Run → List α) :
    List NodeId → Run → List α
  | [], _ => []
  | id :: ids, run =>
    list id run ++
      match f id run with
      | .ok _ next => listInTurn f list ids next
      | .error _ _ => []

/-- **The visits of the pass**, as far as it succeeds. -/
def visits : Nat → NodeId → Run → List Visit
  | 0, _, _ => []
  | depth + 1, id, run =>
    ⟨id, run⟩ ::
      match p.enter id run with
      | .ok _ next => listInTurn (p.resolveTo depth) (visits depth) (next.tree.children id) next
      | .error _ _ => []

/-- **The pass enters a node, goes on to its children and leaves it.** -/
theorem resolveTo_succ (depth : Nat) (id : NodeId) (run : Run) :
    p.resolveTo (depth + 1) id run
      = (p.enter id >>= fun _ => getTree >>= fun t =>
          (t.children id).forM (p.resolveTo depth) >>= fun _ =>
            if t.isElement id then modifyContext (·.popAncestor.2) else pure ()) run := by
  -- going on to the children, with the element put on and taken off in one branch or in two
  have hdescend : (getTree >>= fun t =>
      if t.isElement id = true then
        modifyContext (·.pushAncestor (t.tag id)) >>= fun _ =>
          (t.children id).forM (p.resolveTo depth) >>= fun _ => modifyContext (·.popAncestor.2)
      else (t.children id).forM (p.resolveTo depth))
      = (getTree >>= fun t =>
          if t.isElement id = true then modifyContext (·.pushAncestor (t.tag id)) else pure ())
        >>= fun _ => getTree >>= fun t =>
          (t.children id).forM (p.resolveTo depth) >>= fun _ =>
            if t.isElement id = true then modifyContext (·.popAncestor.2) else pure () := by
    funext run
    rw [bind_assoc, bind_of_ok (getTree_eq run), bind_of_ok (getTree_eq run)]
    by_cases he : run.tree.isElement id = true
    · rw [if_pos he, if_pos he, bind_of_ok (modifyContext_eq _ run),
        bind_of_ok (modifyContext_eq _ run), bind_of_ok (getTree_eq _)]
      dsimp only
      rw [if_pos he]
    · rw [if_neg he, if_neg he, pure_bind, bind_of_ok (getTree_eq run), if_neg he, bind_pure]
  unfold resolveTo enter
  rw [bind_assoc, bind_of_ok (getTree_eq run), bind_of_ok (getTree_eq run)]
  dsimp only
  rw [hdescend]
  by_cases he : run.tree.isElement id = true
  · rw [if_pos he, if_pos he]
    simp only [bind_assoc]
  · rw [if_neg he, if_neg he]
    simp only [bind_assoc]

end Processor

/-! ## A run as a sequence of entries -/

/-- **Visits lead from one run to another**: between two visits only the
enclosing elements change, and each visit leaves the run in which its node
has been entered. -/
inductive Leads (p : Processor) : Run → List Visit → Run → Prop where
  /-- Nothing is visited. -/
  | stay {run : Run} (ancestors : List String) : Leads p run [] (run.inside ancestors)
  /-- A node is entered, and other visits follow. -/
  | enter {run run' next : Run} {id : NodeId} {visits : List Visit} (ancestors : List String) :
      run.tree.WellFormed → id < run.tree.size →
      p.enter id (run.inside ancestors) = .ok () next → Leads p next visits run' →
      Leads p run (⟨id, run.inside ancestors⟩ :: visits) run'

namespace Leads

variable {p : Processor} {run run' run'' : Run} {before after visits : List Visit} {v : Visit}

theorem refl (p : Processor) (run : Run) : Leads p run [] run :=
  .stay run.context.ancestors

/-- The enclosing elements at the start do not matter. -/
theorem of_inside {ancestors : List String} (h : Leads p (run.inside ancestors) visits run') :
    Leads p run visits run' := by
  cases h with
  | stay ancestors' => exact .stay ancestors'
  | enter ancestors' hwf hid hok h => exact .enter ancestors' hwf hid hok h

theorem trans (h : Leads p run before run') (h' : Leads p run' after run'') :
    Leads p run (before ++ after) run'' := by
  induction h with
  | stay ancestors => exact h'.of_inside
  | enter ancestors hwf hid hok _ ih => exact .enter ancestors hwf hid hok (ih h')

/-- **A run is split at any of its visits.** -/
theorem split (h : Leads p run (before ++ v :: after) run') :
    ∃ next, Leads p run before v.run ∧ v.run.tree.WellFormed ∧ v.id < v.run.tree.size
      ∧ p.enter v.id v.run = .ok () next ∧ Leads p next after run' := by
  induction before generalizing run with
  | nil =>
    cases h with
    | enter ancestors hwf hid hok h => exact ⟨_, .stay ancestors, hwf, hid, hok, h⟩
  | cons w before ih =>
    cases h with
    | enter ancestors hwf hid hok h =>
      obtain ⟨next, hb, hrest⟩ := ih h
      exact ⟨next, .enter ancestors hwf hid hok hb, hrest⟩

end Leads

/-! ## The visits of the pass -/

section Pass

variable {p : Processor} {run run' next : Run} {id : NodeId} {ids : List NodeId} {depth : Nat}

/-- What agrees with a step on values leaves a well-formed tree when it
returns, and changes nothing outside its roots. -/
theorem Agree.confined_of_ok {α β : Type} {roots : List NodeId} {t : Tree}
    {post : α → Tree → β → Prop} {a : α} {s : EStateM.Result PageFault Notes β}
    (h : Agree roots t post (.ok a run) s) : run.tree.WellFormed ∧ Confined roots t run.tree := by
  cases h with
  | ok _ hwf hcf _ => exact ⟨hwf, hcf⟩

theorem confined_of_resolveTo (h : run.tree.WellFormed) (hid : id < run.tree.size)
    (hok : p.resolveTo depth id run = .ok () run') :
    run'.tree.WellFormed ∧ Confined [id] run.tree run'.tree := by
  obtain ⟨c, hc⟩ := h.exists_shows id
  have hagree := agree_resolveTo p depth h hid hc
  rw [hok] at hagree
  exact hagree.confined_of_ok

theorem confined_of_forM (h : run.tree.WellFormed) (hids : ∀ i ∈ ids, i < run.tree.size)
    (hapart : ids.Pairwise run.tree.Apart)
    (hok : ids.forM (p.resolveTo depth) run = .ok () run') :
    run'.tree.WellFormed ∧ Confined ids run.tree run'.tree := by
  obtain ⟨cs, hcs⟩ := exists_forall₂_shows fun i (_ : i ∈ ids) => h.exists_shows i
  have hagree := agree_forM (agree_resolveTo p depth) h hids hapart hcs
  rw [hok] at hagree
  exact hagree.confined_of_ok

/-- **Entering a node is confined to it.** -/
theorem confined_of_enter (h : run.tree.WellFormed) (hid : id < run.tree.size)
    (hok : p.enter id run = .ok () next) :
    next.tree.WellFormed ∧ Confined [id] run.tree next.tree := by
  obtain ⟨mid, hmid, hwf, hcf⟩ : ∃ mid : Run,
      (modifyTree (Processor.normalizeChildren · id) >>= fun _ => getTree >>= fun t =>
        if t.isElement id then modifyContext (·.pushAncestor (t.tag id)) else pure ()) mid
        = .ok () next ∧ mid.tree.WellFormed ∧ Confined [id] run.tree mid.tree := by
    unfold Processor.enter at hok
    rw [bind_of_ok (getTree_eq run)] at hok
    by_cases he : run.tree.isElement id = true
    · dsimp only at hok
      rw [if_pos he] at hok
      obtain ⟨_, mid, hv, hrest⟩ := exists_of_bind_ok hok
      obtain ⟨c, hc⟩ := h.exists_shows id
      have hagree := agree_visitElement h hid hc p
      rw [hv] at hagree
      exact ⟨mid, hrest, hagree.confined_of_ok⟩
    · dsimp only at hok
      rw [if_neg he] at hok
      exact ⟨run, hok, h, .refl _ _⟩
  obtain ⟨cs, hcs⟩ := exists_forall₂_shows fun i (_ : i ∈ mid.tree.children id) =>
    hwf.exists_shows i
  obtain ⟨hwf', hcf', -, -⟩ := hwf.normalizeChildren hcs
  rw [bind_of_ok (modifyTree_eq _ mid), bind_of_ok (getTree_eq _)] at hmid
  have htree : next.tree = Processor.normalizeChildren mid.tree id := by
    split at hmid <;> cases hmid <;> rfl
  rw [htree]
  exact ⟨hwf', hcf.trans hcf' h hwf⟩

/-- **A pass that returns** has entered its node and gone through the
children. -/
theorem exists_of_resolveTo (hok : p.resolveTo (depth + 1) id run = .ok () run') :
    ∃ next last ancestors, p.enter id run = .ok () next
      ∧ (next.tree.children id).forM (p.resolveTo depth) next = .ok () last
      ∧ run' = last.inside ancestors
      ∧ p.visits (depth + 1) id run = ⟨id, run⟩ ::
          Processor.listInTurn (p.resolveTo depth) (p.visits depth) (next.tree.children id) next := by
  rw [p.resolveTo_succ] at hok
  obtain ⟨_, next, hnext, hok⟩ := exists_of_bind_ok hok
  rw [bind_of_ok (getTree_eq next)] at hok
  obtain ⟨_, last, hlast, hok⟩ := exists_of_bind_ok hok
  obtain ⟨ancestors, hrun⟩ : ∃ ancestors, run' = last.inside ancestors := by
    split at hok
    · cases hok
      exact ⟨_, rfl⟩
    · cases hok
      exact ⟨run'.context.ancestors, rfl⟩
  refine ⟨next, last, ancestors, hnext, hlast, hrun, ?_⟩
  rw [Processor.visits, hnext]

/-- **The visits of the pass lead from its start to its end.** -/
theorem leads_resolveTo (depth : Nat) : ∀ {run run' : Run} {id : NodeId}, run.tree.WellFormed →
    id < run.tree.size → p.resolveTo depth id run = .ok () run' →
    Leads p run (p.visits depth id run) run' := by
  induction depth with
  | zero => exact fun _ _ hok => nomatch hok
  | succ depth ih =>
    intro run run' id h hid hok
    obtain ⟨next, last, ancestors, hnext, hlast, rfl, hvisits⟩ := exists_of_resolveTo hok
    obtain ⟨hwf, -⟩ := confined_of_enter h hid hnext
    rw [hvisits]
    refine .enter run.context.ancestors h hid hnext ?_
    rw [← List.append_nil (Processor.listInTurn ..)]
    refine Leads.trans ?_ (.stay ancestors)
    -- the children are gone through one after the other
    have hturn : ∀ (ids : List NodeId) (next : Run), next.tree.WellFormed →
        (∀ i ∈ ids, i < next.tree.size) → ids.forM (p.resolveTo depth) next = .ok () last →
        Leads p next (Processor.listInTurn (p.resolveTo depth) (p.visits depth) ids next) last := by
      intro ids
      induction ids with
      | nil =>
        rintro next - - hok
        cases hok
        exact .refl p last
      | cons i ids ih' =>
        intro next hwf hids hok
        obtain ⟨_, mid, hmid, hok⟩ := exists_of_bind_ok hok
        have hi := hids i List.mem_cons_self
        obtain ⟨hwf', hcf⟩ := confined_of_resolveTo hwf hi hmid
        rw [Processor.listInTurn, hmid]
        exact (ih hwf hi hmid).trans (ih' mid hwf' (fun k hk =>
          Nat.lt_of_lt_of_le (hids k (List.mem_cons_of_mem i hk)) hcf.size_le) hok)
    exact hturn _ next hwf (fun i hi => hwf.lt_of_mem hi) hlast

/-- **The visited nodes are the nodes of the final tree, in document
order.** -/
theorem map_id_visits (depth : Nat) : ∀ {run run' : Run} {id : NodeId}, run.tree.WellFormed →
    id < run.tree.size → p.resolveTo depth id run = .ok () run' →
    (p.visits depth id run).map Visit.id = run'.tree.descendants id := by
  induction depth with
  | zero => exact fun _ _ hok => nomatch hok
  | succ depth ih =>
    intro run run' id h hid hok
    obtain ⟨next, last, ancestors, hnext, hlast, rfl, hvisits⟩ := exists_of_resolveTo hok
    obtain ⟨hwf, hcf⟩ := confined_of_enter h hid hnext
    have hid' := Nat.lt_of_lt_of_le hid hcf.size_le
    have hapart := hwf.pairwise_apart_children id
    have hkids := fun i (hi : i ∈ next.tree.children id) => hwf.lt_of_mem hi
    obtain ⟨hwf', hcf'⟩ := confined_of_forM hwf hkids hapart hlast
    have hchildren := hcf'.children_eq hid' fun r hr => hwf.not_within_of_mem hr
    rw [hvisits, List.map_cons, show (last.inside ancestors).tree = last.tree from rfl,
      hwf'.descendants_eq (Nat.lt_of_lt_of_le hid' hcf'.size_le), hchildren]
    refine congrArg (id :: ·) ?_
    -- the pass over one child leaves what has been visited below the earlier ones
    have hturn : ∀ (ids : List NodeId) (next : Run), next.tree.WellFormed →
        (∀ i ∈ ids, i < next.tree.size) → ids.Pairwise next.tree.Apart →
        ids.forM (p.resolveTo depth) next = .ok () last →
        (Processor.listInTurn (p.resolveTo depth) (p.visits depth) ids next).map Visit.id
          = ids.flatMap last.tree.descendants := by
      intro ids
      induction ids with
      | nil => exact fun _ _ _ _ _ => rfl
      | cons i ids ih' =>
        intro next hwf hids hapart hok
        obtain ⟨_, mid, hmid, hok⟩ := exists_of_bind_ok hok
        have hi := hids i List.mem_cons_self
        have hids := fun k (hk : k ∈ ids) => hids k (List.mem_cons_of_mem i hk)
        obtain ⟨hwf', hcf⟩ := confined_of_resolveTo hwf hi hmid
        obtain ⟨hia, hapart'⟩ := List.pairwise_cons.1 (hcf.pairwise_apart hwf hwf' hids hapart)
        have hids' := fun k (hk : k ∈ ids) => Nat.lt_of_lt_of_le (hids k hk) hcf.size_le
        obtain ⟨-, hcf'⟩ := confined_of_forM hwf' hids' hapart' hok
        have hfirst := hcf'.descendants_eq hwf' (Nat.lt_of_lt_of_le hi hcf.size_le)
          fun r hr => (hia r hr).symm
        rw [Processor.listInTurn, hmid, List.map_append, ih hwf hi hmid, List.flatMap_cons, hfirst,
          ih' mid hwf' hids' hapart' hok]
    exact hturn _ next hwf hkids hapart hlast

end Pass

end PageSlots.Page
