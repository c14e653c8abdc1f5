import PageSlots.Proofs.Page.Placement

/-!
# The enclosing elements are the real ones

The first pass carries the tags of the enclosing elements along. It could
look them up in the tree instead: at every visit they are the tags of the
elements above the visited node, and so they are still when the pass ends.

That both hold together is what makes it work. A visit may give its node
another tag, put a template around a child and bring in new nodes, but all
of that happens below the node or at it, and before the pass goes inside.
What stands above a visited node is settled by then; later visits are
confined to subtrees in which it does not stand
(`Confined.enclosingTags_eq`). So `Recorded` is told by the tree that a
stretch of the pass leaves, and goes along with stretches one after the
other (`Recorded.append`) and with going inside a node (`Recorded.enter`).

The warnings of misplaced components follow: a component is compared with
the elements that the pass carries along, and these are those around it in
the tree that is written in the end.
-/

namespace PageSlots.Page

open PageSlots.Component PageSlots.Markup PageSlots.Markup.Tree

/-- **The warning for a node of a tree**, if it is an element that stands
outside its containers, given the elements around the tree. -/
def Processor.misplaced? (p : Processor) (file : String) (outer : List String) (t : Tree)
    (id : NodeId) : Option LogEntry :=
  (t.elementTag? id).bind (p.misplacedIn? file (t.enclosingTags id ++ outer))

/-- **A stretch of the pass below some nodes is recorded** by its visits:
each has had the elements around its node at hand, as the tree shows them
that the stretch leaves, and the warnings are those for the visited
nodes. -/
structure Recorded (p : Processor) (outer : List String) (ids : List NodeId) (run : Run)
    (visits : List Visit) (r : EStateM.Result PageFault Run Unit) : Prop where
  /-- The visited nodes stand below the nodes. -/
  within : ∀ v ∈ visits, ∃ i ∈ ids, (runAfter r).tree.Within i v.id
  /-- What encloses a visited node is what encloses it in the end. -/
  enclosingTags_eq : ∀ v ∈ visits,
    v.run.tree.enclosingTags v.id = (runAfter r).tree.enclosingTags v.id
  /-- The pass has had it at hand. -/
  ancestors_eq : ∀ v ∈ visits,
    v.run.context.ancestors = (runAfter r).tree.enclosingTags v.id ++ outer
  /-- If the stretch succeeds, it leaves the enclosing elements it began
  with. -/
  balanced : ∀ next, r = .ok () next → next.context.ancestors = run.context.ancestors
  /-- The name of the file stays. -/
  file_eq : (runAfter r).context.file = run.context.file
  /-- The misplaced components are told. -/
  told : ∃ told, (runAfter r).log = run.log ++ told ∧ told.filter isMisplacedEntry
    = (visits.filter p.reachesRule).filterMap fun v =>
        p.misplaced? run.context.file outer (runAfter r).tree v.id

section Pass

variable {p : Processor} {outer : List String} {id : NodeId} {ids : List NodeId}
variable {run mid next : Run} {visits visits' : List Visit}
variable {r r' : EStateM.Result PageFault Run Unit}

/-- **A node outside the roots is misplaced as before.** -/
theorem misplaced?_eq {roots : List NodeId} {t t' : Tree} (h : Confined roots t t')
    (hwf : t.WellFormed) (hid : id < t.size) (hout : ∀ r ∈ roots, ¬ t.Within r id) (file : String) :
    p.misplaced? file outer t' id = p.misplaced? file outer t id := by
  unfold Processor.misplaced?
  rw [h.elementTag?_eq hid hout, h.enclosingTags_eq hwf hid hout]

/-- The warnings of a visit are those for its node. -/
theorem warnings_eq {t : Tree} (h : run.context.ancestors = t.enclosingTags id ++ outer) :
    p.warnings ⟨id, run⟩ t = ([⟨id, run⟩].filter p.reachesRule).filterMap fun v : Visit =>
      p.misplaced? run.context.file outer t v.id := by
  unfold Processor.warnings Processor.misplaced?
  by_cases hr : p.reachesRule ⟨id, run⟩ = true
  · rw [if_pos hr, List.filter_cons_of_pos hr, List.filter_nil, List.filterMap_cons,
      List.filterMap_nil, h]
    dsimp only
    cases (t.elementTag? id).bind
      (p.misplacedIn? run.context.file (t.enclosingTags id ++ outer)) <;> rfl
  · rw [if_neg hr, List.filter_cons_of_neg hr]
    rfl

namespace Recorded

/-- Nothing is visited, and nothing is told. -/
theorem nil (hrun : runAfter r = run) : Recorded p outer ids run [] r where
  within := nofun
  enclosingTags_eq := nofun
  ancestors_eq := nofun
  balanced next hok := by
    rw [hok] at hrun
    rw [← hrun, runAfter_ok]
  file_eq := by rw [hrun]
  told := ⟨[], by rw [hrun, List.append_nil], rfl⟩

/-- More nodes may be named. -/
theorem mono {ids' : List NodeId} (h : Recorded p outer ids run visits r) (hsub : ids ⊆ ids') :
    Recorded p outer ids' run visits r where
  within v hv := by
    obtain ⟨i, hi, hw⟩ := h.within v hv
    exact ⟨i, hsub hi, hw⟩
  enclosingTags_eq := h.enclosingTags_eq
  ancestors_eq := h.ancestors_eq
  balanced := h.balanced
  file_eq := h.file_eq
  told := h.told

/-- **The pass over a node, and then over others** that are apart from
it. -/
theorem append (h : Recorded p outer [id] run visits (.ok () mid))
    (h' : Recorded p outer ids mid visits' r) (hwf : mid.tree.WellFormed)
    (hid : id < mid.tree.size) (hapart : ∀ i ∈ ids, mid.tree.Apart i id)
    (hcf : Confined ids mid.tree (runAfter r).tree) :
    Recorded p outer (id :: ids) run (visits ++ visits') r := by
  -- what the first pass has visited is out of reach for the others
  have hfirst : ∀ v ∈ visits, mid.tree.Within id v.id ∧ v.id < mid.tree.size
      ∧ ∀ i ∈ ids, ¬ mid.tree.Within i v.id := by
    intro v hv
    obtain ⟨i, hi, hw⟩ := h.within v hv
    rw [List.mem_singleton.1 hi] at hw
    exact ⟨hw, hwf.lt_of_within hid hw, fun k hk => hwf.not_within_of_apart (hapart k hk).symm hw⟩
  have hkept : ∀ v ∈ visits,
      (runAfter r).tree.enclosingTags v.id = mid.tree.enclosingTags v.id := fun v hv =>
    hcf.enclosingTags_eq hwf (hfirst v hv).2.1 (hfirst v hv).2.2
  refine {
    within := fun v hv => ?_
    enclosingTags_eq := fun v hv => ?_
    ancestors_eq := fun v hv => ?_
    balanced := fun next hok => (h'.balanced next hok).trans (h.balanced mid rfl)
    file_eq := h'.file_eq.trans h.file_eq
    told := ?_ }
  · rcases List.mem_append.1 hv with hv | hv
    · exact ⟨id, List.mem_cons_self, (hcf.within_of_apart hwf hid hapart).2 (hfirst v hv).1⟩
    · obtain ⟨i, hi, hw⟩ := h'.within v hv
      exact ⟨i, List.mem_cons_of_mem id hi, hw⟩
  · rcases List.mem_append.1 hv with hv | hv
    · exact (h.enclosingTags_eq v hv).trans (hkept v hv).symm
    · exact h'.enclosingTags_eq v hv
  · rcases List.mem_append.1 hv with hv | hv
    · rw [hkept v hv]
      exact h.ancestors_eq v hv
    · exact h'.ancestors_eq v hv
  · obtain ⟨told, hlog, hwarn⟩ := h.told
    obtain ⟨told', hlog', hwarn'⟩ := h'.told
    have hfile : mid.context.file = run.context.file := h.file_eq
    refine ⟨told ++ told', ?_, ?_⟩
    · rw [hlog', ← List.append_assoc, ← hlog, runAfter_ok]
    · rw [List.filter_append, List.filter_append, List.filterMap_append, hwarn, hwarn', hfile]
      refine congrArg (· ++ _) (List.filterMap_congr fun v hv => ?_)
      obtain ⟨-, hlt, hout⟩ := hfirst v (List.mem_of_mem_filter hv)
      exact (misplaced?_eq hcf hwf hlt hout run.context.file).symm

/-- **Entering a node that cannot be visited** is all there is of it. -/
theorem of_enter_error (h : run.tree.WellFormed) (hid : id < run.tree.size)
    (hancestors : run.context.ancestors = run.tree.enclosingTags id ++ outer) {fault : PageFault}
    (henter : Enters p id run mid) :
    Recorded p outer [id] run [⟨id, run⟩] (.error fault mid) := by
  have hroot := henter.confined.enclosingTags_root h henter.wellFormed hid
  rw [← hroot] at hancestors
  refine {
    within := fun v hv => ⟨id, List.mem_cons_self, List.mem_singleton.1 hv ▸ .refl⟩
    enclosingTags_eq := fun v hv => List.mem_singleton.1 hv ▸ hroot.symm
    ancestors_eq := fun v hv => List.mem_singleton.1 hv ▸ hancestors
    balanced := nofun
    file_eq := henter.file_eq
    told := ?_ }
  obtain ⟨told, hlog, hwarn⟩ := henter.told
  exact ⟨told, hlog, hwarn.trans (warnings_eq hancestors)⟩

/-- **The pass over a node** enters it, goes through the children and
leaves it. What encloses a child is what encloses the node, and the node
itself. -/
theorem enter (h : run.tree.WellFormed) (hid : id < run.tree.size)
    (hancestors : run.context.ancestors = run.tree.enclosingTags id ++ outer)
    (henter : Enters p id run next)
    (hkids : Recorded p outer (next.tree.children id) next visits r)
    (hcf : Confined (next.tree.children id) next.tree (runAfter r).tree)
    (htree : (runAfter r').tree = (runAfter r).tree)
    (hfile : (runAfter r').context.file = (runAfter r).context.file)
    (hlog : (runAfter r').log = (runAfter r).log)
    (hleave : ∀ last, r' = .ok () last → last.context.ancestors = run.context.ancestors) :
    Recorded p outer [id] run (⟨id, run⟩ :: visits) r' := by
  have hid' := Nat.lt_of_lt_of_le hid henter.confined.size_le
  have hout : ∀ c ∈ next.tree.children id, ¬ next.tree.Within c id := fun c hc =>
    henter.wellFormed.not_within_of_mem hc
  have hroot : (runAfter r).tree.enclosingTags id = run.tree.enclosingTags id :=
    (hcf.enclosingTags_eq henter.wellFormed hid' hout).trans
      (henter.confined.enclosingTags_root h henter.wellFormed hid)
  rw [← hroot] at hancestors
  refine {
    within := fun v hv => ⟨id, List.mem_cons_self, ?_⟩
    enclosingTags_eq := fun v hv => ?_
    ancestors_eq := fun v hv => ?_
    balanced := hleave
    file_eq := hfile.trans (hkids.file_eq.trans henter.file_eq)
    told := ?_ }
  · rw [htree]
    rcases List.mem_cons.1 hv with rfl | hv
    · exact .refl
    · obtain ⟨c, hc, hw⟩ := hkids.within v hv
      rw [← hcf.children_eq hid' hout] at hc
      exact (Within.refl.child hc).trans hw
  · rw [htree]
    rcases List.mem_cons.1 hv with rfl | hv
    · exact hroot.symm
    · exact hkids.enclosingTags_eq v hv
  · rw [htree]
    rcases List.mem_cons.1 hv with rfl | hv
    · exact hancestors
    · exact hkids.ancestors_eq v hv
  · obtain ⟨told, hnext, hwarn⟩ := henter.told
    obtain ⟨told', hlast, hwarn'⟩ := hkids.told
    refine ⟨told ++ told', ?_, ?_⟩
    · rw [hlog, hlast, hnext, List.append_assoc]
    · have htag : (runAfter r).tree.elementTag? id = next.tree.elementTag? id :=
        hcf.elementTag?_eq hid' hout
      have hfirst : p.warnings ⟨id, run⟩ next.tree = p.warnings ⟨id, run⟩ (runAfter r).tree := by
        rw [Processor.warnings, Processor.warnings, htag]
      rw [htree, List.filter_append, hwarn, hwarn', hfirst, warnings_eq hancestors, henter.file_eq,
        ← List.filterMap_append, ← List.filter_append, List.singleton_append]

end Recorded

/-! ## The pass -/

/-- **The pass over nodes that are apart is recorded**, if the pass over
each is. -/
theorem recorded_forM {depth : Nat}
    (hone : ∀ {run : Run} {id : NodeId}, run.tree.WellFormed → id < run.tree.size →
      run.context.ancestors = run.tree.enclosingTags id ++ outer →
      Recorded p outer [id] run (p.visits depth id run) (p.resolveTo depth id run)) :
    ∀ {ids : List NodeId} {run : Run}, run.tree.WellFormed → (∀ i ∈ ids, i < run.tree.size) →
      ids.Pairwise run.tree.Apart →
      (∀ i ∈ ids, run.context.ancestors = run.tree.enclosingTags i ++ outer) →
      Recorded p outer ids run
        (Processor.listInTurn (p.resolveTo depth) (p.visits depth) ids run)
        (ids.forM (p.resolveTo depth) run)
  | [], run, _, _, _, _ => .nil rfl
  | i :: ids, run, h, hsize, hapart, hancestors => by
    have hi := hsize i List.mem_cons_self
    have hfirst := hone h hi (hancestors i List.mem_cons_self)
    have hsize := fun k hk => hsize k (List.mem_cons_of_mem i hk)
    rw [Processor.listInTurn, List.forM_eq_forM, List.forM_cons]
    cases hok : p.resolveTo depth i run with
    | error fault mid =>
      rw [hok] at hfirst
      rw [bind_of_error hok]
      dsimp only
      rw [List.append_nil]
      exact hfirst.mono (List.cons_subset_cons i (List.nil_subset ids))
    | ok _ mid =>
      rw [hok] at hfirst
      obtain ⟨hwf, hcf⟩ := confined_of_resolveTo h hi hok
      obtain ⟨hia, hapart'⟩ := List.pairwise_cons.1 (hcf.pairwise_apart h hwf hsize hapart)
      have hsize' := fun k hk => Nat.lt_of_lt_of_le (hsize k hk) hcf.size_le
      have hrest : Recorded p outer ids mid
          (Processor.listInTurn (p.resolveTo depth) (p.visits depth) ids mid)
          (ids.forM (p.resolveTo depth) mid) := by
        refine recorded_forM hone hwf hsize' hapart' fun k hk => ?_
        have hout : ∀ r ∈ [i], ¬ run.tree.Within r k :=
          List.forall_mem_singleton.2 ((List.pairwise_cons.1 hapart).1 k hk).left
        rw [hfirst.balanced mid rfl, hcf.enclosingTags_eq h (hsize k hk) hout]
        exact hancestors k (List.mem_cons_of_mem i hk)
      obtain ⟨cs, hcs⟩ := exists_forall₂_shows fun k (_ : k ∈ ids) => hwf.exists_shows k
      have hagree := agree_forM (agree_resolveTo p depth) hwf hsize' hapart' hcs
      rw [bind_of_ok hok]
      exact hfirst.append hrest hwf (Nat.lt_of_lt_of_le hi hcf.size_le)
        (fun k hk => (hia k hk).symm) hagree.confined.2

/-- **The pass over a node is recorded**, whether it succeeds or not. -/
theorem recorded_resolveTo (p : Processor) (outer : List String) (depth : Nat) :
    ∀ {run : Run} {id : NodeId}, run.tree.WellFormed → id < run.tree.size →
      run.context.ancestors = run.tree.enclosingTags id ++ outer →
      Recorded p outer [id] run (p.visits depth id run) (p.resolveTo depth id run) := by
  induction depth with
  | zero => exact fun _ _ _ => .nil rfl
  | succ depth ih =>
    intro run id h hid hancestors
    obtain ⟨henter, hinside⟩ := enters_enter (p := p) h hid
    rw [p.resolveTo_succ, Processor.visits]
    cases hok : p.enter id run with
    | error fault mid =>
      rw [hok, runAfter_error] at henter
      rw [bind_of_error hok]
      exact .of_enter_error h hid hancestors henter
    | ok _ next =>
      rw [hok, runAfter_ok] at henter
      have hinside := hinside next hok
      have hwf := henter.wellFormed
      have hapart := hwf.pairwise_apart_children id
      have hsize := fun i (hi : i ∈ next.tree.children id) => hwf.lt_of_mem hi
      have hkids : Recorded p outer (next.tree.children id) next
          (Processor.listInTurn (p.resolveTo depth) (p.visits depth) (next.tree.children id) next)
          ((next.tree.children id).forM (p.resolveTo depth) next) := by
        refine recorded_forM ih hwf hsize hapart fun c hc => ?_
        rw [hwf.enclosingTags_of_mem hc, henter.confined.enclosingTags_root h hwf hid, hinside,
          hancestors, List.append_assoc]
      obtain ⟨cs, hcs⟩ := exists_forall₂_shows fun i (_ : i ∈ next.tree.children id) =>
        hwf.exists_shows i
      obtain ⟨-, hcf'⟩ := (agree_forM (agree_resolveTo p depth) hwf hsize hapart hcs).confined
      rw [bind_of_ok hok, bind_of_ok (getTree_eq next)]
      dsimp only
      cases hlast : (next.tree.children id).forM (p.resolveTo depth) next with
      | error fault last =>
        rw [hlast] at hkids hcf'
        rw [bind_of_error hlast]
        refine .enter h hid hancestors henter hkids hcf' rfl rfl rfl fun _ hnone => ?_
        cases hnone
      | ok _ last =>
        rw [hlast] at hkids hcf'
        have hbalanced := hkids.balanced last rfl
        rw [bind_of_ok hlast]
        by_cases he : next.tree.isElement id = true
        · rw [if_pos he]
          refine .enter h hid hancestors henter hkids hcf' rfl rfl rfl ?_
          rintro _ ⟨⟩
          show last.context.ancestors.tail = _
          rw [hbalanced, hinside, elementTag?, if_pos he]
          rfl
        · rw [if_neg he]
          refine .enter h hid hancestors henter hkids hcf' rfl rfl rfl ?_
          rintro _ ⟨⟩
          rw [hbalanced, hinside, elementTag?, if_neg he]
          rfl

/-- In a pass that succeeds every visit comes to its rule. -/
theorem reachesRule_of_resolveTo {depth : Nat} (h : run.tree.WellFormed) (hid : id < run.tree.size)
    (hok : p.resolveTo depth id run = .ok () next) {v : Visit} (hv : v ∈ p.visits depth id run) :
    p.reachesRule v = true := by
  have hleads := leads_resolveTo depth h hid hok
  obtain ⟨before, after, hsplit⟩ := List.append_of_mem hv
  rw [hsplit] at hleads
  obtain ⟨_, -, -, -, henter, -⟩ := hleads.split
  exact reachesRule_of_enter henter

end Pass

/-! ## Pages -/

/-- **The enclosing elements are the real ones.** Whatever the page, the
renderer, the rules and the elements that enclose the page, the pass comes
to every node with the tags of the elements above it at hand, innermost
first, and these are also what stands above it in the end. A pass that
succeeds leaves what enclosed it at the start. The components that are
told to be misplaced are, in the order in which they are visited, those
that name containers none of which encloses them in the end; in a pass
that succeeds these are all such components of the page. -/
theorem ancestry_of_resolve {p : Processor} {markup : String} {ids : List NodeId} {start : Run}
    (hread : (readFragment markup).nodes = .ok ids)
    (hstart : start.tree = (readFragment markup).tree) :
    let visits := p.visits p.maxDepth 0 start
    let last := runAfter (p.resolve 0 start)
    (∀ v ∈ visits,
        v.run.context.ancestors = v.run.tree.enclosingTags v.id ++ start.context.ancestors
          ∧ v.run.tree.enclosingTags v.id = last.tree.enclosingTags v.id)
      ∧ (∃ told, last.log = start.log ++ told ∧ told.filter isMisplacedEntry
          = (visits.filter p.reachesRule).filterMap fun v =>
              p.misplaced? start.context.file start.context.ancestors last.tree v.id)
      ∧ ∀ next, p.resolve 0 start = .ok () next →
          next.context.ancestors = start.context.ancestors
            ∧ visits.map Visit.id = next.tree.descendants 0
            ∧ ∃ told, next.log = start.log ++ told ∧ told.filter isMisplacedEntry
                = (next.tree.descendants 0).filterMap
                    (p.misplaced? start.context.file start.context.ancestors next.tree) := by
  obtain ⟨hwf, hsize, -⟩ := readFragment_of_ok hread
  have hparent := parent_readFragment hread
  rw [← hstart] at hwf hsize hparent
  have hroot : start.tree.enclosingTags 0 = [] := hwf.enclosingTags_of_none hsize hparent
  have hrecorded := recorded_resolveTo p start.context.ancestors p.maxDepth hwf hsize
    (by rw [hroot, List.nil_append])
  intro visits last
  refine ⟨fun v hv => ?_, hrecorded.told, fun next hok => ?_⟩
  · have henclosing := hrecorded.enclosingTags_eq v hv
    exact ⟨henclosing.symm ▸ hrecorded.ancestors_eq v hv, henclosing⟩
  · have hids := map_id_visits p.maxDepth hwf hsize hok
    have hlast : last = next := congrArg runAfter hok
    obtain ⟨told, hlog, hwarn⟩ := hrecorded.told
    refine ⟨hrecorded.balanced next hok, hids, told, hlast ▸ hlog, ?_⟩
    have hall : visits.filter p.reachesRule = visits := List.filter_eq_self.2 fun v hv =>
      reachesRule_of_resolveTo hwf hsize hok hv
    rw [← hids, List.filterMap_map, ← hlast]
    rw [show p.visits p.maxDepth 0 start = visits from rfl, hall] at hwarn
    exact hwarn

/-- A tab in its container, and another one in a paragraph. -/
theorem ancestry_of_resolve_tab :
    let p : Processor := { renderer := .ofFunction fun call => .ok call.source }
    let markup := "<tabs><tab header=\"a\">x</tab></tabs><p><tab>y</tab></p>"
    let start : Run := { tree := (readFragment markup).tree
                         context := { file := "page.md", ancestors := ["main"] } }
    ∃ next, p.resolve 0 start = .ok () next
      ∧ (∀ v ∈ p.visits p.maxDepth 0 start,
          v.run.context.ancestors = v.run.tree.enclosingTags v.id ++ ["main"]
            ∧ v.run.tree.enclosingTags v.id = next.tree.enclosingTags v.id)
      ∧ next.context.ancestors = ["main"]
      ∧ ∃ told, next.log = start.log ++ told ∧ told.filter isMisplacedEntry
          = (next.tree.descendants 0).filterMap (p.misplaced? "page.md" ["main"] next.tree) := by
  intro p markup start
  have hread : (readFragment markup).nodes = .ok [2, 5] := by decide +kernel
  obtain ⟨_, next, hok⟩ := exists_of_returns (show returns (p.resolve 0 start) = true by
    decide +kernel)
  have hstart : start.tree = (readFragment markup).tree := rfl
  obtain ⟨hvisits, -, hend⟩ := ancestry_of_resolve (p := p) hread hstart
  obtain ⟨hancestors, -, htold⟩ := hend next hok
  rw [hok] at hvisits
  exact ⟨next, hok, hvisits, hancestors, htold⟩

end PageSlots.Page
