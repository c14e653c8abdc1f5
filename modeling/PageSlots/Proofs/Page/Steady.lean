import PageSlots.Proofs.Page.Context
import PageSlots.Proofs.Page.Visits

/-!
# Headings come by reading, and their ids stay

Every step of the first pass keeps the headings that are there and their
ids, and forgets no id (`Steady`). A heading comes into the page by being
read, and what may read markup during a visit is listed: the region, and
then each promotion (`Processor.readings`). Everything else that is new –
anchors, templates, wrappers – is no heading.

The one exception is the heading that is visited. It may gain an id, and
`GivenId` says which. The steps of a visit are taken one by one, and put
together in `steady_enter`.
-/

namespace PageSlots.Markup

open PageSlots.Component PageSlots.Slot

namespace Own

/-- **Two nodes are headings alike**: both are headings or none is, and
they have the same id, if any. -/
structure SameHeading (o o' : Own) : Prop where
  /-- Both are headings or none is. -/
  isHeading_eq : o'.isHeading = o.isHeading
  /-- The id is the same. -/
  id_eq : o'.attr? "id" = o.attr? "id"

namespace SameHeading

variable {o o' o'' : Own} {name : String}

theorem refl (o : Own) : o.SameHeading o := ⟨rfl, rfl⟩

theorem trans (h : o.SameHeading o') (h' : o'.SameHeading o'') : o.SameHeading o'' :=
  ⟨h'.isHeading_eq.trans h.isHeading_eq, h'.id_eq.trans h.id_eq⟩

theorem setAttr (hn : name ≠ "id") (value : String) (o : Own) :
    o.SameHeading (o.setAttr name value) :=
  ⟨rfl, attr?_setAttr_of_ne hn value⟩

theorem removeAttr (hn : name ≠ "id") (o : Own) : o.SameHeading (o.removeAttr name) :=
  ⟨rfl, attr?_removeAttr_of_ne hn⟩

theorem renameAttr {src dst : String} (hs : src ≠ "id") (hd : dst ≠ "id") (o : Own) :
    o.SameHeading (o.renameAttr src dst) where
  isHeading_eq := by
    unfold isHeading headingLevel isElement
    rw [kind_renameAttr, tag_renameAttr]
  id_eq := attr?_renameAttr_of_ne hs hd

/-- No marker is an id. -/
theorem marker_ne (slot : String) : marker slot ≠ "id" := fun h => by
  have hhead := congrArg (List.head? ∘ String.toList) h
  rw [marker, Function.comp_apply, String.toList_append] at hhead
  cases hhead

theorem ne_of_marker? {name : String} (h : o.marker? = some name) : name ≠ "id" := by
  rintro rfl
  exact absurd (isMarker_of_marker? h) (by decide)

theorem setSlotName (slot : String) (o : Own) : o.SameHeading (o.setSlotName slot) := by
  unfold Own.setSlotName
  split
  · rename_i name hm
    exact renameAttr (ne_of_marker? hm) (marker_ne slot) o
  · split
    · exact setAttr (by decide) slot o
    · exact refl o

theorem renameSlot (renames : List Rename) (o : Own) : o.SameHeading (o.renameSlot renames) := by
  unfold Own.renameSlot
  split
  · exact refl o
  · exact setSlotName _ o

theorem migrate (o : Own) : o.SameHeading o.migrate := by
  unfold Own.migrate
  split
  · split
    · exact refl o
    · split
      · exact removeAttr (by decide) o
      · exact (renameAttr (by decide) (marker_ne _) o).trans (setAttr (marker_ne _) "" _)
  · exact refl o

theorem applyFixups {fixups : List Fixup} (h : ∀ fixup ∈ fixups, fixup.flag ≠ "id")
    (filled : String → Bool) (o : Own) : o.SameHeading (o.applyFixups filled fixups) :=
  applyFixups_induct (P := fun o' => o.SameHeading o') filled (refl o) fun o' fixup hf ho =>
    ho.trans (setAttr (h fixup hf) "" o')

end SameHeading

end Own

end PageSlots.Markup

namespace PageSlots.Page

open PageSlots.Component PageSlots.Markup PageSlots.Markup.Tree PageSlots.Slot

/-! ## What is read during a visit -/

/-- **A reading**: a step that may read markup, by the trees before and
after it. -/
structure Reading where
  /-- The tree before. -/
  before : Tree
  /-- The tree after. -/
  after : Tree

/-- A reading brings the nodes that are new after it. -/
def Reading.Brings (r : Reading) (x : NodeId) : Prop :=
  r.before.size ≤ x ∧ x < r.after.size

/-- The readings of promotions that are applied one after the other. -/
def promotionReadings (renderer : Renderer) (id : NodeId) :
    Nat → List Promotion → Run → List Reading
  | _, [], _ => []
  | index, promotion :: promotions, run =>
    match promote renderer id index promotion run with
    | .ok added next =>
      ⟨run.tree, next.tree⟩ ::
        promotionReadings renderer id (if added then index + 1 else index) promotions next
    | .error _ _ => []

/-- What is done to the children of a component before promotions. -/
def arrangeSlots (id : NodeId) (rule : Rule) : PageM Unit := do
  checkPlace id rule
  editTree (·.renameSlots id rule.renames)
  editTree (·.dedupeSlots id)

/-- The readings of a rule. -/
def ruleReadings (renderer : Renderer) (id : NodeId) (rule : Rule) (run : Run) : List Reading :=
  match arrangeSlots id rule run with
  | .ok _ next => promotionReadings renderer id 0 rule.promotions next
  | .error _ _ => []

/-- Give an element its id and anchor, if it is a heading. -/
def anchorIfHeading (p : Processor) (id : NodeId) : PageM Unit := do
  if (← getTree).isHeading id then
    anchorHeading p.anchorClass id

/-- **The readings of a visit**: the region is rendered first, and then the
attributes that are promoted. -/
def Processor.readings (p : Processor) (id : NodeId) (run : Run) : List Reading :=
  if run.tree.isElement id then
    match p.renderRegion id run with
    | .error _ _ => []
    | .ok _ next =>
      ⟨run.tree, next.tree⟩ ::
        match anchorIfHeading p id next with
        | .error _ _ => []
        | .ok _ last =>
          match p.rules.find (last.tree.tag id) with
          | none => []
          | some rule => ruleReadings p.renderer id rule last
  else []

/-! ## Steady runs -/

/-- **Headings come by reading, and their ids stay**, except at some nodes:
what a stretch of a run keeps, given the readings in it. -/
structure Steady (readings : List Reading) (ids : List NodeId) (run next : Run) : Prop where
  /-- No node goes. -/
  size_le : run.tree.size ≤ next.tree.size
  /-- A node stays a heading, or none. -/
  isHeading_eq : ∀ x < run.tree.size, next.tree.isHeading x = run.tree.isHeading x
  /-- A node keeps its id. -/
  id_eq : ∀ x < run.tree.size, x ∉ ids → next.tree.attr? x "id" = run.tree.attr? x "id"
  /-- No used id is forgotten. -/
  usedIds_subset : run.context.usedIds ⊆ next.context.usedIds
  /-- A new heading has been read. -/
  exists_reading : ∀ x, run.tree.size ≤ x → x < next.tree.size → next.tree.isHeading x = true →
    ∃ r ∈ readings, r.Brings x
  /-- What has been read is new, and has kept its id. -/
  of_reading : ∀ r ∈ readings, ∀ x, r.Brings x → run.tree.size ≤ x ∧ x < next.tree.size
    ∧ (x ∉ ids → next.tree.attr? x "id" = r.after.attr? x "id")

namespace Steady

variable {readings readings' : List Reading} {ids ids' : List NodeId} {run next last : Run}

/-- **Steady stretches one after the other.** -/
theorem trans (h : Steady readings ids run next) (h' : Steady readings' ids' next last) :
    Steady (readings ++ readings') (ids ++ ids') run last where
  size_le := Nat.le_trans h.size_le h'.size_le
  isHeading_eq x hx := by
    rw [h'.isHeading_eq x (Nat.lt_of_lt_of_le hx h.size_le), h.isHeading_eq x hx]
  id_eq x hx hout := by
    rw [h'.id_eq x (Nat.lt_of_lt_of_le hx h.size_le) fun hm => hout (List.mem_append_right _ hm),
      h.id_eq x hx fun hm => hout (List.mem_append_left _ hm)]
  usedIds_subset := List.Subset.trans h.usedIds_subset h'.usedIds_subset
  exists_reading x hx hlast hhead := by
    by_cases hnext : x < next.tree.size
    · rw [h'.isHeading_eq x hnext] at hhead
      obtain ⟨r, hr, hb⟩ := h.exists_reading x hx hnext hhead
      exact ⟨r, List.mem_append_left _ hr, hb⟩
    · obtain ⟨r, hr, hb⟩ := h'.exists_reading x (Nat.le_of_not_lt hnext) hlast hhead
      exact ⟨r, List.mem_append_right _ hr, hb⟩
  of_reading r hr x hb := by
    rcases List.mem_append.1 hr with hr | hr
    · obtain ⟨hle, hlt, hid⟩ := h.of_reading r hr x hb
      refine ⟨hle, Nat.lt_of_lt_of_le hlt h'.size_le, fun hout => ?_⟩
      rw [h'.id_eq x hlt fun hm => hout (List.mem_append_right _ hm),
        hid fun hm => hout (List.mem_append_left _ hm)]
    · obtain ⟨hle, hlt, hid⟩ := h'.of_reading r hr x hb
      exact ⟨Nat.le_trans h.size_le hle, hlt,
        fun hout => hid fun hm => hout (List.mem_append_right _ hm)⟩

/-- More exceptions may be named. -/
theorem mono (h : Steady readings ids run next) (hsub : ids ⊆ ids') :
    Steady readings ids' run next where
  size_le := h.size_le
  isHeading_eq := h.isHeading_eq
  id_eq x hx hout := h.id_eq x hx fun hm => hout (hsub hm)
  usedIds_subset := h.usedIds_subset
  exists_reading := h.exists_reading
  of_reading r hr x hb := by
    obtain ⟨hle, hlt, hid⟩ := h.of_reading r hr x hb
    exact ⟨hle, hlt, fun hout => hid fun hm => hout (hsub hm)⟩

/-- **A step that reads nothing**: old nodes are headings as before, and no
new node is one. -/
theorem of_own (hsize : run.tree.size ≤ next.tree.size)
    (hold : ∀ x < run.tree.size, (run.tree.own x).SameHeading (next.tree.own x))
    (hnew : ∀ x, run.tree.size ≤ x → x < next.tree.size → next.tree.isHeading x = false)
    (hused : run.context.usedIds ⊆ next.context.usedIds) : Steady [] [] run next where
  size_le := hsize
  isHeading_eq x hx := (hold x hx).isHeading_eq
  id_eq x hx _ := (hold x hx).id_eq
  usedIds_subset := hused
  exists_reading x hx hx' hhead := by
    rw [hnew x hx hx'] at hhead
    cases hhead
  of_reading _ hr := nomatch hr

/-- **A step that is a reading.** -/
theorem of_reading_step (hsize : run.tree.size ≤ next.tree.size)
    (hold : ∀ x < run.tree.size, (run.tree.own x).SameHeading (next.tree.own x))
    (hused : run.context.usedIds ⊆ next.context.usedIds) :
    Steady [⟨run.tree, next.tree⟩] [] run next where
  size_le := hsize
  isHeading_eq x hx := (hold x hx).isHeading_eq
  id_eq x hx _ := (hold x hx).id_eq
  usedIds_subset := hused
  exists_reading _ hx hx' _ := ⟨_, List.mem_cons_self, hx, hx'⟩
  of_reading r hr x hb := by
    rw [List.mem_singleton.1 hr] at hb ⊢
    exact ⟨hb.1, hb.2, fun _ => rfl⟩

/-- A step that leaves the tree. -/
theorem of_tree_eq (htree : next.tree = run.tree)
    (hused : run.context.usedIds ⊆ next.context.usedIds) : Steady [] [] run next := by
  refine .of_own (Nat.le_of_eq (htree ▸ rfl)) (fun _ _ => htree ▸ .refl _) (fun x hx hx' => ?_)
    hused
  rw [htree] at hx'
  exact absurd hx (Nat.not_le_of_lt hx')

theorem refl (run : Run) : Steady [] [] run run :=
  .of_tree_eq rfl (List.Subset.refl _)

/-- An edit of own data that keeps headings and ids. -/
theorem of_recast {id : NodeId} {f : Own → Own} (h : Recast id f run.tree next.tree)
    (hf : (run.tree.own id).SameHeading (f (run.tree.own id)))
    (hused : run.context.usedIds ⊆ next.context.usedIds) : Steady [] [] run next := by
  refine .of_own (Nat.le_of_eq h.size_eq.symm) (fun x _ => ?_) (fun x hx hx' => ?_) hused
  · by_cases hx : x = id
    · rw [hx, h.own_self]
      exact hf
    · rw [h.own_ne hx]
      exact .refl _
  · rw [h.size_eq] at hx'
    exact absurd hx (Nat.not_le_of_lt hx')

/-- A step that adds a node, and this is no heading. -/
theorem of_adds {o : Own} (hsize : next.tree.size = run.tree.size + 1)
    (hown : ∀ x, next.tree.own x = if x = run.tree.size then o else run.tree.own x)
    (ho : o.isHeading = false) (hused : run.context.usedIds ⊆ next.context.usedIds) :
    Steady [] [] run next := by
  refine .of_own (hsize ▸ Nat.le_succ _) (fun x hx => ?_) (fun x hx hx' => ?_) hused
  · rw [hown, if_neg (Nat.ne_of_lt hx)]
    exact .refl _
  · rw [hsize] at hx'
    show (next.tree.own x).isHeading = false
    rw [hown, if_pos (Nat.le_antisymm (Nat.le_of_lt_succ hx') hx), ho]

/-- A node that is given an id is the only one that changes. -/
theorem of_setAttr_id {id : NodeId} {value : String} (hid : id < run.tree.size)
    (htree : next.tree = run.tree.setAttr id "id" value)
    (hused : run.context.usedIds ⊆ next.context.usedIds) : Steady [] [id] run next := by
  have hr := recast_setAttr hid "id" value
  rw [← htree] at hr
  refine { size_le := Nat.le_of_eq hr.size_eq.symm
           isHeading_eq := fun x _ => ?_
           id_eq := fun x _ hx => ?_
           usedIds_subset := hused
           exists_reading := fun x hx hx' _ => ?_
           of_reading := nofun }
  · show (next.tree.own x).isHeading = (run.tree.own x).isHeading
    rw [hr.own_eq]
    split <;> rfl
  · rw [attr?_eq_own, attr?_eq_own, hr.own_ne fun h => hx (List.mem_singleton.2 h)]
  · rw [hr.size_eq] at hx'
    exact absurd hx (Nat.not_le_of_lt hx')

end Steady

/-! ## The steps of a visit -/

section Steps

variable {p : Processor} {run next : Run} {id : NodeId} {rule : Rule} {promotion : Promotion}
variable {renderer : Renderer} {mode : RenderMode} {source markup : String}

/-- Rendering changes neither the tree nor the context. -/
theorem eq_of_render (h : render renderer mode source run = .ok markup next) :
    next.tree = run.tree ∧ next.context = run.context := by
  unfold render at h
  dsimp only at h
  split at h
  · cases h
    exact ⟨rfl, rfl⟩
  · cases h

/-- **What has been read into a node** is received by it. -/
theorem receives_of_readInto (h : run.tree.WellFormed) (hid : id < run.tree.size)
    (hok : readInto id markup run = .ok () next) :
    (∃ ids cs, Receives id ids cs run.tree next.tree) ∧ next.context = run.context := by
  unfold readInto at hok
  dsimp only at hok
  cases hp : (Content.parse markup).1 with
  | ok cs =>
    obtain ⟨ids, hn, hr⟩ := h.readInto_of_ok hid hp
    rw [hn] at hok
    cases hok
    exact ⟨⟨ids, cs, hr⟩, rfl⟩
  | error fault =>
    rw [(h.readInto_of_error id hp).1] at hok
    cases hok

/-- Neither a region nor what it becomes is a heading. -/
theorem isHeading_of_regionOf {o : Own} {tag : String} (h : regionOf o.tag = some (mode, tag)) :
    o.isHeading = false ∧ ({ o with tag } : Own).isHeading = false := by
  have hlevel : ∀ o : Own, o.tag ∈ ["md", "markdown", "span", "div"] → o.isHeading = false := by
    intro o ho
    unfold Own.isHeading Own.headingLevel
    split
    · split <;> simp_all
    · rfl
  unfold regionOf at h
  split at h
  · rename_i hmd
    cases h
    exact ⟨hlevel o (by simp [hmd]), hlevel _ (by simp)⟩
  · rename_i hmd
    cases h
    exact ⟨hlevel o (by simp [hmd]), hlevel _ (by simp)⟩
  · cases h

/-- Rendering a region. -/
theorem steady_renderRegion (h : run.tree.WellFormed) (hid : id < run.tree.size)
    (hok : p.renderRegion id run = .ok () next) :
    next.tree.WellFormed ∧ Steady [⟨run.tree, next.tree⟩] [] run next := by
  unfold Processor.renderRegion at hok
  rw [bind_of_ok (getTree_eq run)] at hok
  cases hr : regionOf (run.tree.tag id) with
  | none =>
    rw [hr] at hok
    cases hok
    exact ⟨h, .of_reading_step (Nat.le_refl _) (fun _ _ => .refl _) (List.Subset.refl _)⟩
  | some region =>
    obtain ⟨mode, tag⟩ := region
    rw [hr] at hok
    obtain ⟨markup, mid, hrender, hok⟩ := exists_of_bind_ok hok
    obtain ⟨htree, hctx⟩ := eq_of_render hrender
    rw [bind_of_ok (modifyTree_eq _ mid), htree] at hok
    have hrecast := recast_setTag hid tag
    have hwf := h.recast hrecast (h.nodup_names id)
    have hsize : ((run.tree.setTag id tag).clearChildren id).size = run.tree.size :=
      (size_clearChildren hwf id).trans hrecast.size_eq
    obtain ⟨⟨ids, cs, hrec⟩, hctx'⟩ := receives_of_readInto (hwf.clearChildren id)
      (hsize.symm ▸ hid) hok
    have hown : ∀ x < run.tree.size, next.tree.own x = (run.tree.setTag id tag).own x := fun x hx =>
      (hrec.own_eq_of_lt (hsize.symm ▸ hx)).trans (own_clearChildren hwf id x)
    obtain ⟨hold, hnew⟩ := isHeading_of_regionOf (o := run.tree.own id) hr
    refine ⟨hrec.wellFormed, .of_reading_step (hsize ▸ hrec.size_le) (fun x hx => ?_) ?_⟩
    · rw [hown x hx]
      by_cases hxid : x = id
      · rw [hxid, hrecast.own_self]
        exact ⟨hnew.trans hold.symm, rfl⟩
      · rw [hrecast.own_ne hxid]
        exact .refl _
    · rw [hctx', ← hctx]
      exact List.Subset.refl _

/-- **The id that a visit gives to a heading**: the one it has, or a new
one made from its text, or none if the text has no slug. -/
inductive GivenId (run : Run) (id : NodeId) : Option String → Prop where
  /-- The heading has an id. -/
  | written {value : String} : run.tree.attr? id "id" = some value → GivenId run id (some value)
  /-- The text has no slug. -/
  | without : run.tree.attr? id "id" = none →
      slug (decodeReferences (run.tree.textContent id)) = "" → GivenId run id none
  /-- A candidate of the slug that is not used. -/
  | made (k : Nat) : run.tree.attr? id "id" = none →
      slug (decodeReferences (run.tree.textContent id)) ≠ "" →
      candidate (slug (decodeReferences (run.tree.textContent id))) k ∉ run.context.usedIds →
      GivenId run id (some (candidate (slug (decodeReferences (run.tree.textContent id))) k))

/-- A heading that is visited has an id that is given, the id is used
afterwards, and an anchor that was missing has been added. -/
structure Gives (anchorClass : String) (run next : Run) (id : NodeId) : Prop where
  /-- The id is given. -/
  given : GivenId run id (next.tree.attr? id "id")
  /-- It is used. -/
  mem_usedIds : ∀ value, next.tree.attr? id "id" = some value → value ∈ next.context.usedIds
  /-- If it had an id and no anchor, there is a new node. -/
  lt_size : run.tree.attr? id "id" ≠ none → hasAnchor run.tree id anchorClass = false →
    run.tree.size < next.tree.size

/-- What follows steadily leaves what has been given. -/
theorem Gives.steady {anchorClass : String} {readings : List Reading} {last : Run}
    (h : Gives anchorClass run next id) (hid : id < next.tree.size)
    (hs : Steady readings [] next last) : Gives anchorClass run last id where
  given := by
    rw [hs.id_eq id hid List.not_mem_nil]
    exact h.given
  mem_usedIds value hv := by
    rw [hs.id_eq id hid List.not_mem_nil] at hv
    exact hs.usedIds_subset (h.mem_usedIds value hv)
  lt_size hne ha := Nat.lt_of_lt_of_le (h.lt_size hne ha) hs.size_le

/-- **What taking the id of a heading does**: the id is given and used, and
no node is added. -/
structure TakesId (run next : Run) (id : NodeId) (made : Option String) : Prop where
  /-- The id is given. -/
  given : GivenId run id (next.tree.attr? id "id")
  /-- It is used. -/
  mem_usedIds : ∀ value, next.tree.attr? id "id" = some value → value ∈ next.context.usedIds
  /-- Other nodes keep their ids. -/
  steady : Steady [] [id] run next
  /-- There are as many nodes. -/
  size_eq : next.tree.size = run.tree.size
  /-- An id that is there is taken, and the tree stays. -/
  of_written : run.tree.attr? id "id" ≠ none → made ≠ none ∧ next.tree = run.tree

/-- Taking the id of a heading. -/
theorem takesId_headingId {made : Option String} (hid : id < run.tree.size)
    (hok : headingId id run = .ok made next) : TakesId run next id made := by
  unfold headingId at hok
  rw [bind_of_ok (get_eq run)] at hok
  cases hattr : run.tree.attr? id "id" with
  | some written =>
    rw [hattr] at hok
    obtain ⟨hmem, hsub⟩ := run.context.usedIds_registerHeadingId written
    obtain ⟨hmade, htree, hctx⟩ : made = some written ∧ next.tree = run.tree
        ∧ next.context = (run.context.registerHeadingId written).2 := by
      dsimp only at hok
      by_cases hnew : (run.context.registerHeadingId written).1 = true
      · rw [if_pos hnew] at hok
        cases hok
        exact ⟨rfl, rfl, rfl⟩
      · rw [if_neg hnew] at hok
        cases hok
        exact ⟨rfl, rfl, rfl⟩
    refine ⟨?_, fun value hv => ?_, ?_, congrArg Tree.size htree, fun _ => ⟨hmade ▸ nofun, htree⟩⟩
    · rw [htree, hattr]
      exact .written hattr
    · rw [htree, hattr] at hv
      rw [hctx, ← Option.some.inj hv]
      exact hmem
    · exact (Steady.of_tree_eq htree (hctx ▸ hsub)).mono (List.nil_subset [id])
  | none =>
    rw [hattr] at hok
    dsimp only at hok
    by_cases hslug : slug (decodeReferences (run.tree.textContent id)) = ""
    · rw [Context.uniqueHeadingId_of_slug_eq hslug] at hok
      cases hok
      refine ⟨?_, fun value hv => ?_, (Steady.refl run).mono (List.nil_subset [id]), rfl,
        fun hne => absurd hattr hne⟩
      · show GivenId run id (run.tree.attr? id "id")
        rw [hattr]
        exact .without hattr hslug
      · exact absurd (hattr.symm.trans hv) nofun
    · obtain ⟨k, context, hmade, hfree, hused⟩ := run.context.exists_uniqueHeadingId hslug
      rw [hmade] at hok
      cases hok
      have hr := recast_setAttr hid "id"
        (candidate (slug (decodeReferences (run.tree.textContent id))) k)
      have hself := Own.attr?_setAttr_self "id"
        (candidate (slug (decodeReferences (run.tree.textContent id))) k) (run.tree.own id)
      rw [← hr.own_self, ← attr?_eq_own] at hself
      refine ⟨?_, fun value hv => ?_, ?_, hr.size_eq, fun hne => absurd hattr hne⟩
      · show GivenId run id (Tree.attr? _ id "id")
        rw [hself]
        exact .made k hattr hslug hfree
      · rw [← Option.some.inj (hself.symm.trans hv)]
        exact hused ▸ List.mem_cons_self
      · exact .of_setAttr_id hid rfl (hused ▸ List.subset_cons_self _ _)

/-- **Giving a heading its id and its anchor.** -/
theorem gives_anchorHeading {anchorClass : String} (hid : id < run.tree.size)
    (hok : anchorHeading anchorClass id run = .ok () next) :
    Gives anchorClass run next id ∧ Steady [] [id] run next := by
  unfold anchorHeading at hok
  obtain ⟨made, mid, hmade, hok⟩ := exists_of_bind_ok hok
  have htakes := takesId_headingId hid hmade
  -- an anchor is added for the id, unless the heading has one
  obtain ⟨hanchor, hlt⟩ : Steady [] [] mid next
      ∧ (made ≠ none → hasAnchor mid.tree id anchorClass = false →
        mid.tree.size < next.tree.size) := by
    cases made with
    | none =>
      cases hok
      exact ⟨.refl _, fun hne => absurd rfl hne⟩
    | some made =>
      dsimp only at hok
      rw [modifyTree_eq] at hok
      cases hok
      by_cases ha : hasAnchor mid.tree id anchorClass = true
      · exact ⟨.of_tree_eq (if_pos ha) (List.Subset.refl _),
          fun _ hne => absurd (ha.symm.trans hne) nofun⟩
      · obtain ⟨t, he, hadds⟩ := exists_adds_insertAnchor mid.tree id anchorClass made
        have hsize : (t.insertChild id mid.tree.size 0).size = mid.tree.size + 1 := by
          rw [size_insertChild, hadds.size_eq]
        dsimp only
        rw [if_neg ha, he]
        refine ⟨.of_adds (o := Value.anchor anchorClass made) hsize (fun x => ?_) rfl
          (List.Subset.refl _), fun _ _ => hsize ▸ Nat.lt_succ_self _⟩
        rw [hadds.own_insertChild]
  have hgives : Gives anchorClass run next id := {
    given := by
      rw [hanchor.id_eq id (htakes.size_eq ▸ hid) List.not_mem_nil]
      exact htakes.given
    mem_usedIds := fun value hv => by
      rw [hanchor.id_eq id (htakes.size_eq ▸ hid) List.not_mem_nil] at hv
      exact hanchor.usedIds_subset (htakes.mem_usedIds value hv)
    lt_size := fun hne ha => by
      obtain ⟨hmade, htree⟩ := htakes.of_written hne
      rw [← htree] at ha ⊢
      exact hlt hmade ha }
  exact ⟨hgives, htakes.steady.trans hanchor⟩

theorem steady_anchorIfHeading (h : run.tree.WellFormed) (hid : id < run.tree.size)
    (hok : anchorIfHeading p id run = .ok () next) :
    next.tree.WellFormed ∧ (run.tree.isHeading id = true → Gives p.anchorClass run next id)
      ∧ Steady [] [id] run next := by
  unfold anchorIfHeading at hok
  rw [bind_of_ok (getTree_eq run)] at hok
  by_cases hh : run.tree.isHeading id = true
  · rw [if_pos hh] at hok
    obtain ⟨c, hc⟩ := h.exists_shows id
    have hagree := agree_anchorHeading h hid hc p.anchorClass
    rw [hok] at hagree
    obtain ⟨hgives, hsteady⟩ := gives_anchorHeading hid hok
    exact ⟨hagree.confined_of_ok.1, fun _ => hgives, hsteady⟩
  · rw [if_neg hh] at hok
    cases hok
    exact ⟨h, fun h => absurd h hh, (Steady.refl _).mono (List.nil_subset [id])⟩

/-- Looking at the place of a component and arranging its children. -/
theorem steady_arrangeSlots (h : run.tree.WellFormed)
    (hok : arrangeSlots id rule run = .ok () next) :
    next.tree.WellFormed ∧ Steady [] [] run next := by
  unfold arrangeSlots at hok
  obtain ⟨_, mid, hplace, hok⟩ := exists_of_bind_ok hok
  obtain ⟨htree, hctx⟩ : mid.tree = run.tree ∧ mid.context = run.context := by
    unfold checkPlace at hplace
    rw [bind_of_ok (get_eq run)] at hplace
    by_cases hp : rule.isPlaced run.context = true
    · rw [if_pos hp] at hplace
      cases hplace
      exact ⟨rfl, rfl⟩
    · rw [if_neg hp] at hplace
      cases hplace
      exact ⟨rfl, rfl⟩
  rw [bind_of_ok (editTree_eq _ mid), editTree_eq, htree, hctx] at hok
  cases hok
  obtain ⟨hr, -⟩ := recastAll_renameSlots h id rule.renames
  have hwf := h.recastAll hr fun o => Own.nodup_names_renameSlot rule.renames
  obtain ⟨hd, -⟩ := drops_dedupeSlots hwf id
  refine ⟨hd.wellFormed, .of_own ?_ (fun x _ => ?_) (fun x hx hx' => ?_) (List.Subset.refl _)⟩
  · exact Nat.le_of_eq (hd.size_eq.trans hr.size_eq).symm
  · rw [hd.own_eq, hr.own_eq]
    split
    · exact .renameSlot rule.renames _
    · exact .refl _
  · rw [hd.size_eq.trans hr.size_eq] at hx'
    exact absurd hx (Nat.not_le_of_lt hx')

/-- **A rule leaves ids alone**: it promotes no id and sets none. -/
structure LeavesIds (rule : Rule) : Prop where
  /-- No id is promoted. -/
  attr_ne : ∀ promotion ∈ rule.promotions, promotion.attr ≠ "id"
  /-- No flag is an id. -/
  flag_ne : ∀ fixup ∈ rule.fixups, fixup.flag ≠ "id"

/-- The rules of the known components leave ids alone. -/
theorem leavesIds_of_mem_builtIn (h : rule ∈ builtIn) : LeavesIds rule where
  attr_ne := by revert rule; decide
  flag_ne := by revert rule; decide

/-- **Applying a promotion.** -/
theorem steady_promote {index : Nat} {added : Bool} (h : run.tree.WellFormed)
    (hid : id < run.tree.size) (hne : promotion.attr ≠ "id")
    (hok : promote renderer id index promotion run = .ok added next) :
    next.tree.WellFormed ∧ Steady [⟨run.tree, next.tree⟩] [] run next := by
  unfold promote at hok
  rw [bind_of_ok (takeAttr_eq id promotion.attr run), bind_of_ok (getTree_eq _)] at hok
  have hr := recast_removeAttr hid promotion.attr
  have hwf₁ := h.recast hr (Own.nodup_names_removeAttr promotion.attr (h.nodup_names id))
  have hold₁ : ∀ x, (run.tree.own x).SameHeading
      ((run.tree.removeAttr id promotion.attr).2.own x) := fun x => by
    rw [hr.own_eq]
    split
    · exact .removeAttr hne _
    · exact .refl _
  have hsize₁ := hr.size_eq
  dsimp only at hok
  generalize (run.tree.removeAttr id promotion.attr).1 = value at hok
  generalize (run.tree.removeAttr id promotion.attr).2 = t₁ at *
  have hstay : ∀ {log : Log}, next = { run with tree := t₁, log } →
      next.tree.WellFormed ∧ Steady [⟨run.tree, next.tree⟩] [] run next := by
    rintro log rfl
    exact ⟨hwf₁, .of_reading_step (Nat.le_of_eq hsize₁.symm) (fun x _ => hold₁ x)
      (List.Subset.refl _)⟩
  by_cases hf : (t₁.findSlot id promotion.slot).isSome = true
  · rw [if_pos hf] at hok
    by_cases hv : value.isSome = true
    · rw [if_pos hv] at hok
      cases hok
      exact hstay rfl
    · rw [if_neg hv] at hok
      cases hok
      exact hstay rfl
  · rw [if_neg hf] at hok
    cases hvalue : value.or promotion.fallback with
    | none =>
      rw [hvalue] at hok
      cases hok
      exact hstay rfl
    | some source =>
      rw [hvalue] at hok
      obtain ⟨markup, mid, hrender, hok⟩ := exists_of_bind_ok hok
      obtain ⟨htree, hctx⟩ := eq_of_render hrender
      obtain ⟨t₂, context, calls, log⟩ := mid
      obtain rfl : t₂ = t₁ := htree
      obtain rfl : context = run.context := hctx
      rw [bind_of_ok (createTemplate_eq _ _)] at hok
      obtain ⟨_, last, hread, hok⟩ := exists_of_bind_ok hok
      rw [bind_of_ok (modifyTree_eq _ last), bind_of_ok (tell_eq _ _)] at hok
      cases hok
      have ha := adds_template t₂ promotion.slot
      have hn := Own.nodup_names_wrapper (marker promotion.slot)
      obtain ⟨⟨ids, cs, hrec⟩, hctx⟩ := receives_of_readInto (ha.wellFormed hwf₁ hn) ha.lt_size
        hread
      obtain ⟨c, hc⟩ := hwf₁.exists_shows id
      obtain ⟨hwf, -, -, -⟩ := ha.insertChild hwf₁ hn hrec (hsize₁.symm ▸ hid) hc index
      have hlt := Nat.lt_of_lt_of_le ha.lt_size hrec.size_le
      refine ⟨hwf, .of_reading_step ?_ (fun x hx => ?_) ?_⟩
      · show run.tree.size ≤ (last.tree.insertChild id t₂.size index).size
        rw [size_insertChild, ← hsize₁]
        exact Nat.le_of_lt hlt
      · show (run.tree.own x).SameHeading ((last.tree.insertChild id t₂.size index).own x)
        rw [own_insertChild, hrec.own_eq_of_lt (Nat.lt_trans (hsize₁ ▸ hx) ha.lt_size), ha.own_eq,
          if_neg (Nat.ne_of_lt (hsize₁ ▸ hx))]
        exact hold₁ x
      · show run.context.usedIds ⊆ last.context.usedIds
        rw [hctx]
        exact List.Subset.refl _

/-- **Applying promotions**, each of which is a reading. -/
theorem steady_promoteAll {promotions : List Promotion}
    (hne : ∀ promotion ∈ promotions, promotion.attr ≠ "id") :
    ∀ {run : Run} {index : Nat}, run.tree.WellFormed → id < run.tree.size →
      promoteAll renderer id index promotions run = .ok () next →
      next.tree.WellFormed
        ∧ Steady (promotionReadings renderer id index promotions run) [] run next := by
  induction promotions with
  | nil =>
    intro run index h _ hok
    cases hok
    exact ⟨h, .refl _⟩
  | cons promotion promotions ih =>
    intro run index h hid hok
    rw [promoteAll] at hok
    obtain ⟨added, mid, hpromote, hok⟩ := exists_of_bind_ok hok
    obtain ⟨hwf, hs⟩ := steady_promote h hid (hne promotion List.mem_cons_self) hpromote
    obtain ⟨hwf', hs'⟩ := ih (fun q hq => hne q (List.mem_cons_of_mem promotion hq)) hwf
      (Nat.lt_of_lt_of_le hid hs.size_le) hok
    rw [promotionReadings, hpromote]
    exact ⟨hwf', hs.trans hs'⟩

/-- The children of a component are arranged before its promotions. -/
theorem applyRule_eq (renderer : Renderer) (id : NodeId) (rule : Rule) :
    applyRule renderer id rule = arrangeSlots id rule >>= fun _ =>
      promoteAll renderer id 0 rule.promotions >>= fun _ =>
        modifyTree (·.applyFixups id rule.fixups) := by
  unfold applyRule arrangeSlots
  simp only [bind_assoc]

/-- **Applying the rule of a component.** -/
theorem steady_applyRule (hrule : LeavesIds rule) (h : run.tree.WellFormed)
    (hid : id < run.tree.size) (hok : applyRule renderer id rule run = .ok () next) :
    next.tree.WellFormed ∧ Steady (ruleReadings renderer id rule run) [] run next := by
  rw [applyRule_eq] at hok
  obtain ⟨_, mid, harrange, hok⟩ := exists_of_bind_ok hok
  obtain ⟨hwf, hs⟩ := steady_arrangeSlots h harrange
  obtain ⟨_, last, hpromote, hok⟩ := exists_of_bind_ok hok
  have hid' := Nat.lt_of_lt_of_le hid hs.size_le
  obtain ⟨hwf', hs'⟩ := steady_promoteAll hrule.attr_ne hwf hid' hpromote
  rw [modifyTree_eq] at hok
  cases hok
  have hid'' := Nat.lt_of_lt_of_le hid' hs'.size_le
  have hr := recast_applyFixups hwf' hid'' rule.fixups
  have hfixups : Steady [] [] last { last with tree := last.tree.applyFixups id rule.fixups } :=
    .of_recast hr (.applyFixups hrule.flag_ne _ _) (List.Subset.refl _)
  have hall := (hs.trans hs').trans hfixups
  rw [List.append_nil] at hall
  rw [ruleReadings, harrange]
  exact ⟨hwf'.recast hr (Own.nodup_names_applyFixups _ _ (hwf'.nodup_names id)), hall⟩

/-- An element is rendered, then anchored, and then its rule is applied. -/
theorem visitElement_eq (p : Processor) (id : NodeId) :
    p.visitElement id = p.renderRegion id >>= fun _ => anchorIfHeading p id >>= fun _ =>
      p.applyRules id := by
  unfold Processor.visitElement anchorIfHeading
  refine congrArg (p.renderRegion id >>= ·) (funext fun _ => funext fun run => ?_)
  rw [bind_assoc, bind_of_ok (getTree_eq run), bind_of_ok (getTree_eq run)]
  by_cases hh : run.tree.isHeading id = true
  · rw [if_pos hh, if_pos hh]
    rfl
  · rw [if_neg hh, if_neg hh]
    rfl

/-- A heading is no region. -/
theorem renderRegion_of_isHeading (hh : run.tree.isHeading id = true) :
    p.renderRegion id run = .ok () run := by
  unfold Processor.renderRegion
  rw [bind_of_ok (getTree_eq run)]
  cases hr : regionOf (run.tree.tag id) with
  | none => rfl
  | some region =>
    have := (isHeading_of_regionOf (o := run.tree.own id) hr).1
    rw [show run.tree.isHeading id = false from this] at hh
    cases hh

/-- **What the first pass does to an element.** -/
theorem steady_visitElement (hrules : ∀ rule ∈ p.rules, LeavesIds rule) (h : run.tree.WellFormed)
    (hid : id < run.tree.size) (he : run.tree.isElement id = true)
    (hok : p.visitElement id run = .ok () next) :
    next.tree.WellFormed ∧ (run.tree.isHeading id = true → Gives p.anchorClass run next id)
      ∧ Steady (p.readings id run) [id] run next := by
  rw [visitElement_eq] at hok
  obtain ⟨_, run₁, hregion, hok⟩ := exists_of_bind_ok hok
  obtain ⟨_, run₂, hanchor, hok⟩ := exists_of_bind_ok hok
  rw [Processor.applyRules, bind_of_ok (getTree_eq run₂)] at hok
  obtain ⟨hwf₁, hs₁⟩ := steady_renderRegion h hid hregion
  have hid₁ := Nat.lt_of_lt_of_le hid hs₁.size_le
  obtain ⟨hwf₂, hgives, hs₂⟩ := steady_anchorIfHeading hwf₁ hid₁ hanchor
  have hid₂ := Nat.lt_of_lt_of_le hid₁ hs₂.size_le
  -- what the rule reads is what is left of the readings
  obtain ⟨readings, hreadings, hwf, hs⟩ : ∃ readings,
      p.readings id run = ⟨run.tree, run₁.tree⟩ :: readings ∧ next.tree.WellFormed
        ∧ Steady readings [] run₂ next := by
    rw [Processor.readings, if_pos he, hregion]
    dsimp only
    rw [hanchor]
    dsimp only
    cases hf : p.rules.find (run₂.tree.tag id) with
    | none =>
      rw [hf] at hok
      cases hok
      exact ⟨[], rfl, hwf₂, .refl _⟩
    | some rule =>
      rw [hf] at hok
      obtain ⟨hwf, hs⟩ := steady_applyRule (hrules rule (List.mem_of_find?_eq_some hf)) hwf₂ hid₂ hok
      exact ⟨_, rfl, hwf, hs⟩
  refine ⟨hwf, fun hh => ?_, ?_⟩
  · rw [renderRegion_of_isHeading hh] at hregion
    cases hregion
    exact (hgives hh).steady hid₂ hs
  · rw [hreadings]
    exact (hs₁.trans hs₂).trans hs

/-- Normalizing a child wraps it in a template, if at all. -/
theorem steady_normalizeChild (hid : id < run.tree.size) :
    Steady [] [] run { run with tree := Processor.normalizeChild run.tree id } := by
  have hr := recast_migrateMarker hid
  have hmigrate : Steady [] [] run { run with tree := (run.tree.migrateMarker id).2 } :=
    .of_recast hr (.migrate _) (List.Subset.refl _)
  have hid' := hr.size_eq.symm ▸ hid
  unfold Processor.normalizeChild
  generalize (run.tree.migrateMarker id).2 = t at *
  refine hmigrate.trans ?_
  unfold wrapMarked
  split
  · split
    · exact .refl _
    · rename_i name hm
      have hr := recast_removeAttr hid' name
      have hremove : Steady [] [] { run with tree := t }
          { run with tree := (t.removeAttr id name).2 } :=
        .of_recast hr (.removeAttr (Own.SameHeading.ne_of_marker? (o := t.own id) hm) _) (List.Subset.refl _)
      refine hremove.trans (.of_adds (size_wrap ..) (fun x => own_wrap _ _ _ _ x) rfl (List.Subset.refl _))
  · exact .refl _

/-- **Normalizing the children** of a node. -/
theorem steady_normalizeChildren (h : run.tree.WellFormed) (id : NodeId) :
    Steady [] [] run { run with tree := Processor.normalizeChildren run.tree id } := by
  suffices hfold : ∀ (ids : List NodeId) (run : Run), (∀ i ∈ ids, i < run.tree.size) →
      Steady [] [] run { run with tree := ids.foldl Processor.normalizeChild run.tree } from
    hfold _ run fun i hi => h.lt_of_mem hi
  intro ids
  induction ids with
  | nil => exact fun run _ => .refl run
  | cons i ids ih =>
    intro run hids
    have hfirst := steady_normalizeChild (hids i List.mem_cons_self)
    exact hfirst.trans (ih _ fun k hk =>
      Nat.lt_of_lt_of_le (hids k (List.mem_cons_of_mem i hk)) hfirst.size_le)

/-- **Entering a node.** -/
theorem steady_enter (hrules : ∀ rule ∈ p.rules, LeavesIds rule) (h : run.tree.WellFormed)
    (hid : id < run.tree.size) (hok : p.enter id run = .ok () next) :
    (run.tree.isHeading id = true → Gives p.anchorClass run next id)
      ∧ Steady (p.readings id run) [id] run next := by
  unfold Processor.enter at hok
  rw [bind_of_ok (getTree_eq run)] at hok
  obtain ⟨mid, hmid, hwf, hgives, hs⟩ : ∃ mid : Run,
      (modifyTree (Processor.normalizeChildren · id) >>= fun _ => getTree >>= fun t =>
        if t.isElement id then modifyContext (·.pushAncestor (t.tag id)) else pure ()) mid
        = .ok () next ∧ mid.tree.WellFormed
        ∧ (run.tree.isHeading id = true → Gives p.anchorClass run mid id)
        ∧ Steady (p.readings id run) [id] run mid := by
    by_cases he : run.tree.isElement id = true
    · dsimp only at hok
      rw [if_pos he] at hok
      obtain ⟨_, mid, hv, hrest⟩ := exists_of_bind_ok hok
      exact ⟨mid, hrest, steady_visitElement hrules h hid he hv⟩
    · dsimp only at hok
      rw [if_neg he] at hok
      refine ⟨run, hok, h, fun hh => ?_, ?_⟩
      · unfold Tree.isHeading Tree.headingLevel at hh
        rw [if_neg he] at hh
        cases hh
      · rw [Processor.readings, if_neg he]
        exact (Steady.refl run).mono (List.nil_subset [id])
  rw [bind_of_ok (modifyTree_eq _ mid), bind_of_ok (getTree_eq _)] at hmid
  obtain ⟨htree, hused⟩ : next.tree = Processor.normalizeChildren mid.tree id
      ∧ next.context.usedIds = mid.context.usedIds := by
    split at hmid <;> cases hmid <;> exact ⟨rfl, rfl⟩
  have hnormal : Steady [] [] mid next :=
    (steady_normalizeChildren hwf id).trans (.of_tree_eq htree (hused ▸ List.Subset.refl _))
  have hall := hs.trans hnormal
  rw [List.append_nil, List.append_nil] at hall
  exact ⟨fun hh => (hgives hh).steady (Nat.lt_of_lt_of_le hid hs.size_le) hnormal, hall⟩

end Steps

end PageSlots.Page
