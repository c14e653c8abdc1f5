import PageSlots.Proofs.Page.Steady
import PageSlots.Proofs.Tree.Enclosing

/-!
# The warning of a misplaced component

A component that stands outside its containers is told of once, when its
rule is looked up, and nothing else tells the same. So the entries of that
kind which a visit leaves in the log can be read off the visited element:
the tag under which its rule was found and the tags around it
(`placed_enter`). Both are what they will be in the end. A visit changes
the tag of an element only by rendering a region, before the rule is
looked up, and afterwards it keeps the tags of all elements that there
are.

What the steps of a visit keep is told by `Keeps`: tags, the elements
around and the name of the file stay, and no warning of this kind is
added. A step may fail; what it leaves is then the run at that moment
(`runAfter`), and steps one after the other keep what each of them keeps
(`Keeps.bind`).
-/

namespace PageSlots.Markup

open PageSlots.Component PageSlots.Slot PageSlots.Text

/-! ## Edits that keep the tag -/

namespace Own

variable {o o' : Own}

/-- The tag of an element. -/
def elementTag? (o : Own) : Option String :=
  if o.isElement then some o.tag else none

theorem elementTag?_congr (hk : o'.kind = o.kind) (ht : o'.tag = o.tag) :
    o'.elementTag? = o.elementTag? := by
  unfold elementTag? isElement
  rw [hk, ht]

theorem elementTag?_renameAttr (src dst : String) (o : Own) :
    (o.renameAttr src dst).elementTag? = o.elementTag? :=
  elementTag?_congr (kind_renameAttr src dst o) (tag_renameAttr src dst o)

theorem elementTag?_renameSlot (renames : List Rename) (o : Own) :
    (o.renameSlot renames).elementTag? = o.elementTag? := by
  unfold renameSlot setSlotName
  split
  · rfl
  · split
    · exact elementTag?_renameAttr ..
    · split <;> rfl

theorem elementTag?_applyFixups (filled : String → Bool) (fixups : List Fixup) (o : Own) :
    (o.applyFixups filled fixups).elementTag? = o.elementTag? :=
  applyFixups_induct (P := fun o' => o'.elementTag? = o.elementTag?) filled rfl
    fun _ _ _ ho => ho

end Own

/-! ## What reading tells -/

namespace Draft

/-- Everything that is told is told of a fragment. -/
def TellsOfFragment (z : Draft) : Prop :=
  ∀ e ∈ z.log, e.source = .fragment

variable {z : Draft}

theorem log_addText (z : Draft) (text : List Char) : (z.addText text).log = z.log := by
  unfold addText
  split
  · rfl
  · split
    · split <;> rfl
    · rfl

namespace TellsOfFragment

theorem of_log_eq {z' : Draft} (h : z.TellsOfFragment) (hlog : z'.log = z.log) :
    z'.TellsOfFragment := fun e he => h e (hlog ▸ he)

theorem close (h : z.TellsOfFragment) (tag : String) : (z.close tag).TellsOfFragment := by
  unfold Draft.close
  split
  · exact h
  · exact List.forall_mem_append.2 ⟨h, List.forall_mem_singleton.2 rfl⟩

theorem finish (h : z.TellsOfFragment) : z.finish.TellsOfFragment := by
  unfold Draft.finish
  split
  · exact h
  · exact List.forall_mem_append.2 ⟨h, List.forall_mem_singleton.2 rfl⟩

theorem add (h : z.TellsOfFragment) (construct : Construct) (rest : List Char) :
    (z.add construct rest).2.TellsOfFragment := by
  cases construct with
  | startTag content =>
    unfold Draft.add
    dsimp only
    split
    · exact h
    · split
      · exact h.of_log_eq (log_addText ..)
      · split <;> exact h
  | emptyTag content =>
    unfold Draft.add
    dsimp only
    split <;> exact h
  | endTag name => exact h.close _
  | comment text => exact h
  | characterData text => exact h.of_log_eq (log_addText ..)
  | skipped => exact h

theorem read (h : z.TellsOfFragment) (total : Nat) (text : List Char) :
    (z.read total text).2.TellsOfFragment :=
  @read_keeps TellsOfFragment z (fun s h => h.of_log_eq (log_addText _ s))
    (fun _ _ h => h.add _ _) finish h total text

end TellsOfFragment

end Draft

/-- **Reading markup tells of the fragment** and of nothing else. -/
theorem Content.source_of_mem_parse {markup : String} {e : LogEntry}
    (he : e ∈ (Content.parse markup).2) : e.source = .fragment := by
  have hread := Draft.TellsOfFragment.read (z := {}) nofun (byteLength markup.toList) markup.toList
  unfold Content.parse at he
  rcases hz : Draft.read {} (byteLength markup.toList) markup.toList with ⟨fault | _, z⟩ <;>
    rw [hz] at hread he <;> exact hread e he

end PageSlots.Markup

namespace PageSlots.Page

open PageSlots.Component PageSlots.Markup PageSlots.Markup.Tree PageSlots.Slot PageSlots.Text

/-! ## The warning -/

/-- **The warning** that a component stands outside its containers. -/
def misplacedEntry (file tag : String) (rule : Rule) : LogEntry :=
  ⟨.warn, .pages, "component is outside its expected container",
    [("file", .shown file), ("tag", .shown tag), ("expected", .shown (quotedList rule.containers))]⟩

/-- Whether an entry is such a warning. -/
def isMisplacedEntry (e : LogEntry) : Bool :=
  e.source = .pages && e.message = "component is outside its expected container"

/-- **The warning for an element** with a tag and the tags around it: there
is one if the rule for the tag names containers and none of them is
around. -/
def Processor.misplacedIn? (p : Processor) (file : String) (around : List String) (tag : String) :
    Option LogEntry :=
  match p.rules.find tag with
  | none => none
  | some rule =>
    if rule.containers = [] ∨ ∃ container ∈ rule.containers, container ∈ around then none
    else some (misplacedEntry file tag rule)

theorem isPlaced_iff {rule : Rule} {ctx : Context} :
    rule.isPlaced ctx = true
      ↔ rule.containers = [] ∨ ∃ container ∈ rule.containers, container ∈ ctx.ancestors := by
  unfold Rule.isPlaced Context.hasAncestor
  rw [Bool.or_eq_true, List.isEmpty_iff, List.any_eq_true]
  simp only [List.contains_iff_mem]

/-- An entry with another message is none of these warnings. -/
theorem filter_of_message {e : LogEntry} (message : String) (he : e.message = message)
    (h : message ≠ "component is outside its expected container") :
    [e].filter isMisplacedEntry = [] := by
  refine List.filter_eq_nil_iff.2 fun e' hmem => ?_
  rw [List.mem_singleton.1 hmem, isMisplacedEntry, he, decide_eq_false h, Bool.and_false]
  exact Bool.false_ne_true

/-! ## What is kept -/

/-- **Tags and surroundings are kept**, except that some nodes may get
another tag, and some warnings are given. -/
structure Keeps (ids : List NodeId) (warnings : Log) (run next : Run) : Prop where
  /-- No node goes. -/
  size_le : run.tree.size ≤ next.tree.size
  /-- A node stays an element, or none. -/
  isElement_eq : ∀ x < run.tree.size, next.tree.isElement x = run.tree.isElement x
  /-- An element keeps its tag. -/
  elementTag?_eq : ∀ x < run.tree.size, x ∉ ids → next.tree.elementTag? x = run.tree.elementTag? x
  /-- The name of the file stays. -/
  file_eq : next.context.file = run.context.file
  /-- The enclosing elements stay. -/
  ancestors_eq : next.context.ancestors = run.context.ancestors
  /-- Of misplaced components, just the warnings are told. -/
  told : ∃ told, next.log = run.log ++ told ∧ told.filter isMisplacedEntry = warnings

namespace Keeps

variable {ids : List NodeId} {warnings warnings' : Log} {run next last : Run} {α β : Type}

theorem trans (h : Keeps ids warnings run next) (h' : Keeps ids warnings' next last) :
    Keeps ids (warnings ++ warnings') run last where
  size_le := Nat.le_trans h.size_le h'.size_le
  isElement_eq x hx := by
    rw [h'.isElement_eq x (Nat.lt_of_lt_of_le hx h.size_le), h.isElement_eq x hx]
  elementTag?_eq x hx hout := by
    rw [h'.elementTag?_eq x (Nat.lt_of_lt_of_le hx h.size_le) hout, h.elementTag?_eq x hx hout]
  file_eq := h'.file_eq.trans h.file_eq
  ancestors_eq := h'.ancestors_eq.trans h.ancestors_eq
  told := by
    obtain ⟨told, hlog, hwarn⟩ := h.told
    obtain ⟨told', hlog', hwarn'⟩ := h'.told
    refine ⟨told ++ told', ?_, ?_⟩
    · rw [hlog', hlog, List.append_assoc]
    · rw [List.filter_append, hwarn, hwarn']

/-- What follows a step without a warning. -/
theorem after (h : Keeps ids [] run next) (h' : Keeps ids warnings next last) :
    Keeps ids warnings run last :=
  h.trans h'

/-- More nodes may be excepted. -/
theorem mono (h : Keeps [] warnings run next) (ids : List NodeId) :
    Keeps ids warnings run next where
  size_le := h.size_le
  isElement_eq := h.isElement_eq
  elementTag?_eq x hx _ := h.elementTag?_eq x hx List.not_mem_nil
  file_eq := h.file_eq
  ancestors_eq := h.ancestors_eq
  told := h.told

/-- **A step that keeps the tag of every node.** -/
theorem of_own {told : Log} (hsize : run.tree.size ≤ next.tree.size)
    (hown : ∀ x < run.tree.size, (next.tree.own x).elementTag? = (run.tree.own x).elementTag?)
    (hfile : next.context.file = run.context.file)
    (hancestors : next.context.ancestors = run.context.ancestors)
    (hlog : next.log = run.log ++ told) (htold : told.filter isMisplacedEntry = warnings) :
    Keeps [] warnings run next where
  size_le := hsize
  isElement_eq x hx := by
    have hsome : ∀ t : Tree, (t.own x).elementTag?.isSome = t.isElement x := fun t => by
      show (if t.isElement x = true then some (t.tag x) else none).isSome = t.isElement x
      cases t.isElement x <;> rfl
    rw [← hsome, ← hsome, hown x hx]
  elementTag?_eq x hx _ := hown x hx
  file_eq := hfile
  ancestors_eq := hancestors
  told := ⟨told, hlog, htold⟩

/-- A step that leaves the tree. -/
theorem of_tree_eq {told : Log} (htree : next.tree = run.tree)
    (hfile : next.context.file = run.context.file)
    (hancestors : next.context.ancestors = run.context.ancestors)
    (hlog : next.log = run.log ++ told) (htold : told.filter isMisplacedEntry = warnings) :
    Keeps [] warnings run next :=
  .of_own (Nat.le_of_eq (htree ▸ rfl)) (fun _ _ => by rw [htree]) hfile hancestors hlog htold

theorem refl (run : Run) : Keeps [] [] run run :=
  .of_tree_eq rfl rfl rfl (List.append_nil _).symm rfl

/-- **An edit of own data** that keeps the tag. -/
theorem of_recast {id : NodeId} {f : Own → Own} (h : Recast id f run.tree next.tree)
    (hf : (f (run.tree.own id)).elementTag? = (run.tree.own id).elementTag?)
    (hctx : next.context = run.context) (hlog : next.log = run.log) : Keeps [] [] run next := by
  refine .of_own (Nat.le_of_eq h.size_eq.symm) (fun x _ => ?_) (hctx ▸ rfl) (hctx ▸ rfl)
    (hlog.trans (List.append_nil _).symm) rfl
  rw [h.own_eq]
  split
  · rename_i hx
    rw [hx, hf]
  · rfl

/-- **Steps one after the other** keep what each keeps, also if the first
one fails. -/
theorem bind {x : PageM α} {f : α → PageM β} (h : Keeps ids warnings run (runAfter (x run)))
    (hf : ∀ a mid, x run = .ok a mid → Keeps ids [] mid (runAfter (f a mid))) :
    Keeps ids warnings run (runAfter ((x >>= f) run)) := by
  cases hx : x run with
  | ok a mid =>
    rw [hx, runAfter_ok] at h
    rw [bind_of_ok hx]
    have hall := h.trans (hf a mid hx)
    rwa [List.append_nil] at hall
  | error fault mid =>
    rw [hx] at h
    rw [bind_of_error hx]
    exact h

end Keeps

/-! ## The steps of a visit -/

section Steps

variable {p : Processor} {run next : Run} {id : NodeId} {rule : Rule} {promotion : Promotion}
variable {renderer : Renderer} {markup : String}

theorem keeps_render (mode : RenderMode) (source : String) (run : Run) :
    Keeps [] [] run (runAfter (render renderer mode source run)) := by
  unfold render
  dsimp only
  split <;> exact .of_tree_eq rfl rfl rfl (List.append_nil _).symm rfl

/-- Reading keeps what is there, whether it succeeds or not. -/
theorem keeps_readInto (h : run.tree.WellFormed) (hid : id < run.tree.size) (markup : String) :
    Keeps [] [] run (runAfter (readInto id markup run)) := by
  have hrun : runAfter (readInto id markup run)
      = { run with tree := (run.tree.readInto id markup).tree
                   log := run.log ++ (run.tree.readInto id markup).log } := by
    unfold readInto
    dsimp only
    split <;> rfl
  have hown : run.tree.size ≤ (run.tree.readInto id markup).tree.size
      ∧ ∀ x < run.tree.size, (run.tree.readInto id markup).tree.own x = run.tree.own x := by
    cases hp : (Content.parse markup).1 with
    | ok cs =>
      obtain ⟨ids, -, hr⟩ := h.readInto_of_ok hid hp
      exact ⟨hr.size_le, fun x hx => hr.own_eq_of_lt hx⟩
    | error fault =>
      obtain ⟨-, -, hc⟩ := h.readInto_of_error id hp
      exact ⟨hc.size_le, fun x hx => hc.own_eq hx nofun⟩
  rw [hrun]
  refine .of_own hown.1 (fun x hx => by rw [hown.2 x hx]) rfl rfl rfl ?_
  rw [h.log_readInto]
  refine List.filter_eq_nil_iff.2 fun e he => ?_
  unfold isMisplacedEntry
  rw [Content.source_of_mem_parse he]
  exact nofun

/-- **Rendering a region** changes the tag of the region only. -/
theorem keeps_renderRegion (h : run.tree.WellFormed) (hid : id < run.tree.size) :
    Keeps [id] [] run (runAfter (p.renderRegion id run)) := by
  unfold Processor.renderRegion
  rw [bind_of_ok (getTree_eq run)]
  cases regionOf (run.tree.tag id) with
  | none => exact (Keeps.refl run).mono [id]
  | some region =>
    obtain ⟨mode, tag⟩ := region
    refine ((keeps_render mode _ run).mono [id]).bind fun markup mid hrender => ?_
    obtain ⟨htree, -⟩ := eq_of_render hrender
    rw [bind_of_ok (modifyTree_eq _ mid)]
    rw [← htree] at h hid
    have hr := recast_setTag hid tag
    have hwf := h.recast hr (h.nodup_names id)
    have hsize : ((mid.tree.setTag id tag).clearChildren id).size = mid.tree.size :=
      (size_clearChildren hwf id).trans hr.size_eq
    have hown := fun x => own_clearChildren hwf id x
    have hcleared : Keeps [id] [] mid
        { mid with tree := (mid.tree.setTag id tag).replaceChildren id [] } := {
      size_le := Nat.le_of_eq hsize.symm
      isElement_eq := fun x _ => by
        show (((mid.tree.setTag id tag).clearChildren id).own x).isElement = _
        rw [hown x, hr.own_eq]
        split <;> rfl
      elementTag?_eq := fun x _ hx => by
        show (((mid.tree.setTag id tag).clearChildren id).own x).elementTag? = _
        rw [hown x, hr.own_ne fun he => hx (List.mem_singleton.2 he)]
        rfl
      file_eq := rfl
      ancestors_eq := rfl
      told := ⟨[], (List.append_nil _).symm, rfl⟩ }
    exact hcleared.after
      ((keeps_readInto (hwf.clearChildren id) (hsize.symm ▸ hid) markup).mono [id])

/-- Taking the id of a heading. -/
theorem keeps_headingId (hid : id < run.tree.size) :
    Keeps [] [] run (runAfter (headingId id run)) := by
  unfold headingId
  rw [bind_of_ok (get_eq run)]
  cases run.tree.attr? id "id" with
  | some written =>
    have hctx : (run.context.registerHeadingId written).2.file = run.context.file
        ∧ (run.context.registerHeadingId written).2.ancestors = run.context.ancestors := by
      unfold Context.registerHeadingId
      split <;> exact ⟨rfl, rfl⟩
    rcases hnew : run.context.registerHeadingId written with ⟨_ | _, context⟩
    · rw [hnew] at hctx
      dsimp only
      rw [hnew]
      exact .of_tree_eq rfl hctx.1 hctx.2 rfl
        (filter_of_message "heading id is used more than once" rfl (by decide))
    · rw [hnew] at hctx
      dsimp only
      rw [hnew]
      exact .of_tree_eq rfl hctx.1 hctx.2 (List.append_nil _).symm rfl
  | none =>
    generalize decodeReferences (run.tree.textContent id) = text
    have hctx : (run.context.uniqueHeadingId text).2.file = run.context.file
        ∧ (run.context.uniqueHeadingId text).2.ancestors = run.context.ancestors := by
      unfold Context.uniqueHeadingId
      dsimp only
      split <;> exact ⟨rfl, rfl⟩
    rcases hmade : run.context.uniqueHeadingId text with ⟨_ | made, context⟩
    · rw [hmade] at hctx
      dsimp only
      rw [hmade]
      exact .of_tree_eq rfl hctx.1 hctx.2 (List.append_nil _).symm rfl
    · rw [hmade] at hctx
      dsimp only
      rw [hmade]
      have hr := recast_setAttr hid "id" made
      refine .of_own (Nat.le_of_eq hr.size_eq.symm) (fun x _ => ?_) hctx.1 hctx.2
        (List.append_nil _).symm rfl
      show ((run.tree.setAttr id "id" made).own x).elementTag? = _
      rw [hr.own_eq]
      split <;> rfl

/-- **Giving a heading its id and its anchor.** -/
theorem keeps_anchorIfHeading (hid : id < run.tree.size) :
    Keeps [] [] run (runAfter (anchorIfHeading p id run)) := by
  unfold anchorIfHeading anchorHeading
  rw [bind_of_ok (getTree_eq run)]
  by_cases hh : run.tree.isHeading id = true
  · rw [if_pos hh]
    refine (keeps_headingId hid).bind fun made mid _ => ?_
    cases made with
    | none => exact .refl mid
    | some made =>
      dsimp only
      rw [modifyTree_eq]
      by_cases ha : hasAnchor mid.tree id p.anchorClass = true
      · exact .of_tree_eq (if_pos ha) rfl rfl (List.append_nil _).symm rfl
      · obtain ⟨t, he, hadds⟩ := exists_adds_insertAnchor mid.tree id p.anchorClass made
        rw [if_neg ha, he]
        refine .of_own ?_ (fun x hx => ?_) rfl rfl (List.append_nil _).symm rfl
        · show mid.tree.size ≤ (t.insertChild id mid.tree.size 0).size
          rw [size_insertChild]
          exact Nat.le_of_lt hadds.lt_size
        · show ((t.insertChild id mid.tree.size 0).own x).elementTag? = _
          rw [hadds.own_insertChild, if_neg (Nat.ne_of_lt hx)]
  · rw [if_neg hh]
    exact .refl run

/-- **Applying a promotion.** -/
theorem keeps_promote (h : run.tree.WellFormed) (hid : id < run.tree.size) (index : Nat) :
    Keeps [] [] run (runAfter (promote renderer id index promotion run)) := by
  unfold promote
  rw [bind_of_ok (takeAttr_eq id promotion.attr run), bind_of_ok (getTree_eq _)]
  have hr := recast_removeAttr hid promotion.attr
  have hwf := h.recast hr (Own.nodup_names_removeAttr promotion.attr (h.nodup_names id))
  have htaken : Keeps [] [] run { run with tree := (run.tree.removeAttr id promotion.attr).2 } :=
    .of_recast hr rfl rfl rfl
  dsimp only
  refine htaken.after ?_
  generalize (run.tree.removeAttr id promotion.attr).1 = value
  generalize (run.tree.removeAttr id promotion.attr).2 = t at *
  by_cases hf : (t.findSlot id promotion.slot).isSome = true
  · rw [if_pos hf]
    by_cases hv : value.isSome = true
    · rw [if_pos hv]
      exact .of_tree_eq rfl rfl rfl rfl
        (filter_of_message "slot content overrides attribute" rfl (by decide))
    · rw [if_neg hv]
      exact .refl _
  · rw [if_neg hf]
    cases value.or promotion.fallback with
    | none => exact .refl _
    | some source =>
      refine (keeps_render promotion.content source _).bind fun markup mid hrender => ?_
      obtain ⟨rfl, -⟩ := eq_of_render hrender
      have ha := adds_template mid.tree promotion.slot
      have hn := Own.nodup_names_wrapper (marker promotion.slot)
      have hadded : Keeps [] [] mid { mid with
          tree := (mid.tree.createElement wrapperTag).2.setAttr mid.tree.size
            (marker promotion.slot) "" } := by
        refine .of_own (Nat.le_of_lt ha.lt_size) (fun x hx => ?_) rfl rfl
          (List.append_nil _).symm rfl
        rw [ha.own_eq, if_neg (Nat.ne_of_lt hx)]
      rw [bind_of_ok (createTemplate_eq _ _)]
      refine hadded.after ?_
      refine (keeps_readInto (ha.wellFormed hwf hn) ha.lt_size markup).bind fun _ last _ => ?_
      rw [bind_of_ok (modifyTree_eq _ last), bind_of_ok (tell_eq _ _)]
      refine .of_own (Nat.le_of_eq (size_insertChild ..).symm) (fun x _ => ?_) rfl rfl rfl
        (filter_of_message "promoted attribute to slot" rfl (by decide))
      exact congrArg Own.elementTag? (own_insertChild ..)

/-- **Applying promotions**, from the first child on. -/
theorem keeps_promoteAll {promotions : List Promotion} {old : List NodeId} :
    ∀ {run : Run} (before : List NodeId), run.tree.WellFormed → id < run.tree.size →
      run.tree.children id = before ++ old →
      Keeps [] [] run (runAfter (promoteAll renderer id before.length promotions run)) := by
  induction promotions with
  | nil => exact fun _ _ _ _ => .refl _
  | cons promotion promotions ih =>
    intro run before h hid hch
    obtain ⟨c, hc⟩ := h.exists_shows id
    have hagree := agree_promote h hid hc hch renderer promotion
    rw [promoteAll]
    refine (keeps_promote h hid before.length).bind fun added mid hok => ?_
    rw [hok] at hagree
    obtain ⟨hwf, hcf⟩ := hagree.confined_of_ok
    obtain ⟨_, -, -, -, ts, hts, hlen⟩ := hagree.exists_value_of_ok
    rw [← hlen]
    exact ih ts hwf (Nat.lt_of_lt_of_le hid hcf.size_le) hts

/-- **Looking at the place of a component** warns if it is misplaced. -/
theorem keeps_checkPlace (hf : p.rules.find (run.tree.tag id) = some rule) :
    Keeps [] (p.misplacedIn? run.context.file run.context.ancestors (run.tree.tag id)).toList run
      (runAfter (checkPlace id rule run)) := by
  unfold checkPlace Processor.misplacedIn?
  rw [bind_of_ok (get_eq run), hf]
  dsimp only
  by_cases hp : rule.isPlaced run.context = true
  · rw [if_pos hp, if_pos (isPlaced_iff.1 hp)]
    exact .refl run
  · rw [if_neg hp, if_neg fun hc => hp (isPlaced_iff.2 hc)]
    exact .of_tree_eq rfl rfl rfl rfl rfl

/-- Arranging the children of a component tells of nothing else. -/
theorem keeps_arrangeSlots (h : run.tree.WellFormed)
    (hf : p.rules.find (run.tree.tag id) = some rule) :
    Keeps [] (p.misplacedIn? run.context.file run.context.ancestors (run.tree.tag id)).toList run
      (runAfter (arrangeSlots id rule run)) := by
  unfold arrangeSlots
  refine (keeps_checkPlace hf).bind fun _ mid hok => ?_
  obtain ⟨c, hc⟩ := h.exists_shows id
  have hagree := agree_checkPlace h hc rule
  rw [hok] at hagree
  obtain ⟨hwf, -⟩ := hagree.confined_of_ok
  rw [bind_of_ok (editTree_eq _ mid), editTree_eq]
  obtain ⟨hr, hrlog⟩ := recastAll_renameSlots hwf id rule.renames
  obtain ⟨hd, hdlog⟩ := drops_dedupeSlots
    (hwf.recastAll hr fun o => Own.nodup_names_renameSlot rule.renames) id
  refine .of_own (Nat.le_of_eq (hd.size_eq.trans hr.size_eq).symm) (fun x _ => ?_) rfl rfl
    (List.append_assoc ..) ?_
  · refine (congrArg Own.elementTag? ((hd.own_eq x).trans (hr.own_eq x))).trans ?_
    split
    · exact Own.elementTag?_renameSlot ..
    · rfl
  · rw [hrlog, hdlog]
    refine List.filter_eq_nil_iff.2 fun e he => ?_
    rcases List.mem_append.1 he with he | he
    · obtain ⟨c, -, he⟩ := List.mem_filterMap.1 he
      obtain ⟨rename, -, rfl⟩ := Option.map_eq_some_iff.1 he
      exact nofun
    · obtain ⟨c, -, rfl⟩ := List.mem_map.1 he
      exact nofun

/-- **Applying the rule of a component.** -/
theorem keeps_applyRule (h : run.tree.WellFormed) (hid : id < run.tree.size)
    (hf : p.rules.find (run.tree.tag id) = some rule) :
    Keeps [] (p.misplacedIn? run.context.file run.context.ancestors (run.tree.tag id)).toList run
      (runAfter (applyRule p.renderer id rule run)) := by
  have harrange := keeps_arrangeSlots h hf
  rw [applyRule_eq]
  refine harrange.bind fun _ mid hok => ?_
  rw [hok] at harrange
  obtain ⟨hwf, -⟩ := steady_arrangeSlots h hok
  have hid := Nat.lt_of_lt_of_le hid harrange.size_le
  obtain ⟨c, hc⟩ := hwf.exists_shows id
  have hall := agree_promoteAll p.renderer rule.promotions mid [] hwf hid hc rfl
  refine (keeps_promoteAll [] hwf hid rfl).bind fun _ last hlast => ?_
  rw [hlast] at hall
  obtain ⟨hwf', hcf⟩ := hall.confined_of_ok
  exact .of_recast (recast_applyFixups hwf' (Nat.lt_of_lt_of_le hid hcf.size_le) rule.fixups)
    (Own.elementTag?_applyFixups ..) rfl rfl

/-- Applying the rule of an element, if there is one. -/
theorem keeps_applyRules (h : run.tree.WellFormed) (hid : id < run.tree.size) :
    Keeps [] (p.misplacedIn? run.context.file run.context.ancestors (run.tree.tag id)).toList run
      (runAfter (p.applyRules id run)) := by
  unfold Processor.applyRules
  rw [bind_of_ok (getTree_eq run)]
  cases hf : p.rules.find (run.tree.tag id) with
  | none =>
    rw [Processor.misplacedIn?, hf]
    exact .refl run
  | some rule => exact keeps_applyRule h hid hf

/-! ## Entering a node -/

/-- A heading is given its id and anchor in any case. -/
theorem returns_anchorIfHeading (p : Processor) (id : NodeId) (run : Run) :
    returns (anchorIfHeading p id run) = true := by
  have hid : ∀ run : Run, returns (headingId id run) = true := fun run => by
    unfold headingId
    rw [bind_of_ok (get_eq run)]
    cases run.tree.attr? id "id" with
    | some written =>
      rcases hnew : run.context.registerHeadingId written with ⟨_ | _, context⟩ <;>
        dsimp only <;> rw [hnew] <;> rfl
    | none =>
      generalize decodeReferences (run.tree.textContent id) = text
      rcases hmade : run.context.uniqueHeadingId text with ⟨_ | made, context⟩ <;>
        dsimp only <;> rw [hmade] <;> rfl
  unfold anchorIfHeading anchorHeading
  rw [bind_of_ok (getTree_eq run)]
  split
  · obtain ⟨made, mid, hok⟩ := exists_of_returns (hid run)
    rw [bind_of_ok hok]
    cases made <;> rfl
  · rfl

/-- Whether a visit comes as far as the rule of its element. It does
unless the element is a region that cannot be rendered. -/
def Processor.reachesRule (p : Processor) (v : Visit) : Bool :=
  !v.run.tree.isElement v.id || returns (p.renderRegion v.id v.run)

/-- **The warnings that a visit gives**, by the tree that it leaves. -/
def Processor.warnings (p : Processor) (v : Visit) (t : Tree) : Log :=
  if p.reachesRule v then
    ((t.elementTag? v.id).bind
      (p.misplacedIn? v.run.context.file v.run.context.ancestors)).toList
  else []

/-- **What the first pass does to an element** is to warn if the element is
misplaced, and nothing else of the kind. -/
theorem keeps_visitElement (h : run.tree.WellFormed) (hid : id < run.tree.size)
    (he : run.tree.isElement id = true) :
    Keeps [id] (p.warnings ⟨id, run⟩ (runAfter (p.visitElement id run)).tree) run
      (runAfter (p.visitElement id run)) := by
  have hregion := keeps_renderRegion (p := p) h hid
  rw [visitElement_eq]
  cases hok : p.renderRegion id run with
  | error fault mid =>
    rw [hok] at hregion
    have hreach : ¬ p.reachesRule ⟨id, run⟩ = true := by
      rw [Processor.reachesRule, he, hok]
      exact Bool.false_ne_true
    rw [bind_of_error hok, Processor.warnings, if_neg hreach]
    exact hregion
  | ok _ mid =>
    rw [hok, runAfter_ok] at hregion
    have hreach : p.reachesRule ⟨id, run⟩ = true := by
      rw [Processor.reachesRule, he, hok]
      rfl
    obtain ⟨hwf, -⟩ := steady_renderRegion h hid hok
    have hlt := hid
    have hid := Nat.lt_of_lt_of_le hid hregion.size_le
    have hanchor := keeps_anchorIfHeading (p := p) hid
    obtain ⟨_, last, hlast⟩ := exists_of_returns (returns_anchorIfHeading p id mid)
    rw [hlast, runAfter_ok] at hanchor
    obtain ⟨hwf', -⟩ := steady_anchorIfHeading hwf hid hlast
    have hbefore := hregion.after (hanchor.mono [id])
    have hid' := Nat.lt_of_lt_of_le hid hanchor.size_le
    have hrules := keeps_applyRules (p := p) hwf' hid'
    -- the element has the tag under which its rule is looked up
    have htag : (runAfter (p.applyRules id last)).tree.elementTag? id
        = some (last.tree.tag id) := by
      have he' : last.tree.isElement id = true := (hbefore.isElement_eq id hlt).trans he
      rw [hrules.elementTag?_eq id hid' List.not_mem_nil, elementTag?, if_pos he']
    rw [bind_of_ok hok, bind_of_ok hlast, Processor.warnings, if_pos hreach, htag]
    rw [hbefore.file_eq, hbefore.ancestors_eq] at hrules
    exact hbefore.after (hrules.mono [id])

/-- Visit a node, if it is an element. -/
def Processor.visitNode (p : Processor) (id : NodeId) : PageM Unit := do
  if (← getTree).isElement id then
    p.visitElement id

/-- Normalize the children of a node, and go inside if it is an element. -/
def goInside (id : NodeId) : PageM Unit := do
  modifyTree (Processor.normalizeChildren · id)
  let t ← getTree
  if t.isElement id then
    modifyContext (·.pushAncestor (t.tag id))

/-- A node is visited and then gone inside. -/
theorem enter_eq (p : Processor) (id : NodeId) :
    p.enter id = p.visitNode id >>= fun _ => goInside id := by
  funext run
  unfold Processor.enter Processor.visitNode
  rw [bind_assoc, bind_of_ok (getTree_eq run), bind_of_ok (getTree_eq run)]
  by_cases he : run.tree.isElement id = true
  · rw [if_pos he, if_pos he]
    rfl
  · rw [if_neg he, if_neg he]
    rfl

/-- A visit that returns has come to the rule. -/
theorem reachesRule_of_enter (hok : p.enter id run = .ok () next) :
    p.reachesRule ⟨id, run⟩ = true := by
  unfold Processor.reachesRule
  by_cases he : run.tree.isElement id = true
  · rw [enter_eq] at hok
    obtain ⟨_, mid, hvisit, -⟩ := exists_of_bind_ok hok
    rw [Processor.visitNode, bind_of_ok (getTree_eq run), if_pos he, visitElement_eq] at hvisit
    obtain ⟨_, _, hregion, -⟩ := exists_of_bind_ok hvisit
    rw [hregion]
    exact Bool.or_true _
  · rw [Bool.not_eq_true] at he
    dsimp only
    rw [he]
    rfl

/-- **Visiting a node.** -/
theorem keeps_visitNode (h : run.tree.WellFormed) (hid : id < run.tree.size) :
    Keeps [id] (p.warnings ⟨id, run⟩ (runAfter (p.visitNode id run)).tree) run
        (runAfter (p.visitNode id run))
      ∧ (runAfter (p.visitNode id run)).tree.WellFormed
      ∧ Confined [id] run.tree (runAfter (p.visitNode id run)).tree := by
  unfold Processor.visitNode
  rw [bind_of_ok (getTree_eq run)]
  by_cases he : run.tree.isElement id = true
  · obtain ⟨c, hc⟩ := h.exists_shows id
    rw [if_pos he]
    exact ⟨keeps_visitElement h hid he, (agree_visitElement h hid hc p).confined⟩
  · have hnone : p.warnings ⟨id, run⟩ run.tree = [] := by
      rw [Processor.warnings, elementTag?, if_neg he]
      split <;> rfl
    rw [if_neg he]
    show Keeps [id] (p.warnings ⟨id, run⟩ run.tree) run run ∧ _
    rw [hnone]
    exact ⟨(Keeps.refl run).mono [id], h, .refl _ _⟩

/-- **Going inside a node** leaves its tag, and puts that on the enclosing
ones. -/
theorem exists_of_goInside (h : run.tree.WellFormed) (id : NodeId) :
    ∃ next, goInside id run = .ok () next ∧ next.tree.WellFormed
      ∧ Confined [id] run.tree next.tree ∧ next.tree.elementTag? id = run.tree.elementTag? id
      ∧ next.context.file = run.context.file ∧ next.log = run.log
      ∧ next.context.ancestors = (run.tree.elementTag? id).toList ++ run.context.ancestors := by
  obtain ⟨cs, hcs⟩ := exists_forall₂_shows fun i (_ : i ∈ run.tree.children id) =>
    h.exists_shows i
  obtain ⟨hwf, hcf, hown, -⟩ := h.normalizeChildren hcs
  have htag := elementTag?_of_own hown
  unfold goInside
  rw [bind_of_ok (modifyTree_eq _ run), bind_of_ok (getTree_eq _)]
  by_cases he : (Processor.normalizeChildren run.tree id).isElement id = true
  · rw [if_pos he, modifyContext_eq]
    refine ⟨_, rfl, hwf, hcf, htag, rfl, rfl, ?_⟩
    rw [← htag, elementTag?, if_pos he]
    rfl
  · rw [if_neg he]
    refine ⟨_, rfl, hwf, hcf, htag, rfl, rfl, ?_⟩
    rw [← htag, elementTag?, if_neg he]
    rfl

/-- **What entering a node does** to the tree and the log, whether it
succeeds or not. -/
structure Enters (p : Processor) (id : NodeId) (run next : Run) : Prop where
  /-- The tree is well formed. -/
  wellFormed : next.tree.WellFormed
  /-- Nothing changes outside the node. -/
  confined : Confined [id] run.tree next.tree
  /-- The name of the file stays. -/
  file_eq : next.context.file = run.context.file
  /-- Of misplaced components, just the node is told if it is one. -/
  told : ∃ told, next.log = run.log ++ told
    ∧ told.filter isMisplacedEntry = p.warnings ⟨id, run⟩ next.tree

/-- **Entering a node.** If that succeeds, the node is one of the enclosing
elements afterwards, provided that it is an element. -/
theorem enters_enter (h : run.tree.WellFormed) (hid : id < run.tree.size) :
    Enters p id run (runAfter (p.enter id run))
      ∧ ∀ next, p.enter id run = .ok () next →
        next.context.ancestors = (next.tree.elementTag? id).toList ++ run.context.ancestors := by
  obtain ⟨hkeeps, hwf, hcf⟩ := keeps_visitNode (p := p) h hid
  rw [enter_eq]
  cases hvisit : p.visitNode id run with
  | error fault mid =>
    rw [hvisit, runAfter_error] at hkeeps hwf hcf
    rw [bind_of_error hvisit]
    exact ⟨⟨hwf, hcf, hkeeps.file_eq, hkeeps.told⟩, nofun⟩
  | ok _ mid =>
    rw [hvisit, runAfter_ok] at hkeeps hwf hcf
    obtain ⟨next, hnext, hwf', hcf', htag, hfile, hlog, hancestors⟩ := exists_of_goInside hwf id
    rw [bind_of_ok hvisit, hnext, runAfter_ok]
    refine ⟨⟨hwf', hcf.trans hcf' h hwf, hfile.trans hkeeps.file_eq, ?_⟩, ?_⟩
    · rw [hlog, Processor.warnings, htag]
      exact hkeeps.told
    · rintro _ ⟨⟩
      rw [htag, hancestors, hkeeps.ancestors_eq]

end Steps

end PageSlots.Page
