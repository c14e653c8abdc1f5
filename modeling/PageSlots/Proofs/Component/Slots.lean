import PageSlots.Proofs.Slot.Children

/-!
# What a rule does to the slots of a component

Before attributes are promoted, the old slot names on the children of a
component are replaced and repeated slots are dropped; afterwards flags
are set. Each of the three is described here by what it does to the child
list and to own data: renaming edits the children and leaves their places
(`recastAll_renameSlots`), dropping takes children out of one list and
leaves everything else (`Drops`), and flags are an edit of the
component itself (`recast_applyFixups`).

Which children stay is `keepFirst`: of the children that fill one slot the
first. The function is about any list whose entries may name a slot, so it
speaks of the children of a node and of what they show at once.
-/

namespace PageSlots.Component

open PageSlots.Markup

/-! ## The first for each slot -/

section KeepFirst

variable {α β : Type} (slot : α → Option String)

/-- **Of the entries for one slot the first.** Entries for the slots in
`seen` are dropped, and entries for no slot are kept. -/
def keepFirst (seen : List String) : List α → List α
  | [] => []
  | a :: l =>
    match slot a with
    | none => a :: keepFirst seen l
    | some s => if s ∈ seen then keepFirst seen l else a :: keepFirst (s :: seen) l

/-- The entries for a slot that one before them has filled. -/
def repeats (seen : List String) : List α → List α
  | [] => []
  | a :: l =>
    match slot a with
    | none => repeats seen l
    | some s => if s ∈ seen then a :: repeats seen l else repeats (s :: seen) l

variable {slot} {a : α} {s : String} {seen : List String}

theorem repeats_cons_of_none (h : slot a = none) (l : List α) :
    repeats slot seen (a :: l) = repeats slot seen l := by
  rw [repeats, h]

theorem repeats_cons_of_mem (h : slot a = some s) (hs : s ∈ seen) (l : List α) :
    repeats slot seen (a :: l) = a :: repeats slot seen l := by
  rw [repeats, h]
  exact if_pos hs

theorem repeats_cons_of_notMem (h : slot a = some s) (hs : s ∉ seen) (l : List α) :
    repeats slot seen (a :: l) = repeats slot (s :: seen) l := by
  rw [repeats, h]
  exact if_neg hs

variable (slot)

theorem repeats_sublist (seen : List String) (l : List α) : (repeats slot seen l).Sublist l := by
  induction l generalizing seen with
  | nil => exact List.Sublist.refl _
  | cons a l ih =>
    unfold repeats
    split
    · exact (ih seen).cons a
    · split
      · exact (ih seen).cons_cons a
      · exact (ih _).cons a

theorem keepFirst_sublist (seen : List String) (l : List α) :
    (keepFirst slot seen l).Sublist l := by
  induction l generalizing seen with
  | nil => exact List.Sublist.refl _
  | cons a l ih =>
    unfold keepFirst
    split
    · exact (ih seen).cons_cons a
    · split
      · exact (ih seen).cons a
      · exact (ih _).cons_cons a

/-- **What stays is what is not repeated.** -/
theorem keepFirst_eq_filter [DecidableEq α] {l : List α} (h : l.Nodup) (seen : List String) :
    keepFirst slot seen l = l.filter (· ∉ repeats slot seen l) := by
  induction l generalizing seen with
  | nil => rfl
  | cons a l ih =>
    obtain ⟨ha, hl⟩ := List.nodup_cons.1 h
    have hout : ∀ seen, a ∉ repeats slot seen l := fun seen hm =>
      ha ((repeats_sublist slot seen l).subset hm)
    unfold keepFirst repeats
    split
    · rw [List.filter_cons, if_pos (by simpa using hout seen), ih hl]
    · split
      · rw [List.filter_cons, if_neg (by simp), ih hl]
        refine List.filter_congr fun b hb => ?_
        have hba : b ≠ a := by
          rintro rfl
          exact ha hb
        simp [hba]
      · rw [List.filter_cons, if_pos (by simpa using hout _), ih hl]

/-- The slots of what stays are distinct, and not among those seen. -/
theorem nodup_slots_keepFirst (seen : List String) (l : List α) :
    ((keepFirst slot seen l).filterMap slot).Nodup
      ∧ ∀ s ∈ (keepFirst slot seen l).filterMap slot, s ∉ seen := by
  induction l generalizing seen with
  | nil => exact ⟨List.nodup_nil, nofun⟩
  | cons a l ih =>
    unfold keepFirst
    cases hs : slot a with
    | none =>
      dsimp only
      rw [List.filterMap_cons, hs]
      exact ih seen
    | some s =>
      dsimp only
      split
      · exact ih seen
      · rename_i hm
        obtain ⟨hnd, hout⟩ := ih (s :: seen)
        rw [List.filterMap_cons, hs]
        refine ⟨List.nodup_cons.2 ⟨fun hmem => hout s hmem List.mem_cons_self, hnd⟩, ?_⟩
        intro s' hs'
        rcases List.mem_cons.1 hs' with rfl | hs'
        · exact hm
        · exact fun h => hout s' hs' (List.mem_cons_of_mem _ h)

variable {slot}

/-- Only the slots of what is listed matter. -/
theorem keepFirst_congr {slot' : α → Option String} {l : List α} (h : ∀ a ∈ l, slot a = slot' a)
    (seen : List String) : keepFirst slot seen l = keepFirst slot' seen l := by
  induction l generalizing seen with
  | nil => rfl
  | cons a l ih =>
    have ih := ih fun b hb => h b (List.mem_cons_of_mem a hb)
    rw [keepFirst, keepFirst, h a List.mem_cons_self]
    cases slot' a with
    | none => exact congrArg _ (ih seen)
    | some s =>
      dsimp only
      rw [ih seen, ih (s :: seen)]

/-- Related lists keep related entries. -/
theorem forall₂_keepFirst {R : α → β → Prop} {l : List α} {m : List β}
    (h : List.Forall₂ R l m) (slot : α → Option String) (slot' : β → Option String)
    (hs : ∀ a b, R a b → slot a = slot' b) (seen : List String) :
    List.Forall₂ R (keepFirst slot seen l) (keepFirst slot' seen m)
      ∧ List.Forall₂ R (repeats slot seen l) (repeats slot' seen m) := by
  induction h generalizing seen with
  | nil => exact ⟨.nil, .nil⟩
  | @cons a b l m hab _ ih =>
    unfold keepFirst repeats
    rw [hs a b hab]
    split
    · exact ⟨.cons hab (ih seen).1, (ih seen).2⟩
    · split
      · exact ⟨(ih seen).1, .cons hab (ih seen).2⟩
      · exact ⟨.cons hab (ih _).1, (ih _).2⟩

end KeepFirst

/-- The flag that a fixup may set. -/
def Fixup.flag : Fixup → String
  | .flagIfAttr _ flag => flag
  | .flagUnless _ _ flag => flag

end PageSlots.Component

namespace PageSlots.Markup

open PageSlots.Component PageSlots.Slot

/-! ## Own data -/

namespace Own

variable {o : Own}

/-- Whether a node fills a slot. -/
def fills (slot : String) (o : Own) : Bool :=
  o.slotName = some slot

/-- The renaming that applies to a child of a component. -/
def renamed? (renames : List Rename) (o : Own) : Option Rename :=
  o.slotName.bind fun slot => renames.find? (·.source = slot)

/-- Replace an old slot name. -/
def renameSlot (renames : List Rename) (o : Own) : Own :=
  match o.renamed? renames with
  | none => o
  | some rename => o.setSlotName rename.target

/-- The slot that a child fills once old names are replaced. -/
def renamedSlot (renames : List Rename) (o : Own) : Option String :=
  match o.renamed? renames with
  | none => o.slotName
  | some rename => some rename.target

/-- Replacing an old slot name changes attributes only. -/
theorem renameSlot_eq (renames : List Rename) (o : Own) :
    o.renameSlot renames = { o with attrs := (o.renameSlot renames).attrs } := by
  unfold renameSlot
  split
  · rfl
  · exact setSlotName_eq _ o

theorem nodup_names_renameSlot (renames : List Rename) (h : o.names.Nodup) :
    (o.renameSlot renames).names.Nodup := by
  unfold renameSlot
  split
  · exact h
  · exact nodup_names_setSlotName _ h

/-- **Renaming gives a child the slot that the renaming names.** -/
theorem slotName_renameSlot {renames : List Rename} (h : ∀ r ∈ renames, r.target ≠ "") (o : Own) :
    (o.renameSlot renames).slotName = o.renamedSlot renames := by
  unfold renameSlot renamedSlot
  cases hr : o.renamed? renames with
  | none => rfl
  | some rename =>
    obtain ⟨slot, hs, hfind⟩ := Option.bind_eq_some_iff.1 hr
    exact slotName_setSlotName hs (h rename (List.mem_of_find?_eq_some hfind))

/-- Set the flag of one fixup, if it applies to a component of which it is
known which slots are filled. -/
def applyFixup (filled : String → Bool) (o : Own) : Fixup → Own
  | .flagIfAttr attr flag => if o.hasAttr attr then o.setAttr flag "" else o
  | .flagUnless slot attr flag =>
    if !filled slot && !o.hasAttr attr then o.setAttr flag "" else o

/-- Set the flags of a component, one fixup after the other. -/
def applyFixups (filled : String → Bool) (fixups : List Fixup) (o : Own) : Own :=
  fixups.foldl (applyFixup filled) o

/-- What holds of a node and is kept by setting flags holds after fixups. -/
theorem applyFixups_induct {P : Own → Prop} (filled : String → Bool) {fixups : List Fixup}
    (h : P o) (hset : ∀ o, ∀ fixup ∈ fixups, P o → P (o.setAttr fixup.flag "")) :
    P (o.applyFixups filled fixups) := by
  unfold applyFixups
  induction fixups generalizing o with
  | nil => exact h
  | cons fixup fixups ih =>
    refine ih ?_ fun o f hf => hset o f (List.mem_cons_of_mem _ hf)
    have hset := hset o fixup List.mem_cons_self h
    unfold applyFixup
    split
    all_goals
      split
      · exact hset
      · exact h

theorem nodup_names_applyFixups (filled : String → Bool) (fixups : List Fixup)
    (h : o.names.Nodup) : (o.applyFixups filled fixups).names.Nodup :=
  applyFixups_induct (P := fun o => o.names.Nodup) filled h
    fun _ fixup _ => nodup_names_setAttr fixup.flag ""

end Own

/-- What a renaming tells. -/
def renameEntry (tag : String) (rename : Rename) : LogEntry :=
  ⟨.debug, .components, "renaming deprecated slot",
    [("tag", .shown tag), ("from", .text rename.source), ("to", .text rename.target)]⟩

/-- What a dropped child tells. -/
def repeatEntry (tag : String) (slot : Option String) : LogEntry :=
  ⟨.debug, .components, "dropping duplicate slot content",
    [("tag", .shown tag), ("slot", .shown (slot.getD ""))]⟩

namespace Tree

variable {t t' : Tree} {id p x : NodeId} {cs : List Content}

/-! ## Renaming -/

/-- Renaming one child is an edit of the child, and told of if it
changes. -/
theorem recast_renameSlot {c : NodeId} (hc : c < t.size) (id : NodeId) (renames : List Rename)
    (log : Log) :
    Recast c (Own.renameSlot renames) t (renameSlot id renames (log, t) c).2
      ∧ (renameSlot id renames (log, t) c).1
        = log ++ (((t.own c).renamed? renames).map (renameEntry (t.tag id))).toList := by
  have hrenamed : (t.slotName c).bind (fun slot => renames.find? (·.source = slot))
      = (t.own c).renamed? renames := by
    rw [slotName_eq_own]
    rfl
  unfold renameSlot
  dsimp only
  rw [hrenamed]
  cases hr : (t.own c).renamed? renames with
  | none => exact ⟨Recast.refl (by rw [Own.renameSlot, hr]), by simp⟩
  | some rename =>
    exact ⟨(recast_setSlotName hc rename.target).congr (by rw [Own.renameSlot, hr]), rfl⟩

/-- Renaming nodes one after the other, none of which is the component. -/
theorem recastAll_foldl_renameSlot (renames : List Rename) {l : List NodeId} :
    ∀ (log : Log) (t : Tree), l.Nodup → id ∉ l → (∀ c ∈ l, c < t.size) →
      RecastAll l (Own.renameSlot renames) t (l.foldl (renameSlot id renames) (log, t)).2
        ∧ (l.foldl (renameSlot id renames) (log, t)).1 = log ++ l.filterMap fun c =>
            ((t.own c).renamed? renames).map (renameEntry (t.tag id)) := by
  induction l with
  | nil => exact fun log t _ _ _ => ⟨RecastAll.nil _ t, by simp⟩
  | cons c l ih =>
    intro log t hnd hid hsize
    obtain ⟨hc, hl⟩ := List.nodup_cons.1 hnd
    rw [List.mem_cons, not_or] at hid
    obtain ⟨hre, hlog⟩ := recast_renameSlot (hsize c List.mem_cons_self) id renames log
    obtain ⟨hall, hlogs⟩ := ih (renameSlot id renames (log, t) c).1
      (renameSlot id renames (log, t) c).2 hl hid.2
      (fun b hb => hre.size_eq ▸ hsize b (List.mem_cons_of_mem _ hb))
    refine ⟨RecastAll.cons hre hall hc, hlogs.trans ?_⟩
    rw [hlog, List.filterMap_cons, tag_eq_own, tag_eq_own, hre.own_ne hid.1, List.append_assoc]
    have htail : l.filterMap (fun b => (((renameSlot id renames (log, t) c).2.own b).renamed?
          renames).map (renameEntry (t.own id).tag))
        = l.filterMap fun b => ((t.own b).renamed? renames).map (renameEntry (t.own id).tag) := by
      refine List.filterMap_congr fun b hb => ?_
      rw [hre.own_ne (by rintro rfl; exact hc hb)]
    rw [htail]
    cases ((t.own c).renamed? renames).map (renameEntry (t.own id).tag) <;> rfl

/-- **Renaming edits each child on its own**, and tells of those that
change. -/
theorem recastAll_renameSlots (h : t.WellFormed) (id : NodeId) (renames : List Rename) :
    RecastAll (t.children id) (Own.renameSlot renames) t (t.renameSlots id renames).2
      ∧ (t.renameSlots id renames).1 = (t.children id).filterMap fun c =>
          ((t.own c).renamed? renames).map (renameEntry (t.tag id)) :=
  recastAll_foldl_renameSlot renames [] t (h.nodup_children id)
    (fun hm => h.not_within_of_mem hm .refl) fun _ hc => h.lt_of_mem hc

/-! ## Dropping -/

/-- **One tree is another without some children of a node**, which are
detached. -/
structure Drops (p : NodeId) (ids : List NodeId) (t t' : Tree) : Prop where
  /-- The tree is well formed. -/
  wellFormed : t'.WellFormed
  /-- No node comes or goes. -/
  size_eq : t'.size = t.size
  /-- The own data stay. -/
  own_eq : ∀ x, t'.own x = t.own x
  /-- The children are missing from their list. -/
  children_eq : ∀ x, t'.children x = if x = p then (t.children x).filter (· ∉ ids) else t.children x
  /-- They have no parent. -/
  parent_eq : ∀ x, t'.parent x = if x ∈ ids then none else t.parent x

namespace Drops

variable {ids : List NodeId}

theorem confined (h : Drops p ids t t') (hwf : t.WellFormed) (hids : ∀ i ∈ ids, i ∈ t.children p) :
    Confined [p] t t' where
  size_le := Nat.le_of_eq h.size_eq.symm
  node_eq x hx hout := by
    have hxp : x ≠ p := by
      rintro rfl
      exact hout x List.mem_cons_self .refl
    have hxi : x ∉ ids := fun hm =>
      hout p List.mem_cons_self (Within.refl.child (hids x hm))
    exact node_ext (h.own_eq x) (by rw [h.children_eq, if_neg hxp])
      (by rw [h.parent_eq, if_neg hxi])
  parent_eq r hr := by
    rw [List.mem_singleton.1 hr, h.parent_eq, if_neg fun hm => ?_]
    exact hwf.not_within_of_mem (hids p hm) .refl

/-- What stands below the node shows what it showed. -/
theorem shows (h : Drops p ids t t') {b : NodeId} {c : Content} (hb : ¬ t.Within b p)
    (hc : t.Shows b c) : t'.Shows b c :=
  hc.congr fun x hx => ⟨h.own_eq x, by
    rw [h.children_eq, if_neg]
    rintro rfl
    exact hb hx⟩

end Drops

/-- **Between two stages of a run over children some are dropped**: they
are detached, and told of. -/
structure Dedupe.Dropping (id : NodeId) (ids : List NodeId) (d d' : Dedupe) : Prop where
  /-- The tree is well formed. -/
  wellFormed : d'.tree.WellFormed
  /-- No node comes or goes. -/
  size_eq : d'.tree.size = d.tree.size
  /-- The own data stay. -/
  own_eq : ∀ x, d'.tree.own x = d.tree.own x
  /-- The dropped ones are in no list. -/
  children_eq : ∀ x, d'.tree.children x = (d.tree.children x).filter (· ∉ ids)
  /-- They have no parent. -/
  parent_eq : ∀ x, d'.tree.parent x = if x ∈ ids then none else d.tree.parent x
  /-- They are told of. -/
  log_eq : d'.log = d.log ++ ids.map fun c => repeatEntry (d.tree.tag id) (d.tree.slotName c)

namespace Dedupe

variable {d d' d'' : Dedupe} {c : NodeId} {ids ids' : List NodeId} {slot : String}

theorem Dropping.slotName_eq (h : Dropping id ids d d') : d'.tree.slotName = d.tree.slotName := by
  funext x
  rw [slotName_eq_own, slotName_eq_own, h.own_eq]

theorem Dropping.trans (h : Dropping id ids d d') (h' : Dropping id ids' d' d'') :
    Dropping id (ids ++ ids') d d'' where
  wellFormed := h'.wellFormed
  size_eq := h'.size_eq.trans h.size_eq
  own_eq x := (h'.own_eq x).trans (h.own_eq x)
  children_eq x := by
    rw [h'.children_eq, h.children_eq, List.filter_filter]
    refine List.filter_congr fun b _ => ?_
    simp [Bool.and_comm]
  parent_eq x := by
    rw [h'.parent_eq, h.parent_eq]
    by_cases hx : x ∈ ids <;> simp [hx]
  log_eq := by
    rw [h'.log_eq, h.log_eq, h.slotName_eq, tag_eq_own, tag_eq_own, h.own_eq, List.map_append,
      List.append_assoc]

/-- A child for no slot stays. -/
theorem visit_of_none (hs : d.tree.slotName c = none) : visit id d c = d := by
  rw [visit, hs]

/-- The first child for a slot stays. -/
theorem visit_of_notMem (hs : d.tree.slotName c = some slot) (hm : slot ∉ d.seen) :
    visit id d c = { d with seen := slot :: d.seen } := by
  rw [visit, hs]
  exact if_neg fun hc => hm (List.contains_iff_mem.1 hc)

/-- Another child for a slot is dropped. -/
theorem visit_of_mem (hs : d.tree.slotName c = some slot) (hm : slot ∈ d.seen) :
    visit id d c = { d with
      log := d.log ++ [repeatEntry (d.tree.tag id) (d.tree.slotName c)]
      tree := d.tree.detach c } := by
  rw [visit, hs]
  exact if_pos (List.contains_iff_mem.2 hm)

theorem dropping_detach (h : d.tree.WellFormed) (id c : NodeId) :
    Dropping id [c] d { d with
      log := d.log ++ [repeatEntry (d.tree.tag id) (d.tree.slotName c)]
      tree := d.tree.detach c } where
  wellFormed := h.detach c
  size_eq := size_detach ..
  own_eq x := own_detach d.tree c x
  children_eq x := by
    rw [children_detach h]
    exact List.filter_congr fun b _ => by simp
  parent_eq x := by
    rw [parent_detach]
    exact if_congr List.mem_singleton.symm rfl rfl
  log_eq := rfl

/-- **A run over nodes drops those that repeat a slot.** -/
theorem dropping_foldl_visit (id : NodeId) (l : List NodeId) :
    ∀ d : Dedupe, d.tree.WellFormed →
      Dropping id (repeats d.tree.slotName d.seen l) d (l.foldl (visit id) d) := by
  induction l with
  | nil =>
    intro d h
    exact ⟨h, rfl, fun _ => rfl, by simp [repeats], by simp [repeats], by simp [repeats]⟩
  | cons c l ih =>
    intro d h
    rw [List.foldl_cons]
    cases hs : d.tree.slotName c with
    | none =>
      rw [visit_of_none hs, repeats_cons_of_none hs]
      exact ih d h
    | some slot =>
      by_cases hm : slot ∈ d.seen
      · rw [visit_of_mem hs hm, repeats_cons_of_mem hs hm]
        have hdrop := dropping_detach h id c
        have hrest := ih _ hdrop.wellFormed
        rw [hdrop.slotName_eq] at hrest
        exact hdrop.trans hrest
      · rw [visit_of_notMem hs hm, repeats_cons_of_notMem hs hm]
        -- what has been seen is no part of what is dropped
        have hrest := ih { d with seen := slot :: d.seen } h
        exact ⟨hrest.wellFormed, hrest.size_eq, hrest.own_eq, hrest.children_eq, hrest.parent_eq,
          hrest.log_eq⟩

end Dedupe

/-- **Repeated slots are dropped.** -/
theorem drops_dedupeSlots (h : t.WellFormed) (id : NodeId) :
    Drops id (repeats t.slotName [] (t.children id)) t (t.dedupeSlots id).2
      ∧ (t.dedupeSlots id).1
        = (repeats t.slotName [] (t.children id)).map fun c =>
          repeatEntry (t.tag id) (t.slotName c) := by
  have hd := Dedupe.dropping_foldl_visit id (t.children id) ⟨[], [], t⟩ h
  refine ⟨⟨hd.wellFormed, hd.size_eq, hd.own_eq, fun x => ?_, hd.parent_eq⟩,
    hd.log_eq.trans (List.nil_append _)⟩
  by_cases hx : x = id
  · rw [if_pos hx]
    exact hd.children_eq x
  · rw [if_neg hx]
    exact (hd.children_eq x).trans (h.filter_children_of_subset
      (repeats_sublist t.slotName [] (t.children id)).subset hx)

/-! ## Flags -/

/-- Whether a slot is filled can be read off the own data of the
children. -/
theorem isSome_findSlot (t : Tree) (id : NodeId) (slot : String) :
    (t.findSlot id slot).isSome = ((t.children id).map t.own).any (Own.fills slot) := by
  rw [Bool.eq_iff_iff, findSlot, List.find?_isSome, List.any_map, List.any_eq_true]
  refine exists_congr fun c => and_congr_right fun _ => ?_
  rw [slotName_eq_own]
  rfl

/-- A flag is an edit of the component. -/
theorem recast_applyFixup (hid : id < t.size) {filled : String → Bool}
    (hf : ∀ slot, (t.findSlot id slot).isSome = filled slot) (fixup : Fixup) :
    Recast id (fun o => o.applyFixup filled fixup) t (t.applyFixup id fixup) := by
  cases fixup with
  | flagIfAttr attr flag =>
    unfold applyFixup Own.applyFixup
    dsimp only
    rw [hasAttr_eq_own]
    split
    · rename_i ha
      exact (recast_setAttr hid flag "").congr (if_pos ha).symm
    · rename_i ha
      exact Recast.refl (if_neg ha)
  | flagUnless slot attr flag =>
    unfold applyFixup Own.applyFixup
    dsimp only
    rw [hasAttr_eq_own, ← Option.not_isSome, hf]
    split
    · rename_i ha
      exact (recast_setAttr hid flag "").congr (if_pos ha).symm
    · rename_i ha
      exact Recast.refl (if_neg ha)

/-- **Flags are an edit of the component**, which leaves its children. -/
theorem recast_applyFixups (h : t.WellFormed) (hid : id < t.size) (fixups : List Fixup) :
    Recast id
      (Own.applyFixups (fun slot => ((t.children id).map t.own).any (Own.fills slot)) fixups)
      t (t.applyFixups id fixups) := by
  suffices hfold : ∀ (fixups : List Fixup) (t' : Tree), t'.size = t.size →
      t'.children id = t.children id → (∀ c ∈ t.children id, t'.own c = t.own c) →
      Recast id
        (Own.applyFixups (fun slot => ((t.children id).map t.own).any (Own.fills slot)) fixups)
        t' (t'.applyFixups id fixups) from hfold fixups t rfl rfl fun _ _ => rfl
  intro fixups
  induction fixups with
  | nil => exact fun t' _ _ _ => Recast.refl rfl
  | cons fixup fixups ih =>
    intro t' hsize hch hown
    have hstep := recast_applyFixup (hsize ▸ hid) (fun slot => by
      rw [isSome_findSlot, hch, List.map_congr_left hown]) fixup
    refine hstep.trans (ih _ (hstep.size_eq.trans hsize) ((hstep.children_eq id).trans hch) ?_)
    intro c hc
    rw [hstep.own_ne, hown c hc]
    rintro rfl
    exact h.not_within_of_mem hc .refl

end Tree

end PageSlots.Markup
