import PageSlots.Proofs.Component.Slots

/-!
# Components with nothing left to do

An edit that changes the own data of a node into what they are changes
nothing in the tree: the pool is the same, number for number. So it is
enough to say when the edits that normalize markers, arrange slots and set
flags leave the own data they meet, and this is a statement about one node
and the slots that its children fill. `Finished` collects it for the rule
of a component.
-/

namespace PageSlots.Component

/-- The attribute on which a fixup depends. -/
def Fixup.attr : Fixup → String
  | .flagIfAttr attr _ => attr
  | .flagUnless _ attr _ => attr

end PageSlots.Component

namespace PageSlots.Markup

open PageSlots.Component PageSlots.Page PageSlots.Slot

/-! ## Own data -/

namespace Own

variable {o : Own} {name target value : String} {filled : String → Bool} {fixup : Fixup}
variable {fixups : List Fixup}

/-- Setting an attribute to the value that it has. -/
theorem setAttr_eq_self (h : o.attr? name = some value) : o.setAttr name value = o := by
  obtain ⟨pre, a, post, hattrs, rfl, hp⟩ := exists_of_attr?_eq_some h
  have hset : setAttribute name value o.attrs = o.attrs := by
    rw [hattrs]
    exact setAttribute_append (a := ⟨name, value⟩) hp
  unfold setAttr
  rw [hset]

theorem hasAttr_eq_isSome (o : Own) (name : String) : o.hasAttr name = (o.attr? name).isSome := by
  rw [Bool.eq_iff_iff, hasAttr_iff, Option.isSome_iff_ne_none, Ne, attr?_eq_none_iff, not_not]

/-- Setting another attribute leaves it open whether one is there. -/
theorem hasAttr_setAttr_of_ne (h : name ≠ target) (value : String) :
    (o.setAttr name value).hasAttr target = o.hasAttr target := by
  rw [hasAttr_eq_isSome, hasAttr_eq_isSome, attr?_setAttr_of_ne h]

/-- Whether a fixup applies to a component of which it is known which slots
are filled. -/
def applies (filled : String → Bool) (o : Own) : Fixup → Bool
  | .flagIfAttr attr _ => o.hasAttr attr
  | .flagUnless slot attr _ => !filled slot && !o.hasAttr attr

theorem applyFixup_eq (filled : String → Bool) (o : Own) (fixup : Fixup) :
    o.applyFixup filled fixup = if o.applies filled fixup then o.setAttr fixup.flag "" else o := by
  cases fixup <;> rfl

theorem applies_setAttr (h : name ≠ fixup.attr) (value : String) :
    (o.setAttr name value).applies filled fixup = o.applies filled fixup := by
  cases fixup with
  | flagIfAttr attr flag => exact hasAttr_setAttr_of_ne h value
  | flagUnless slot attr flag =>
    exact congrArg (!filled slot && !·) (hasAttr_setAttr_of_ne h value)

/-- **If no flag decides on a flag**, then after fixups each flag is set
whose fixup applies. -/
theorem attr?_flag_applyFixups
    (hne : ∀ f ∈ fixups, ∀ f' ∈ fixups, f.flag ≠ f'.attr) (hf : fixup ∈ fixups)
    (h : (o.applyFixups filled fixups).applies filled fixup = true) :
    (o.applyFixups filled fixups).attr? fixup.flag = some "" := by
  have happlies : ∀ l : List Fixup, (∀ f ∈ l, f ∈ fixups) →
      (o.applyFixups filled l).applies filled fixup = o.applies filled fixup := fun l hl =>
    applyFixups_induct (P := fun o' => o'.applies filled fixup = o.applies filled fixup) filled rfl
      fun o' f hmem ho' => (applies_setAttr (hne f (hl f hmem) fixup hf) "").trans ho'
  have hkeep : ∀ (l : List Fixup) (o : Own), o.attr? fixup.flag = some "" →
      (o.applyFixups filled l).attr? fixup.flag = some "" := fun l o ho =>
    applyFixups_induct (P := fun o' => o'.attr? fixup.flag = some "") filled ho fun o' f _ ho' => by
      by_cases he : f.flag = fixup.flag
      · rw [he]
        exact attr?_setAttr_self _ "" o'
      · rw [attr?_setAttr_of_ne he]
        exact ho'
  rw [happlies fixups fun f hmem => hmem] at h
  obtain ⟨pre, post, rfl⟩ := List.append_of_mem hf
  have hpre := happlies pre fun f hmem => List.mem_append_left _ hmem
  show ((pre ++ fixup :: post).foldl (applyFixup filled) o).attr? fixup.flag = some ""
  rw [List.foldl_append, List.foldl_cons, applyFixup_eq]
  change (o.applyFixups filled pre).applies filled fixup = _ at hpre
  rw [h] at hpre
  refine hkeep post _ ?_
  show (if (o.applyFixups filled pre).applies filled fixup = true then _ else _ : Own).attr? _ = _
  rw [if_pos hpre]
  exact attr?_setAttr_self _ "" _

/-- Flags that are set already. -/
theorem applyFixups_eq_self
    (h : ∀ f ∈ fixups, o.applies filled f = true → o.attr? f.flag = some "") :
    o.applyFixups filled fixups = o := by
  unfold applyFixups
  induction fixups with
  | nil => rfl
  | cons f fixups ih =>
    have hone : o.applyFixup filled f = o := by
      rw [applyFixup_eq]
      split
      · rename_i hf
        exact setAttr_eq_self (h f List.mem_cons_self hf)
      · rfl
    rw [List.foldl_cons, hone]
    exact ih fun f' hf' => h f' (List.mem_cons_of_mem f hf')

/-- A node whose slot has a current name. -/
theorem renameSlot_eq_self {renames : List Rename}
    (h : ∀ slot, o.slotName = some slot → ∀ rename ∈ renames, rename.source ≠ slot) :
    o.renameSlot renames = o := by
  have hnone : o.renamed? renames = none := by
    unfold renamed?
    cases hs : o.slotName with
    | none => rfl
    | some slot =>
      refine List.find?_eq_none.2 fun rename hr => ?_
      exact fun he => h slot hs rename hr (of_decide_eq_true he)
  unfold renameSlot
  rw [hnone]

end Own

/-! ## Trees -/

namespace Tree

variable {t t' : Tree} {id p i : NodeId} {ids : List NodeId} {f : Own → Own}

/-- Pools with the same nodes are the same. -/
theorem ext_of_node (hs : t'.size = t.size) (h : ∀ x, t'.node x = t.node x) : t' = t := by
  obtain ⟨nodes⟩ := t
  obtain ⟨nodes'⟩ := t'
  refine congrArg Tree.mk (Array.ext hs fun x hx hx' => ?_)
  have hnode := h x
  unfold node get? at hnode
  rwa [Array.getElem?_eq_getElem hx, Array.getElem?_eq_getElem hx'] at hnode

/-- **An edit that finds what it makes** leaves the tree. -/
theorem Recast.eq_self (h : Recast id f t t') (hf : f (t.own id) = t.own id) : t' = t := by
  refine ext_of_node h.size_eq fun x => node_ext ?_ (h.children_eq x) (h.parent_eq x)
  rw [h.own_eq]
  split
  · rename_i hx
    rw [hx, hf]
  · rfl

theorem RecastAll.eq_self (h : RecastAll ids f t t') (hf : ∀ i ∈ ids, f (t.own i) = t.own i) :
    t' = t := by
  refine ext_of_node h.size_eq fun x => node_ext ?_ (h.children_eq x) (h.parent_eq x)
  rw [h.own_eq]
  split
  · rename_i hx
    exact hf x hx
  · rfl

theorem Drops.eq_self (h : Drops p [] t t') : t' = t := by
  refine ext_of_node h.size_eq fun x => node_ext (h.own_eq x) ?_ ?_
  · rw [h.children_eq]
    split
    · exact List.filter_eq_self.2 fun c _ => by simp
    · rfl
  · rw [h.parent_eq, if_neg List.not_mem_nil]

/-- The slots that the children of a node fill. -/
def slotsBelow (t : Tree) (id : NodeId) : List String :=
  (t.children id).filterMap t.slotName

theorem contains_slotsBelow (t : Tree) (id : NodeId) (slot : String) :
    (t.slotsBelow id).contains slot = (t.findSlot id slot).isSome := by
  rw [Bool.eq_iff_iff, List.contains_iff_mem, slotsBelow, List.mem_filterMap, findSlot,
    List.find?_isSome]
  exact exists_congr fun c => and_congr_right fun _ => decide_eq_true_iff.symm

/-- A child whose marker is in its place is left as it is. -/
theorem normalizeChild_eq_self (hi : i < t.size)
    (hl : (t.own i).kind = .element → legacyName ∉ (t.own i).names)
    (hm : (t.own i).kind = .element → (t.own i).tag ≠ wrapperTag → (t.own i).marker? = none) :
    Processor.normalizeChild t i = t := by
  unfold Processor.normalizeChild
  rw [(recast_migrateMarker hi).eq_self (Own.migrate_eq_self hl)]
  unfold wrapMarked
  split
  · rename_i hc
    rw [Bool.and_eq_true, isElement_iff] at hc
    rw [marker?_eq_own, hm hc.1 (by simpa [tag_eq_own] using hc.2)]
  · rfl

/-- Old slot names that are not there. -/
theorem renameSlots_eq_self (h : t.WellFormed) {renames : List Rename}
    (hr : ∀ rename ∈ renames, rename.source ∉ t.slotsBelow id) :
    (t.renameSlots id renames).2 = t := by
  refine (recastAll_renameSlots h id renames).1.eq_self fun c hc => ?_
  refine Own.renameSlot_eq_self fun slot hs rename hren he => hr rename hren ?_
  exact List.mem_filterMap.2 ⟨c, hc, (slotName_eq_own t c).trans (he ▸ hs)⟩

/-- Slots that are not repeated. -/
theorem dedupeSlots_eq_self (h : t.WellFormed) (hs : (t.slotsBelow id).Nodup) :
    (t.dedupeSlots id).2 = t := by
  have hrepeats : ∀ (seen : List String) (l : List NodeId), (l.filterMap t.slotName).Nodup →
      (∀ slot ∈ l.filterMap t.slotName, slot ∉ seen) → repeats t.slotName seen l = [] := by
    intro seen l
    induction l generalizing seen with
    | nil => exact fun _ _ => rfl
    | cons c l ih =>
      intro hn hseen
      cases hc : t.slotName c with
      | none =>
        rw [List.filterMap_cons_none hc] at hn hseen
        rw [repeats_cons_of_none hc]
        exact ih seen hn hseen
      | some slot =>
        rw [List.filterMap_cons_some hc] at hn hseen
        obtain ⟨hnew, hn⟩ := List.nodup_cons.1 hn
        rw [repeats_cons_of_notMem hc (hseen slot List.mem_cons_self)]
        refine ih _ hn fun slot' hm => ?_
        rw [List.mem_cons, not_or]
        exact ⟨fun he => hnew (he ▸ hm), hseen slot' (List.mem_cons_of_mem _ hm)⟩
  have hd := (drops_dedupeSlots h id).1
  rw [hrepeats [] _ hs fun _ _ => List.not_mem_nil] at hd
  exact hd.eq_self

/-- Flags that are set already. -/
theorem applyFixups_eq_self (h : t.WellFormed) (hid : id < t.size) {fixups : List Fixup}
    (hf : ∀ f ∈ fixups, (t.own id).applies (t.slotsBelow id).contains f = true →
      (t.own id).attr? f.flag = some "") : t.applyFixups id fixups = t := by
  have hr := recast_applyFixups h hid fixups
  have hfilled : (fun slot => ((t.children id).map t.own).any (Own.fills slot))
      = (t.slotsBelow id).contains := funext fun slot => by
    rw [contains_slotsBelow, isSome_findSlot]
  rw [hfilled] at hr
  exact hr.eq_self (Own.applyFixups_eq_self hf)

end Tree

end PageSlots.Markup
