import PageSlots.Proofs.Content.Parsed
import PageSlots.Proofs.Page.NormalForm

/-!
# What pages are made of

A page that has been resolved is written and read again by whoever uses
it. Most of what stands in it has been read, from the page itself or from
what was rendered for it, and is made of the pieces that reading gives. The
pass adds ids, anchors, flags and templates, whose names are fixed and
would be read as they are written.

There is one exception. The marker of a template may have been made of the
value of an older marker, and a value can hold anything. So a name in a
resolved page is as it would be read, or it is the first marker of its
element, and then it names the slot of the element (`Own.HasMadeNames`).

`Content.IsMade` says this of a content and everything below it. It is
weaker than `Content.IsRead` in one more way: texts may meet, where the
pass has dropped what stood between them.
-/

namespace PageSlots.Markup

open PageSlots.Component PageSlots.Slot

/-! ## Own data -/

/-- **A tag that would be read** begins with a small letter. -/
def IsReadTag (tag : String) : Prop :=
  ∃ c cs, tag.toList = c :: cs ∧ c.isLower = true ∧ ∀ d ∈ cs, IsReadChar d

instance : DecidablePred IsReadTag := fun tag =>
  match h : tag.toList with
  | [] => isFalse fun ⟨_, _, he, _⟩ => nomatch h.symm.trans he
  | c :: cs =>
    decidable_of_iff (c.isLower = true ∧ (cs.all fun d => decide (IsReadChar d)) = true)
      ⟨fun hc => ⟨c, cs, h, hc.1, List.all_iff_forall_prop.1 hc.2⟩, fun ⟨d, ds, he, hd, hds⟩ => by
        cases h.symm.trans he
        exact ⟨hd, List.all_iff_forall_prop.2 hds⟩⟩

/-- A `template` may have children. -/
theorem isVoidTag_wrapperTag : isVoidTag wrapperTag = false := by
  decide

namespace Own

variable {o : Own} {name : String}

/-- **A name is as it would be read**, unless it is the first marker. -/
def HasMadeNames (o : Own) : Prop :=
  ∀ name ∈ o.names, o.marker? = some name ∨ IsReadName name

/-- **An element that has been made**: it has a tag that would be read, and
so would be its names, its first marker excepted. -/
structure IsMadeElement (o : Own) : Prop where
  /-- It is an element and holds no character data. -/
  eq : o = { kind := .element, tag := o.tag, attrs := o.attrs }
  /-- The tag begins with a small letter. -/
  tag : IsReadTag o.tag
  /-- No attribute is there twice. -/
  nodup : o.names.Nodup
  /-- The names are as they would be read, but for the first marker. -/
  names : o.HasMadeNames

/-- What is no element fills no slot, so none is renamed. -/
theorem renameSlot_of_ne (renames : List Rename) (hk : o.kind ≠ .element) :
    o.renameSlot renames = o := by
  rw [renameSlot, renamed?, slotName, if_neg hk]
  rfl

namespace IsMadeElement

theorem kind_eq (h : o.IsMadeElement) : o.kind = .element := by
  rw [h.eq]

/-- An edit that changes nothing but the attributes. -/
theorem of_eq (h : o.IsMadeElement) {o' : Own} (he : o' = { o with attrs := o'.attrs })
    (hn : o'.names.Nodup) (hm : o'.HasMadeNames) : o'.IsMadeElement where
  eq := by
    rw [he, h.eq]
  tag := by
    rw [he]
    exact h.tag
  nodup := hn
  names := hm

/-- An attribute is set that is no marker. -/
theorem setAttr (h : o.IsMadeElement) (hr : IsReadName name) (hm : isMarker name = false)
    (value : String) : (o.setAttr name value).IsMadeElement := by
  refine h.of_eq rfl (nodup_names_setAttr name value h.nodup) fun x hx => ?_
  rcases mem_names_setAttr hx with hx | rfl
  · rcases h.names x hx with he | hx
    · exact .inl ((marker?_setAttr hm value).trans he)
    · exact .inr hx
  · exact .inr hr

/-- An attribute is taken off that is no marker. -/
theorem removeAttr (h : o.IsMadeElement) (hm : isMarker name = false) :
    (o.removeAttr name).IsMadeElement := by
  refine h.of_eq rfl (nodup_names_removeAttr name h.nodup) fun x hx => ?_
  rcases h.names x (List.mem_of_mem_erase (names_removeAttr o name ▸ hx)) with he | hx
  · exact .inl ((marker?_removeAttr hm).trans he)
  · exact .inr hx

/-- **The first marker is taken off**: all that is left would be read as it
is. -/
theorem removeMarker (h : o.IsMadeElement) (hm : o.marker? = some name) :
    (o.removeAttr name).IsMadeElement := by
  refine h.of_eq rfl (nodup_names_removeAttr name h.nodup) fun x hx => ?_
  rcases h.names x (List.mem_of_mem_erase (names_removeAttr o name ▸ hx)) with he | hread
  · rw [Option.some.inj (hm.symm.trans he)] at hx
    exact absurd hx (notMem_names_removeAttr x h.nodup)
  · exact .inr hread

/-- **The marker is renamed.** -/
theorem setSlotName (h : o.IsMadeElement) {target : String} (ht : target ≠ "") :
    (o.setSlotName target).IsMadeElement := by
  have hnodup := nodup_names_setSlotName target h.nodup
  unfold Own.setSlotName at hnodup ⊢
  cases hm : o.marker? with
  | some name =>
    rw [hm] at hnodup
    dsimp only at hnodup ⊢
    have hfirst := marker?_renameAttr hm (isMarker_marker ht)
    refine h.of_eq (renameAttr_eq ..) hnodup fun x hx => ?_
    rcases mem_names_renameAttr h.nodup hx with rfl | ⟨hx, hne⟩
    · exact .inl hfirst
    · rcases h.names x hx with he | hread
      · exact absurd (Option.some.inj (he.symm.trans hm)) hne
      · exact .inr hread
  | none =>
    dsimp only
    split
    · exact h.setAttr (by decide) isMarker_legacyName target
    · exact h

/-- An old slot name is replaced. -/
theorem renameSlot (h : o.IsMadeElement) {renames : List Rename}
    (hr : ∀ rename ∈ renames, rename.target ≠ "") : (o.renameSlot renames).IsMadeElement := by
  unfold Own.renameSlot
  cases hf : o.renamed? renames with
  | none => exact h
  | some rename =>
    obtain ⟨_, -, hfind⟩ := Option.bind_eq_some_iff.1 hf
    exact h.setSlotName (hr rename (List.mem_of_find?_eq_some hfind))

/-- **The older marker becomes the first marker**, or goes. -/
theorem migrate (h : o.IsMadeElement) : o.migrate.IsMadeElement := by
  rcases migrate_cases h.kind_eq with ⟨-, he⟩ | ⟨slot, -, -, he⟩
    | ⟨slot, pre, post, -, hne, hnone, hattrs, hmig, hkind, htag⟩
  · rw [he]
    exact h
  · rw [he]
    exact h.removeAttr isMarker_legacyName
  · have hother := findMarker_eq_none_iff.1 hnone
    rw [hattrs] at hother
    have hfirst : o.migrate.marker? = some (marker slot) :=
      findMarker_eq_some_iff.2 ⟨pre, _, post, hmig, rfl, isMarker_marker hne,
        fun b hb => hother b (List.mem_append_left _ hb)⟩
    refine h.of_eq (migrate_eq o) (nodup_names_migrate h.nodup) fun x hx => ?_
    have hkept : x ∈ attributeNames (pre ++ post) → o.migrate.marker? = some x ∨ IsReadName x := by
      intro hx
      have hold : x ∈ o.names := by
        rw [Own.names, hattrs]
        exact (attributeNames_sublist ((List.sublist_cons_self _ post).append_left pre)).subset hx
      rcases h.names x hold with he | hread
      · rw [hnone] at he
        cases he
      · exact .inr hread
    rw [Own.names, hmig, attributeNames_append, attributeNames_cons, List.mem_append,
      List.mem_cons] at hx
    rw [attributeNames_append, List.mem_append] at hkept
    rcases hx with hx | rfl | hx
    · exact hkept (.inl hx)
    · exact .inl hfirst
    · exact hkept (.inr hx)

/-- Flags are set. -/
theorem applyFixups (h : o.IsMadeElement) {fixups : List Fixup} (filled : String → Bool)
    (hf : ∀ fixup ∈ fixups, IsReadName fixup.flag ∧ isMarker fixup.flag = false) :
    (o.applyFixups filled fixups).IsMadeElement :=
  applyFixups_induct (P := IsMadeElement) filled h
    fun _ fixup hm h => h.setAttr (hf fixup hm).1 (hf fixup hm).2 ""

/-- The wrapper of a marked child. -/
theorem wrapper (hm : isMarker name = true) : (Own.wrapper name).IsMadeElement where
  eq := rfl
  tag := show IsReadTag wrapperTag by decide
  nodup := nodup_names_wrapper name
  names x hx := by
    rw [show x = name from List.mem_singleton.1 hx]
    exact .inl (marker?_wrapper hm)

end IsMadeElement

end Own

/-! ## Contents -/

namespace Content

/-- **What has been made** by reading and by resolving. -/
inductive IsMade : Content → Prop where
  /-- A text that is not empty. -/
  | text {text : String} : text ≠ "" → IsMade (.node { kind := .text, text } [])
  /-- A comment that does not hold its end. -/
  | comment {text : String} : ¬ ['-', '-', '>'] <:+: text.toList →
      IsMade (.node { kind := .comment, text } [])
  /-- An element, void and without children or with children that have
  been made. -/
  | element {o : Own} {cs : List Content} : o.IsMadeElement →
      (isVoidTag o.tag = true → cs = []) → (∀ c ∈ cs, IsMade c) → IsMade (.node o cs)

variable {c c' : Content} {cs : List Content}

/-- What has been read has been made. -/
theorem IsRead.isMade (h : c.IsRead) : c.IsMade := by
  induction c with
  | node o cs ih =>
    cases h with
    | text hne => exact .text hne
    | comment hend => exact .comment hend
    | element hs hv _ hcs =>
      exact .element ⟨rfl, hs.tag, hs.nodup, fun x hx => .inr (hs.name x hx)⟩ hv
        fun d hd => ih d hd (hcs d hd)

/-- **An element that may have children**, and the children have been
made. -/
structure IsMadeParent (c : Content) : Prop where
  /-- The element itself. -/
  own : c.own.IsMadeElement
  /-- It is not void. -/
  not_void : isVoidTag c.own.tag = false
  /-- The children. -/
  children : ∀ d ∈ c.children, d.IsMade

theorem IsMadeParent.isMade (h : c.IsMadeParent) : c.IsMade := by
  obtain ⟨o, cs⟩ := c
  exact .element h.own (fun hv => absurd (hv.symm.trans h.not_void) nofun) h.children

namespace IsMade

theorem isMadeElement (h : c.IsMade) (hk : c.own.kind = .element) : c.own.IsMadeElement := by
  cases h with
  | text _ => cases hk
  | comment _ => cases hk
  | element ho _ _ => exact ho

theorem children (h : c.IsMade) : ∀ d ∈ c.children, d.IsMade := by
  cases h with
  | text _ => exact nofun
  | comment _ => exact nofun
  | element _ _ hcs => exact hcs

theorem parent (h : c.IsMade) (hk : c.own.kind = .element) (hv : isVoidTag c.own.tag = false) :
    c.IsMadeParent :=
  ⟨h.isMadeElement hk, hv, h.children⟩

/-- An element with other attributes over the same children. -/
theorem mapOwn (h : c.IsMade) {f : Own → Own} (hf : ∀ o : Own, o.IsMadeElement →
    (f o).IsMadeElement ∧ (f o).tag = o.tag) (hother : ∀ o : Own, o.kind ≠ .element → f o = o) :
    (c.mapOwn f).IsMade := by
  cases h with
  | text hne =>
    rw [Content.mapOwn, own_node, hother _ (fun hk => by cases hk)]
    exact .text hne
  | comment hend =>
    rw [Content.mapOwn, own_node, hother _ (fun hk => by cases hk)]
    exact .comment hend
  | element ho hv hcs =>
    obtain ⟨hmade, htag⟩ := hf _ ho
    exact .element hmade (fun hv' => hv (htag ▸ hv')) hcs

/-- **Normalizing a child.** -/
theorem normalize (h : c.IsMade) : c.normalize.IsMade := by
  have hmig : (c.mapOwn Own.migrate).IsMade :=
    h.mapOwn (fun o ho => ⟨ho.migrate, by rw [Own.migrate_eq]⟩) fun o hk => if_neg hk
  unfold Content.normalize
  rcases wrapMarked_cases (c.mapOwn Own.migrate) with ⟨he, -⟩ | ⟨name, hk, hm, hname, he⟩
  · rw [he]
    exact hmig
  · rw [he]
    refine .element (.wrapper hname) (fun hv => absurd (hv.symm.trans isVoidTag_wrapperTag) nofun)
      (List.forall_mem_singleton.2 ?_)
    generalize c.mapOwn Own.migrate = d at hmig hk hm
    cases hmig with
    | text _ => cases hk
    | comment _ => cases hk
    | element ho hv hcs => exact .element (ho.removeMarker hm) hv hcs

/-- **The children of a node give way to others**, of which there are as
many. -/
theorem of_children (h : c.IsMade) (hown : c'.own = c.own)
    (hnil : c.children = [] → c'.children = []) (hcs : ∀ d ∈ c'.children, d.IsMade) :
    c'.IsMade := by
  obtain ⟨o, cs⟩ := c'
  dsimp only [own_node, children_node] at hown hnil hcs
  subst hown
  cases h with
  | text hne =>
    rw [hnil rfl]
    exact .text hne
  | comment hend =>
    rw [hnil rfl]
    exact .comment hend
  | element ho hv _ => exact .element ho (fun hv' => hnil (hv hv')) hcs

end IsMade

end Content

end PageSlots.Markup

/-! ## The steps of a visit -/

namespace PageSlots.Page

open PageSlots.Component PageSlots.Markup PageSlots.Markup.Content PageSlots.Markup.Tree
open PageSlots.Slot

/-- **A rule makes what would be read**: its components can have children,
its slots have names, and its flags would be read. -/
structure Makes (rule : Rule) : Prop where
  /-- No component is a void element. -/
  not_void : ∀ tag ∈ rule.tags, isVoidTag tag = false
  /-- Promotions name a slot. -/
  slot_ne : ∀ promotion ∈ rule.promotions, promotion.slot ≠ ""
  /-- No marker is promoted. -/
  attr_ne : ∀ promotion ∈ rule.promotions, isMarker promotion.attr = false
  /-- Renamings name a slot. -/
  target_ne : ∀ rename ∈ rule.renames, rename.target ≠ ""
  /-- Flags are read as they are, and are no markers. -/
  flag : ∀ fixup ∈ rule.fixups, IsReadName fixup.flag ∧ isMarker fixup.flag = false

/-- The rules of the known components make what would be read. -/
theorem makes_of_mem_builtIn {rule : Rule} (h : rule ∈ builtIn) : Makes rule where
  not_void := by revert rule; decide
  slot_ne := by revert rule; decide
  attr_ne := by revert rule; decide
  target_ne := by revert rule; decide
  flag fixup hf := by
    revert fixup rule
    decide

section Steps

variable {c : Content} {renderer : Renderer} {rule : Rule} {promotion : Promotion}

/-- Reading markup. -/
theorem ensures_read_isMade (markup : String) :
    Ensures (Value.read markup) fun cs => ∀ c ∈ cs, c.IsMade := by
  intro notes notes' cs h
  unfold Value.read at h
  dsimp only at h
  cases hp : (Content.parse markup).1 with
  | ok ds =>
    rw [hp] at h
    cases h
    exact fun c hc => ((isReadRow_of_parse hp).isRead c hc).isMade
  | error fault =>
    rw [hp] at h
    cases h

/-- A rendered region can have children. -/
theorem isMadeElement_of_regionOf {o : Own} (h : o.IsMadeElement) {tag : String} {mode : RenderMode}
    (hr : regionOf o.tag = some (mode, tag)) :
    ({ o with tag } : Own).IsMadeElement ∧ isVoidTag tag = false := by
  have htag : IsReadTag tag ∧ isVoidTag tag = false := by
    unfold regionOf at hr
    split at hr
    · cases hr
      decide
    · cases hr
      decide
    · cases hr
  exact ⟨⟨by rw [h.eq], htag.1, h.nodup, h.names⟩, htag.2⟩

/-- Rendering a region. -/
theorem ensures_renderRegion_isMade (p : Processor) (h : c.IsMade) (hk : c.own.kind = .element) :
    Ensures (Value.renderRegion p c) fun c' => c'.IsMade ∧ c'.own.kind = .element := by
  unfold Value.renderRegion
  cases hr : regionOf c.own.tag with
  | none => exact .pure ⟨h, hk⟩
  | some region =>
    obtain ⟨mode, tag⟩ := region
    obtain ⟨hown, hvoid⟩ := isMadeElement_of_regionOf (h.isMadeElement hk) hr
    refine (Ensures.any _).bind fun markup _ => (ensures_read_isMade markup).bind fun cs hcs => ?_
    exact .pure ⟨IsMadeParent.isMade (c := .node { c.own with tag } cs) ⟨hown, hvoid, hcs⟩, hk⟩

/-- Giving a heading an id. -/
theorem ensures_headingId_isMade (h : c.IsMadeParent) :
    Ensures (Value.headingId c) fun b => b.2.IsMadeParent ∧ b.2.own.tag = c.own.tag := by
  unfold Value.headingId
  refine (Ensures.any _).bind fun notes _ => ?_
  cases c.own.attr? "id" with
  | some written =>
    refine (Ensures.any _).bind fun _ _ => ?_
    dsimp only
    split
    · exact .pure ⟨h, rfl⟩
    · exact (Ensures.any _).bind fun _ _ => .pure ⟨h, rfl⟩
  | none =>
    refine (Ensures.any _).bind fun _ _ => ?_
    split
    · exact .pure ⟨h, rfl⟩
    · exact .pure ⟨⟨h.own.setAttr (by decide) (by decide) _, h.not_void, h.children⟩, rfl⟩

/-- An anchor has been made. -/
theorem isMade_anchor (anchorClass headingId : String) :
    (Content.node (Value.anchor anchorClass headingId) []).IsMade := by
  have hspan : Own.IsMadeElement { kind := .element, tag := "span" } :=
    ⟨rfl, by decide, List.nodup_nil, nofun⟩
  exact .element ((hspan.setAttr (by decide) (by decide) headingId).setAttr (by decide) (by decide)
    anchorClass) (fun _ => rfl) nofun

/-- Giving a heading its id and its anchor. -/
theorem ensures_anchorHeading_isMade (anchorClass : String) (h : c.IsMadeParent) :
    Ensures (Value.anchorHeading anchorClass c) fun c' =>
      c'.IsMadeParent ∧ c'.own.tag = c.own.tag := by
  unfold Value.anchorHeading
  refine (ensures_headingId_isMade h).bind ?_
  rintro ⟨made, c'⟩ ⟨hc', ht⟩
  cases made with
  | none => exact .pure ⟨hc', ht⟩
  | some made =>
    dsimp only
    split
    · exact .pure ⟨hc', ht⟩
    · exact .pure ⟨⟨hc'.own, hc'.not_void,
        List.forall_mem_cons.2 ⟨isMade_anchor anchorClass made, hc'.children⟩⟩, ht⟩

/-- **A promotion** makes a template. -/
theorem ensures_promote_isMade (index : Nat) (h : c.IsMadeParent) (hs : promotion.slot ≠ "")
    (ha : isMarker promotion.attr = false) :
    Ensures (Value.promote renderer index promotion c) fun b => b.2.IsMadeParent := by
  have h' : (c.mapOwn (Own.removeAttr promotion.attr)).IsMadeParent :=
    ⟨h.own.removeAttr ha, h.not_void, h.children⟩
  unfold Value.promote
  dsimp only
  split
  · split
    · exact (Ensures.any _).bind fun _ _ => .pure h'
    · exact .pure h'
  · split
    · exact .pure h'
    · refine (Ensures.any _).bind fun markup _ => (ensures_read_isMade markup).bind fun cs hcs => ?_
      refine (Ensures.any _).bind fun _ _ => .pure ⟨h'.own, h'.not_void, fun d hm => ?_⟩
      rcases (List.mem_insertIdx (Nat.min_le_right _ _)).1 hm with rfl | hm
      · exact .element (.wrapper (isMarker_marker hs))
          (fun hv => absurd (hv.symm.trans isVoidTag_wrapperTag) nofun) hcs
      · exact h.children d hm

theorem ensures_promoteAll_isMade {promotions : List Promotion}
    (hs : ∀ promotion ∈ promotions, promotion.slot ≠ "" ∧ isMarker promotion.attr = false) :
    ∀ {c : Content} (index : Nat), c.IsMadeParent →
      Ensures (Value.promoteAll renderer index promotions c) IsMadeParent := by
  induction promotions with
  | nil => exact fun _ h => .pure h
  | cons promotion promotions ih =>
    intro c index h
    obtain ⟨hslot, hattr⟩ := hs promotion List.mem_cons_self
    refine (ensures_promote_isMade index h hslot hattr).bind ?_
    rintro ⟨added, c₁⟩ h₁
    exact ih (fun q hq => hs q (List.mem_cons_of_mem _ hq)) _ h₁

/-- **A component after its rule** has been made. -/
theorem ensures_applyRule_isMade (hr : Makes rule) (h : c.IsMadeParent) :
    Ensures (Value.applyRule renderer rule c) IsMadeParent := by
  unfold Value.applyRule
  have h₁ : (Content.node c.own (Value.explicit rule.renames c.children)).IsMadeParent := by
    refine ⟨h.own, h.not_void, fun d hm => ?_⟩
    obtain ⟨e, he, rfl⟩ := List.mem_map.1 ((keepFirst_sublist _ [] _).subset hm)
    exact (h.children e he).mapOwn
      (fun o ho => ⟨ho.renameSlot hr.target_ne, by rw [Own.renameSlot_eq]⟩)
      fun o hk => Own.renameSlot_of_ne _ hk
  refine (Ensures.any _).bind fun _ _ => (Ensures.any _).bind fun _ _ => ?_
  refine (ensures_promoteAll_isMade (fun q hq => ⟨hr.slot_ne q hq, hr.attr_ne q hq⟩) 0 h₁).bind ?_
  intro c₂ h₂
  refine .pure ⟨h₂.own.applyFixups _ hr.flag, ?_, h₂.children⟩
  have htag : (c₂.own.applyFixups (Value.filled c₂) rule.fixups).tag = c₂.own.tag :=
    Own.applyFixups_induct (P := fun o => o.tag = c₂.own.tag) _ rfl fun _ _ _ ht => ht
  exact htag ▸ h₂.not_void

/-! ## The first pass -/

variable {p : Processor} (hr : ∀ rule ∈ p.rules, Makes rule)

/-- A heading may have children. -/
theorem isVoidTag_of_isHeading {o : Own} (h : o.isHeading = true) : isVoidTag o.tag = false := by
  have hnot : ∀ tag ∈ headingTags, isVoidTag tag = false := by decide
  exact hnot _ (Own.tag_mem_of_isHeading h)

include hr

/-- **An element that has been visited** has been made. -/
theorem ensures_visit_isMade (h : c.IsMade) :
    Ensures (Value.visit p c) fun c' => c'.IsMade := by
  have hrules : ∀ c₂ : Content, c₂.IsMade → c₂.own.kind = .element →
      Ensures (Value.applyRules p c₂) fun c' => c'.IsMade := by
    intro c₂ h₂ hk₂
    unfold Value.applyRules
    cases hf : p.rules.find c₂.own.tag with
    | none => exact .pure h₂
    | some rule =>
      have hmakes := hr rule (List.mem_of_find?_eq_some hf)
      have htag : c₂.own.tag ∈ rule.tags := by simpa using List.find?_some hf
      exact (ensures_applyRule_isMade hmakes (h₂.parent hk₂ (hmakes.not_void _ htag))).mono
        fun _ => IsMadeParent.isMade
  unfold Value.visit
  split
  · rename_i he
    unfold Value.visitElement
    refine (ensures_renderRegion_isMade p h (Own.isElement_iff.1 he)).bind ?_
    rintro c₁ ⟨h₁, hk₁⟩
    split
    · rename_i hh
      refine (ensures_anchorHeading_isMade p.anchorClass
        (h₁.parent hk₁ (isVoidTag_of_isHeading hh))).bind ?_
      rintro c₂ ⟨h₂, -⟩
      exact hrules c₂ h₂.isMade h₂.own.kind_eq
    · rw [pure_bind]
      exact hrules c₁ h₁ hk₁
  · exact .pure h

/-- **The first pass** over what has been made. -/
theorem ensures_resolveTo_isMade (depth : Nat) :
    ∀ {c : Content}, c.IsMade → Ensures (Value.resolveTo p depth c) fun c' => c'.IsMade := by
  induction depth with
  | zero =>
    intro c _ notes notes' c' h
    cases h
  | succ depth ih =>
    intro c h
    unfold Value.resolveTo
    refine (ensures_visit_isMade hr h).bind fun c₁ h₁ => ?_
    refine (ensures_descend (S := fun _ d' => d'.IsMade) fun d hm => ?_).mono ?_
    · obtain ⟨e, he, rfl⟩ := List.mem_map.1 hm
      exact ih (h₁.children e he).normalize
    · rintro c₂ ⟨hown, hcs⟩
      refine h₁.of_children hown (fun hnil => ?_) fun d hd => ?_
      · rw [children_node, hnil] at hcs
        exact List.forall₂_nil_left_iff.1 hcs
      · obtain ⟨_, -, hs⟩ := exists_mem_of_forall₂ hcs hd
        exact hs

/-- The first pass over a document. -/
theorem ensures_resolveTo_document (depth : Nat) {o : Own} {cs : List Content}
    (ho : o.kind = .document) (h : ∀ d ∈ cs, d.IsMade) :
    Ensures (Value.resolveTo p depth (.node o cs)) fun c' =>
      c'.own = o ∧ ∀ d ∈ c'.children, d.IsMade := by
  cases depth with
  | zero =>
    intro notes notes' c' h
    cases h
  | succ depth =>
    unfold Value.resolveTo
    have hvisit : Value.visit p (.node o cs) = pure (.node o cs) :=
      if_neg fun he => by
        rw [Own.isElement_iff, own_node, ho] at he
        cases he
    rw [hvisit, pure_bind]
    refine (ensures_descend (S := fun _ d' => d'.IsMade) fun d hm => ?_).mono ?_
    · obtain ⟨e, he, rfl⟩ := List.mem_map.1 hm
      exact ensures_resolveTo_isMade hr depth (h e he).normalize
    · rintro c₂ ⟨hown, hcs⟩
      refine ⟨hown, fun d hd => ?_⟩
      obtain ⟨_, -, hs⟩ := exists_mem_of_forall₂ hcs hd
      exact hs

end Steps

/-! ## Pages -/

/-- A node that gains an id, over as many children, has been made. -/
theorem Labelled.isMade {o o' : Own} {cs cs' : List Content} (h : Labelled o o')
    (hm : (Content.node o cs).IsMade) (hnil : cs = [] → cs' = []) (hcs : ∀ d ∈ cs', d.IsMade) :
    (Content.node o' cs').IsMade := by
  cases h with
  | same => exact hm.of_children rfl hnil hcs
  | gained value hk _ =>
    cases hm with
    | text _ => cases hk
    | comment _ => cases hk
    | element ho hv _ =>
      exact .element (ho.setAttr (by decide) (by decide) value) (fun hv' => hnil (hv hv')) hcs

/-- **The second pass keeps what has been made.** -/
theorem Labels.isMade {t t' : Tree} (h : Labels t t') {c c' : Content} {x : NodeId}
    (hc : t.Shows x c) (hc' : t'.Shows x c') (hm : c.IsMade) : c'.IsMade := by
  induction c generalizing x c' with
  | node o cs ih =>
    obtain ⟨rfl, hcs⟩ := shows_node.1 hc
    obtain ⟨o', cs'⟩ := c'
    obtain ⟨rfl, hcs'⟩ := shows_node.1 hc'
    rw [h.children_eq] at hcs'
    refine (h.own x).isMade hm (fun hnil => ?_) fun d' hd' => ?_
    · rw [hnil] at hcs
      rw [List.forall₂_nil_right_iff.1 hcs] at hcs'
      exact List.forall₂_nil_left_iff.1 hcs'
    · obtain ⟨i, hi, hs'⟩ := exists_mem_of_forall₂ hcs' hd'
      obtain ⟨d, hd, hs⟩ := exists_mem_of_forall₂ hcs.flip hi
      exact ih d hd hs hs' (hm.children d hd)

/-- **The first pass over a document** of which everything below has been
made. -/
theorem isMade_of_resolveTo {p : Processor} (hr : ∀ rule ∈ p.rules, Makes rule) {depth : Nat}
    {run run' : Run} {id : NodeId} {o : Own} {cs : List Content} (h : run.tree.WellFormed)
    (hid : id < run.tree.size) (hs : run.tree.Shows id (.node o cs)) (ho : o.kind = .document)
    (hcs : ∀ d ∈ cs, d.IsMade) (hok : p.resolveTo depth id run = .ok () run') :
    ∃ cs', run'.tree.Shows id (.node o cs') ∧ ∀ d ∈ cs', d.IsMade := by
  have hagree := agree_resolveTo p depth h hid hs
  rw [hok] at hagree
  obtain ⟨⟨o', cs'⟩, hv, hs'⟩ := hagree.exists_value_of_ok
  obtain ⟨hown, hmade⟩ := ensures_resolveTo_document hr depth ho hcs _ _ _ hv
  rw [own_node] at hown
  exact ⟨cs', hown ▸ hs', hmade⟩

/-- **What a page is made of**: whatever the markup and the renderer, if
the first pass over the document returns, everything below the document
has been made, and still after the second pass. -/
theorem isMade_of_resolve {p : Processor} (hp : p.rules = builtIn) {markup file : String}
    {ids : List NodeId} {calls : List RenderCall} {log : Log} {run : Run}
    (hread : (readFragment markup).nodes = .ok ids)
    (hok : p.resolve 0 { tree := (readFragment markup).tree, context := { file }, calls, log }
      = .ok () run) {c : Content} (hc : (p.deriveIds run.tree 0).2.Shows 0 c) :
    c.own.kind = .document ∧ ∀ d ∈ c.children, d.IsMade := by
  obtain ⟨hwf, hsize, cs, hs⟩ := readFragment_of_ok hread
  have hread' : ∀ d ∈ cs, d.IsMade := fun d hd =>
    ((isReadRow_of_parse (ReadsAs.parse_eq ⟨⟨ids, hread⟩, hs⟩)).isRead d hd).isMade
  obtain ⟨cs', hs', hmade⟩ := isMade_of_resolveTo (fun rule hr => makes_of_mem_builtIn (hp ▸ hr))
    hwf hsize hs rfl hread' hok
  obtain ⟨hown, hcs'⟩ := shows_node.1 hs'
  -- the second pass leaves the children of the document and gives ids below
  have hl := p.labels_deriveIds run.tree 0
  refine ⟨?_, fun d hd => ?_⟩
  · rw [← hc.own_eq, (hl.own 0).markedAs.kind_eq, hown]
  · have hcs := hc.children
    rw [hl.children_eq] at hcs
    obtain ⟨i, hi, hsd⟩ := exists_mem_of_forall₂ hcs hd
    obtain ⟨e, he, hse⟩ := exists_mem_of_forall₂ hcs'.flip hi
    exact hl.isMade hse hsd (hmade e he)

end PageSlots.Page
