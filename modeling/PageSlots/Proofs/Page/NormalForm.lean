import PageSlots.Proofs.Page.Labels
import PageSlots.Proofs.Page.Simulation

/-!
# Pages in normal form

What the page template is given is in normal form: slots are marked with
the shorthand only and on `template` elements only, no markdown region is
left, and of a component neither an attribute that it promotes nor a child
with an old slot name, nor two children for one slot.

Nodes are made all along the first pass: wrappers, templates, anchors and
whatever is rendered. That each of them ends in normal form rests on two
invariants. The names of a node's attributes are distinct wherever a node
comes from (`Content.Distinct`), so taking off one attribute takes off its
name. And a node is visited only when its parent has given its marker its
place (`Own.Placed`). A visit keeps the slot that a node fills, so what a
component has arranged among its children stays when these are visited.
-/

namespace PageSlots.Page

open PageSlots.Component PageSlots.Markup PageSlots.Markup.Content PageSlots.Markup.Tree
open PageSlots.Slot

/-! ## What steps on values return -/

/-- **Whatever a step returns has a property.** -/
def Ensures {α : Type} (x : ValueM α) (Q : α → Prop) : Prop :=
  ∀ (notes notes' : Notes) (a : α), x notes = .ok a notes' → Q a

namespace Ensures

variable {α β : Type} {x : ValueM α} {f : α → ValueM β} {Q Q' : α → Prop} {R : β → Prop}

theorem pure {a : α} (h : Q a) : Ensures (pure a) Q := by
  rintro _ _ _ ⟨⟩
  exact h

theorem mono (h : Ensures x Q) (hq : ∀ a, Q a → Q' a) : Ensures x Q' :=
  fun notes notes' a hx => hq a (h notes notes' a hx)

theorem and (h : Ensures x Q) (h' : Ensures x Q') : Ensures x fun a => Q a ∧ Q' a :=
  fun notes notes' a hx => ⟨h notes notes' a hx, h' notes notes' a hx⟩

/-- A step of which nothing is known. -/
theorem any (x : ValueM α) : Ensures x fun _ => True :=
  fun _ _ _ _ => trivial

/-- **What steps one after the other return.** -/
theorem bind (h : Ensures x Q) (hf : ∀ a, Q a → Ensures (f a) R) : Ensures (x >>= f) R := by
  intro notes notes' b hb
  cases hx : x notes with
  | ok a next =>
    rw [bind_of_ok hx] at hb
    exact hf a (h notes next a hx) next notes' b hb
  | error fault next =>
    rw [bind_of_error hx] at hb
    cases hb

/-- What a step for each entry of a list returns. -/
theorem mapM {S : α → β → Prop} {l : List α} (h : ∀ a ∈ l, Ensures (f a) (S a)) :
    Ensures (l.mapM f) (List.Forall₂ S l) := by
  induction l with
  | nil => exact pure .nil
  | cons a l ih =>
    rw [List.mapM_cons]
    refine (h a List.mem_cons_self).bind fun b hb => ?_
    exact (ih fun a ha => h a (List.mem_cons_of_mem _ ha)).bind fun bs hbs => pure (.cons hb hbs)

end Ensures

end PageSlots.Page

/-! ## Distinct names and placed markers -/

namespace PageSlots.Markup

open PageSlots.Component PageSlots.Page PageSlots.Slot

/-- The names of the attributes of every node are distinct. -/
def Content.Distinct (c : Content) : Prop :=
  c.Everywhere fun o _ => o.names.Nodup

namespace Content

variable {c : Content} {o : Own} {cs : List Content}

theorem distinct_node : (node o cs).Distinct ↔ o.names.Nodup ∧ ∀ c ∈ cs, c.Distinct :=
  everywhere_node

theorem Distinct.own (h : c.Distinct) : c.own.names.Nodup :=
  (distinct_node.1 ((node_own_children c).symm ▸ h)).1

theorem Distinct.children (h : c.Distinct) : ∀ d ∈ c.children, d.Distinct :=
  (distinct_node.1 ((node_own_children c).symm ▸ h)).2

theorem Distinct.mapOwn {f : Own → Own} (h : c.Distinct) (hf : (f c.own).names.Nodup) :
    (c.mapOwn f).Distinct :=
  distinct_node.2 ⟨hf, h.children⟩

end Content

/-- What a node of a well-formed tree shows has distinct names. -/
theorem Tree.WellFormed.distinct {t : Tree} (h : t.WellFormed) {id : NodeId} {c : Content}
    (hc : t.Shows id c) : c.Distinct :=
  hc.everywhere fun x _ => h.nodup_names x

/-- **What is read from markup has distinct names.** -/
theorem Content.distinct_of_parse {markup : String} {cs : List Content}
    (h : (Content.parse markup).1 = .ok cs) : ∀ c ∈ cs, c.Distinct := by
  have hr := readFragment_eq markup
  rw [h] at hr
  exact (Content.distinct_node.1 (hr.2.1.distinct hr.2.2.2)).2

namespace Own

variable {o : Own}

theorem marker?_eq_none_iff : o.marker? = none ↔ ∀ name ∈ o.names, isMarker name = false := by
  refine findMarker_eq_none_iff.trans ⟨fun h name hm => ?_, fun h a ha => ?_⟩
  · obtain ⟨a, ha, rfl⟩ := mem_attributeNames.1 hm
    exact h a ha
  · exact h _ (mem_attributeNames.2 ⟨a, ha, rfl⟩)

/-- **The marker of a node is in its place**: there is no older one, and a
shorthand only on a `template`. -/
def Placed (o : Own) : Prop :=
  o.kind = .element → legacyName ∉ o.names ∧ (o.tag ≠ wrapperTag → o.marker? = none)

/-- A node that is marked as a placed one is placed, unless it ceases to
be a `template`. -/
theorem Placed.of_markedAs {o' : Own} (h : o.Placed) (hm : o.MarkedAs o')
    (ht : o'.tag ≠ wrapperTag → o.tag ≠ wrapperTag) : o'.Placed := by
  intro hk
  obtain ⟨hl, hs⟩ := h (hm.kind_eq ▸ hk)
  rw [← attr?_eq_none_iff, hm.legacy_eq, hm.marker?_eq]
  exact ⟨attr?_eq_none_iff.2 hl, fun hne => hs (ht hne)⟩

theorem placed_wrapper {name : String} (h : isMarker name = true) : (wrapper name).Placed := by
  refine fun _ => ⟨fun hm => ?_, fun hne => absurd rfl hne⟩
  rw [← show legacyName = name from List.mem_singleton.1 hm, isMarker_legacyName] at h
  cases h

end Own

/-- Wrapping leaves no marker on another tag than `template`. -/
theorem Content.wrapMarked_cases (c : Content) :
    c.wrapMarked = c ∧ (c.own.kind = .element → c.own.tag ≠ wrapperTag → c.own.marker? = none)
      ∨ ∃ name, c.own.kind = .element ∧ c.own.marker? = some name ∧ isMarker name = true
        ∧ c.wrapMarked = .node (Own.wrapper name) [c.mapOwn (Own.removeAttr name)] := by
  unfold wrapMarked
  by_cases hk : c.own.kind = .element ∧ c.own.tag ≠ wrapperTag
  · rw [if_pos hk]
    cases hm : c.own.marker? with
    | none => exact .inl ⟨rfl, fun _ _ => rfl⟩
    | some name =>
      exact .inr ⟨name, hk.1, rfl, Own.isMarker_of_marker? hm, rfl⟩
  · rw [if_neg hk]
    exact .inl ⟨rfl, fun he ht => absurd ⟨he, ht⟩ hk⟩

/-- **Normalizing a child puts its marker in its place** and keeps its
slot. -/
theorem Content.Distinct.normalize {c : Content} (h : c.Distinct) :
    c.normalize.Distinct ∧ c.normalize.own.Placed ∧ c.normalize.own.slotName = c.own.slotName := by
  have hd : (c.mapOwn Own.migrate).Distinct := h.mapOwn (Own.nodup_names_migrate h.own)
  have hs := Own.slotName_migrate h.own
  unfold Content.normalize
  rcases wrapMarked_cases (c.mapOwn Own.migrate) with ⟨he, hnone⟩ | ⟨name, hk, hm, hname, he⟩
  · rw [he]
    refine ⟨hd, fun hk => ⟨Own.notMem_names_migrate ?_ h.own, hnone hk⟩, hs⟩
    exact (Own.kind_migrate c.own).symm.trans hk
  · rw [he]
    refine ⟨distinct_node.2 ⟨Own.nodup_names_wrapper name, fun d hd' => ?_⟩,
      Own.placed_wrapper hname, ?_⟩
    · rw [List.mem_singleton.1 hd']
      exact hd.mapOwn (Own.nodup_names_removeAttr name hd.own)
    · rw [own_mapOwn] at hk hm
      rw [← hs, own_node, Own.slotName_wrapper hname, Own.slotName, if_pos hk, hm]

end PageSlots.Markup

/-! ## Normal form -/

namespace PageSlots.Page

open PageSlots.Component PageSlots.Markup PageSlots.Markup.Content PageSlots.Markup.Tree
open PageSlots.Slot

/-- **An element is in normal form**, given the slots that its children
fill. -/
structure Normal (table : RuleTable) (slots : List String) (o : Own) : Prop where
  /-- It has no older marker. -/
  no_legacy : legacyName ∉ o.names
  /-- It has a shorthand marker only if it is a `template`. -/
  no_marker : o.tag ≠ wrapperTag → ∀ name ∈ o.names, isMarker name = false
  /-- It is no markdown region. -/
  no_region : o.tag ≠ "md" ∧ o.tag ≠ "markdown"
  /-- It has none of the attributes that its rule promotes. -/
  no_promoted : ∀ rule, table.find o.tag = some rule →
    ∀ promotion ∈ rule.promotions, promotion.attr ∉ o.names
  /-- If it has a rule, its children fill different slots. -/
  slots_nodup : ∀ rule, table.find o.tag = some rule → slots.Nodup
  /-- None of these slots has a name that its rule replaces. -/
  no_old_slot : ∀ rule, table.find o.tag = some rule →
    ∀ rename ∈ rule.renames, rename.source ∉ slots

/-- **A rule is orderly**: what it promotes, sets and renames does not get
in the way of markers, nor of each other. -/
structure Orderly (rule : Rule) : Prop where
  /-- No marker is promoted, and no id. -/
  attr_ne : ∀ promotion ∈ rule.promotions,
    isMarker promotion.attr = false ∧ promotion.attr ≠ legacyName ∧ promotion.attr ≠ "id"
  /-- The slots of promotions have current names. -/
  slot_ne : ∀ promotion ∈ rule.promotions,
    promotion.slot ≠ "" ∧ ∀ rename ∈ rule.renames, rename.source ≠ promotion.slot
  /-- The replacements of old names are current names. -/
  target_ne : ∀ rename ∈ rule.renames,
    rename.target ≠ "" ∧ ∀ rename' ∈ rule.renames, rename'.source ≠ rename.target
  /-- No flag is a marker or a promoted attribute. -/
  flag_ne : ∀ fixup ∈ rule.fixups, isMarker fixup.flag = false ∧ fixup.flag ≠ legacyName
    ∧ ∀ promotion ∈ rule.promotions, promotion.attr ≠ fixup.flag

/-- The rules of the known components are orderly. -/
theorem orderly_of_mem_builtIn {rule : Rule} (h : rule ∈ builtIn) : Orderly rule where
  attr_ne := by revert rule; decide
  slot_ne := by revert rule; decide
  target_ne := by revert rule; decide
  flag_ne := by revert rule; decide

theorem orderly_of_find {table : RuleTable} (h : ∀ rule ∈ table, Orderly rule) {tag : String}
    {rule : Rule} (hf : table.find tag = some rule) : Orderly rule :=
  h rule (List.mem_of_find?_eq_some hf)

/-- What is asked of a node: normal form, if it is an element. -/
def NormalNode (table : RuleTable) (o : Own) (cs : List Content) : Prop :=
  o.kind = .element → Normal table (slotsOf cs) o

/-- **What a visit leaves of an element**: its marker is in its place, it is
no markdown region, and of its rule holds what rules are known to do to an
element and the slots that its children fill. -/
structure Ruled (table : RuleTable) (done : Rule → List String → Own → Prop)
    (slots : List String) (o : Own) : Prop where
  /-- The marker is in its place. -/
  placed : o.Placed
  /-- It is no markdown region. -/
  no_region : o.tag ≠ "md" ∧ o.tag ≠ "markdown"
  /-- Its rule has been applied. -/
  of_rule : ∀ rule, table.find o.tag = some rule → done rule slots o

/-- What a visit leaves of a node. -/
def RuledNode (table : RuleTable) (done : Rule → List String → Own → Prop) (o : Own)
    (cs : List Content) : Prop :=
  o.kind = .element → Ruled table done (slotsOf cs) o

/-- **An orderly rule** leaves neither an attribute that it promotes nor
two children for one slot nor a child with an old slot name. -/
def Tidied (rule : Rule) (slots : List String) (o : Own) : Prop :=
  (∀ promotion ∈ rule.promotions, promotion.attr ∉ o.names) ∧ slots.Nodup
    ∧ ∀ rename ∈ rule.renames, rename.source ∉ slots

/-- A node that is left tidy is in normal form. -/
theorem RuledNode.normalNode {table : RuleTable} {o : Own} {cs : List Content}
    (h : RuledNode table Tidied o cs) : NormalNode table o cs := fun hk => {
  no_legacy := ((h hk).placed hk).1
  no_marker := fun ht => Own.marker?_eq_none_iff.1 (((h hk).placed hk).2 ht)
  no_region := (h hk).no_region
  no_promoted := fun rule hf => ((h hk).of_rule rule hf).1
  slots_nodup := fun rule hf => ((h hk).of_rule rule hf).2.1
  no_old_slot := fun rule hf => ((h hk).of_rule rule hf).2.2 }

/-! ## The steps of a visit -/

/-- **What the steps of a visit keep**: distinct names, a placed marker, the
kind of the node and the slot that it fills. -/
structure Visited (c c' : Content) : Prop where
  /-- The names are distinct. -/
  distinct : c'.Distinct
  /-- The marker is in its place. -/
  placed : c'.own.Placed
  /-- The kind is the same. -/
  kind_eq : c'.own.kind = c.own.kind
  /-- The slot is the same. -/
  slotName_eq : c'.own.slotName = c.own.slotName

section Steps

variable {c c' c'' : Content} {renderer : Renderer} {rule : Rule} {promotion : Promotion}

theorem Visited.refl (hd : c.Distinct) (hp : c.own.Placed) : Visited c c := ⟨hd, hp, rfl, rfl⟩

theorem Visited.trans (h : Visited c c') (h' : Visited c' c'') : Visited c c'' :=
  ⟨h'.distinct, h'.placed, h'.kind_eq.trans h.kind_eq, h'.slotName_eq.trans h.slotName_eq⟩

/-- A node that is marked as before and keeps its tag. -/
theorem Visited.of_markedAs (hd : c'.Distinct) (hp : c.own.Placed) (hm : c.own.MarkedAs c'.own)
    (ht : c'.own.tag = c.own.tag) : Visited c c' :=
  ⟨hd, hp.of_markedAs hm fun hne => ht ▸ hne, hm.kind_eq, hm.slotName_eq⟩

/-- Reading markup. -/
theorem ensures_read (markup : String) :
    Ensures (Value.read markup) fun cs => ∀ c ∈ cs, c.Distinct := by
  intro notes notes' cs h
  unfold Value.read at h
  dsimp only at h
  cases hp : (Content.parse markup).1 with
  | ok ds =>
    rw [hp] at h
    cases h
    exact distinct_of_parse hp
  | error fault =>
    rw [hp] at h
    cases h

theorem regionOf_eq_none_iff {tag : String} :
    regionOf tag = none ↔ tag ≠ "md" ∧ tag ≠ "markdown" := by
  unfold regionOf
  split
  · simp
  · simp
  · rename_i h h'
    exact ⟨fun _ => ⟨h, h'⟩, fun _ => rfl⟩

/-- A region is no `template`, and what it becomes is no region. -/
theorem regionOf_eq_some {tag tag' : String} {mode : RenderMode}
    (h : regionOf tag = some (mode, tag')) : tag ≠ wrapperTag ∧ regionOf tag' = none := by
  unfold regionOf at h
  split at h
  · cases h
    decide
  · cases h
    decide
  · cases h

/-- **No region is left** where one has been rendered. -/
theorem ensures_renderRegion (p : Processor) (hd : c.Distinct) (hp : c.own.Placed) :
    Ensures (Value.renderRegion p c) fun c' =>
      Visited c c' ∧ c'.own.tag ≠ "md" ∧ c'.own.tag ≠ "markdown" := by
  unfold Value.renderRegion
  cases hr : regionOf c.own.tag with
  | none => exact .pure ⟨.refl hd hp, regionOf_eq_none_iff.1 hr⟩
  | some region =>
    obtain ⟨mode, tag⟩ := region
    obtain ⟨hne, hnone⟩ := regionOf_eq_some hr
    refine (Ensures.any _).bind fun markup _ => (ensures_read markup).bind fun cs hcs => ?_
    exact .pure ⟨⟨distinct_node.2 ⟨hd.own, hcs⟩, fun hk => ⟨(hp hk).1, fun _ => (hp hk).2 hne⟩,
      rfl, rfl⟩, regionOf_eq_none_iff.1 hnone⟩

/-- Giving a heading an id. -/
theorem ensures_headingId (hd : c.Distinct) (hp : c.own.Placed) :
    Ensures (Value.headingId c) fun b => Visited c b.2 ∧ b.2.own.tag = c.own.tag := by
  unfold Value.headingId
  refine (Ensures.any _).bind fun notes _ => ?_
  cases c.own.attr? "id" with
  | some written =>
    refine (Ensures.any _).bind fun _ _ => ?_
    dsimp only
    split
    · exact .pure ⟨.refl hd hp, rfl⟩
    · exact (Ensures.any _).bind fun _ _ => .pure ⟨.refl hd hp, rfl⟩
  | none =>
    refine (Ensures.any _).bind fun _ _ => ?_
    split
    · exact .pure ⟨.refl hd hp, rfl⟩
    · exact .pure ⟨.of_markedAs (hd.mapOwn (Own.nodup_names_setAttr _ _ hd.own)) hp
        (.setAttr (by decide) (by decide) _ _) rfl, rfl⟩

/-- A heading keeps its tag. -/
theorem ensures_anchorHeading (anchorClass : String) (hd : c.Distinct) (hp : c.own.Placed) :
    Ensures (Value.anchorHeading anchorClass c) fun c' =>
      Visited c c' ∧ c'.own.tag = c.own.tag := by
  unfold Value.anchorHeading
  refine (ensures_headingId hd hp).bind ?_
  rintro ⟨made, c'⟩ ⟨hv, ht⟩
  cases made with
  | none => exact .pure ⟨hv, ht⟩
  | some made =>
    dsimp only
    split
    · exact .pure ⟨hv, ht⟩
    · refine .pure ⟨⟨distinct_node.2 ⟨hv.distinct.own, fun d hm => ?_⟩, hv.placed, hv.kind_eq,
        hv.slotName_eq⟩, ht⟩
      rcases List.mem_cons.1 hm with rfl | hm
      · exact distinct_node.2 ⟨Own.nodup_names_setAttr _ _ (Own.nodup_names_setAttr _ _
          List.nodup_nil), nofun⟩
      · exact hv.distinct.children d hm

/-! ## The rule of a component -/

theorem slotsOf_congr {cs ds : List Content}
    (h : List.Forall₂ (fun d e => Value.slotOf e = Value.slotOf d) cs ds) :
    slotsOf ds = slotsOf cs :=
  (filterMap_eq_of_forall₂ h fun _ _ he => he.symm).symm

theorem slotsOf_normalize {cs : List Content} (h : ∀ d ∈ cs, d.Distinct) :
    slotsOf (cs.map Content.normalize) = slotsOf cs := by
  unfold slotsOf
  rw [List.filterMap_map]
  exact List.filterMap_congr fun d hd => (h d hd).normalize.2.2

/-- **A promotion** takes its attribute off and fills at most its slot. -/
theorem ensures_promote (index : Nat) (hd : c.Distinct) (hs : promotion.slot ≠ "") :
    Ensures (Value.promote renderer index promotion c) fun b =>
      b.2.Distinct ∧ b.2.own = c.own.removeAttr promotion.attr
        ∧ (slotsOf b.2.children = slotsOf c.children
          ∨ promotion.slot ∉ slotsOf c.children
            ∧ (slotsOf b.2.children).Perm (promotion.slot :: slotsOf c.children)) := by
  unfold Value.promote
  have hd' : (c.mapOwn (Own.removeAttr promotion.attr)).Distinct :=
    hd.mapOwn (Own.nodup_names_removeAttr _ hd.own)
  dsimp only
  by_cases hf : Value.filled (c.mapOwn (Own.removeAttr promotion.attr)) promotion.slot = true
  · rw [if_pos hf]
    split
    · exact (Ensures.any _).bind fun _ _ => .pure ⟨hd', rfl, .inl rfl⟩
    · exact .pure ⟨hd', rfl, .inl rfl⟩
  · rw [if_neg hf]
    split
    · exact .pure ⟨hd', rfl, .inl rfl⟩
    · refine (Ensures.any _).bind fun markup _ => (ensures_read markup).bind fun cs hcs => ?_
      refine (Ensures.any _).bind fun _ _ => .pure ?_
      have hperm := List.perm_insertIdx (Value.template promotion.slot cs) c.children
        (Nat.min_le_right index c.children.length)
      refine ⟨distinct_node.2 ⟨hd'.own, fun d hm => ?_⟩, rfl,
        .inr ⟨fun hm => hf (filled_iff.2 hm), ?_⟩⟩
      · rcases List.mem_cons.1 (hperm.subset hm) with rfl | hm
        · exact distinct_node.2 ⟨Own.nodup_names_wrapper _, hcs⟩
        · exact hd.children d hm
      · have hslots := hperm.filterMap Value.slotOf
        rwa [List.filterMap_cons_some (slotOf_template hs cs)] at hslots

/-- **Promotions** take all their attributes off, and the slots they fill
are new. -/
theorem ensures_promoteAll {promotions : List Promotion}
    (hs : ∀ promotion ∈ promotions, promotion.slot ≠ "") :
    ∀ {c : Content} (index : Nat), c.Distinct → (slotsOf c.children).Nodup →
      Ensures (Value.promoteAll renderer index promotions c) fun c' =>
        c'.Distinct ∧ c'.own = c.own.removeAttrs (promotions.map (·.attr))
          ∧ (slotsOf c'.children).Nodup
          ∧ ∀ slot ∈ slotsOf c'.children, slot ∈ slotsOf c.children
            ∨ ∃ promotion ∈ promotions, slot = promotion.slot := by
  induction promotions with
  | nil => exact fun _ hd hn => .pure ⟨hd, rfl, hn, fun _ => .inl⟩
  | cons promotion promotions ih =>
    intro c index hd hn
    refine (ensures_promote index hd (hs promotion List.mem_cons_self)).bind ?_
    rintro ⟨added, c₁⟩ ⟨hd₁, hown, hslots⟩
    dsimp only at hd₁ hown hslots ⊢
    have hn₁ : (slotsOf c₁.children).Nodup := by
      rcases hslots with he | ⟨hnew, hp⟩
      · rw [he]
        exact hn
      · exact hp.nodup_iff.2 (List.nodup_cons.2 ⟨hnew, hn⟩)
    refine (ih (fun q hq => hs q (List.mem_cons_of_mem _ hq)) _ hd₁ hn₁).mono ?_
    rintro c₂ ⟨hd₂, hown₂, hn₂, hin⟩
    refine ⟨hd₂, by rw [hown₂, hown]; rfl, hn₂, fun slot hslot => ?_⟩
    rcases hin slot hslot with h | ⟨q, hq, rfl⟩
    · rcases hslots with he | ⟨-, hp⟩
      · exact .inl (he ▸ h)
      · rcases List.mem_cons.1 (hp.subset h) with rfl | h
        · exact .inr ⟨promotion, List.mem_cons_self, rfl⟩
        · exact .inl h
    · exact .inr ⟨q, List.mem_cons_of_mem _ hq, rfl⟩

/-- **The explicit children** fill different slots with current names. -/
theorem slotsOf_explicit (cs : List Content) {renames : List Rename}
    (h : ∀ rename ∈ renames, rename.target ≠ ""
      ∧ ∀ rename' ∈ renames, rename'.source ≠ rename.target) :
    (slotsOf (Value.explicit renames cs)).Nodup
      ∧ ∀ rename ∈ renames, rename.source ∉ slotsOf (Value.explicit renames cs) := by
  refine ⟨(nodup_slots_keepFirst _ [] _).1, fun rename hr hm => ?_⟩
  obtain ⟨d, hd, hslot⟩ := mem_slotsOf.1 hm
  obtain ⟨e, -, rfl⟩ := List.mem_map.1 ((keepFirst_sublist _ [] _).subset hd)
  rw [own_mapOwn, Own.slotName_renameSlot (fun r hr => (h r hr).1), Own.renamedSlot] at hslot
  cases hren : e.own.renamed? renames with
  | none =>
    rw [hren] at hslot
    rw [Own.renamed?, show e.own.slotName = some rename.source from hslot] at hren
    exact absurd (decide_eq_true rfl) (List.find?_eq_none.1 hren rename hr)
  | some rename' =>
    rw [hren] at hslot
    obtain ⟨slot, -, hfind⟩ := Option.bind_eq_some_iff.1 hren
    exact (h rename' (List.mem_of_find?_eq_some hfind)).2 rename hr (Option.some.inj hslot).symm

/-- **A component after its rule** has none of the promoted attributes, and
its children fill different slots with current names. -/
theorem ensures_applyRule (ho : Orderly rule) (hd : c.Distinct) (hp : c.own.Placed) :
    Ensures (Value.applyRule renderer rule c) fun c' =>
      Visited c c' ∧ c'.own.tag = c.own.tag
        ∧ (∀ promotion ∈ rule.promotions, promotion.attr ∉ c'.own.names)
        ∧ (slotsOf c'.children).Nodup
        ∧ ∀ rename ∈ rule.renames, rename.source ∉ slotsOf c'.children := by
  unfold Value.applyRule
  obtain ⟨hn, hold⟩ := slotsOf_explicit c.children ho.target_ne
  have hd₁ : (Content.node c.own (Value.explicit rule.renames c.children)).Distinct := by
    refine distinct_node.2 ⟨hd.own, fun d hm => ?_⟩
    obtain ⟨e, he, rfl⟩ := List.mem_map.1 ((keepFirst_sublist _ [] _).subset hm)
    exact (hd.children e he).mapOwn (Own.nodup_names_renameSlot _ (hd.children e he).own)
  refine (Ensures.any _).bind fun _ _ => (Ensures.any _).bind fun _ _ => ?_
  refine (ensures_promoteAll (fun q hq => (ho.slot_ne q hq).1) 0 hd₁ hn).bind ?_
  rintro c₂ ⟨hd₂, hown₂, hn₂, hin⟩
  have hm₂ : c.own.MarkedAs c₂.own := by
    rw [hown₂]
    refine .removeAttrs (fun name hname => ?_) _
    obtain ⟨q, hq, rfl⟩ := List.mem_map.1 hname
    exact ⟨(ho.attr_ne q hq).1, (ho.attr_ne q hq).2.1⟩
  have ht₂ : c₂.own.tag = c.own.tag := by
    rw [hown₂, Own.tag_removeAttrs]
    rfl
  have hout : ∀ promotion ∈ rule.promotions, promotion.attr ∉ c₂.own.names := fun q hq => by
    rw [hown₂]
    exact Own.notMem_names_removeAttrs hd.own (List.mem_map_of_mem hq)
  -- flags are neither markers nor promoted attributes
  have hfix : c.own.MarkedAs (c₂.own.applyFixups (Value.filled c₂) rule.fixups)
      ∧ (c₂.own.applyFixups (Value.filled c₂) rule.fixups).tag = c₂.own.tag
      ∧ ∀ promotion ∈ rule.promotions,
        promotion.attr ∉ (c₂.own.applyFixups (Value.filled c₂) rule.fixups).names := by
    refine Own.applyFixups_induct (P := fun o => c.own.MarkedAs o ∧ o.tag = c₂.own.tag
      ∧ ∀ promotion ∈ rule.promotions, promotion.attr ∉ o.names) _ ⟨hm₂, rfl, hout⟩ ?_
    rintro o fixup hf ⟨hm, ht, hout⟩
    obtain ⟨hf₁, hf₂, hf₃⟩ := ho.flag_ne fixup hf
    refine ⟨hm.trans (.setAttr hf₁ hf₂ _ _), ht, fun q hq hmem => ?_⟩
    rcases Own.mem_names_setAttr hmem with h | h
    · exact hout q hq h
    · exact hf₃ q hq h
  refine .pure ⟨.of_markedAs (hd₂.mapOwn (Own.nodup_names_applyFixups _ _ hd₂.own)) hp hfix.1
    (hfix.2.1.trans ht₂), hfix.2.1.trans ht₂, hfix.2.2, hn₂, fun rename hr hm => ?_⟩
  rcases hin _ hm with h | ⟨q, hq, he⟩
  · exact hold rename hr h
  · exact (ho.slot_ne q hq).2 rename hr he

/-! ## The first pass -/

variable {p : Processor} {done : Rule → List String → Own → Prop}

/-- **What a rule is known to do** to a component with distinct names and a
placed marker. -/
def Establishes (renderer : Renderer) (rule : Rule) (done : Rule → List String → Own → Prop) :
    Prop :=
  ∀ c : Content, c.Distinct → c.own.Placed → Ensures (Value.applyRule renderer rule c) fun c' =>
    Visited c c' ∧ c'.own.tag = c.own.tag ∧ done rule (slotsOf c'.children) c'.own

theorem establishes_tidied (ho : Orderly rule) : Establishes renderer rule Tidied :=
  fun _ hd hp => ensures_applyRule ho hd hp

variable (hr : ∀ rule ∈ p.rules, Establishes p.renderer rule done)
include hr

/-- **An element that has been visited** is left as its rule leaves it. -/
theorem ensures_visitElement (hd : c.Distinct) (hp : c.own.Placed) :
    Ensures (Value.visitElement p c) fun c' =>
      Visited c c' ∧ RuledNode p.rules done c'.own c'.children := by
  unfold Value.visitElement
  refine (ensures_renderRegion p hd hp).bind ?_
  rintro c₁ ⟨hv₁, hreg₁⟩
  have hrules : ∀ c₂ : Content, Visited c c₂ → c₂.own.tag ≠ "md" ∧ c₂.own.tag ≠ "markdown" →
      Ensures (Value.applyRules p c₂) fun c' =>
        Visited c c' ∧ RuledNode p.rules done c'.own c'.children := by
    intro c₂ hv₂ hreg₂
    unfold Value.applyRules
    cases hf : p.rules.find c₂.own.tag with
    | none =>
      refine .pure ⟨hv₂, fun _ => ⟨hv₂.placed, hreg₂, fun rule hrule => ?_⟩⟩
      rw [hf] at hrule
      cases hrule
    | some rule =>
      have hrule := hr rule (List.mem_of_find?_eq_some hf) c₂ hv₂.distinct hv₂.placed
      refine hrule.mono ?_
      rintro c' ⟨hv', ht, hdone⟩
      refine ⟨hv₂.trans hv', fun _ => ⟨hv'.placed, ht ▸ hreg₂, fun rule' hrule' => ?_⟩⟩
      rw [ht, hf] at hrule'
      cases hrule'
      exact hdone
  by_cases hh : c₁.own.isHeading = true
  · rw [if_pos hh]
    refine (ensures_anchorHeading p.anchorClass hv₁.distinct hv₁.placed).bind ?_
    rintro c₂ ⟨hv₂, ht⟩
    exact hrules c₂ (hv₁.trans hv₂) (ht ▸ hreg₁)
  · rw [if_neg hh, pure_bind]
    exact hrules c₁ hv₁ hreg₁

theorem ensures_visit (hd : c.Distinct) (hp : c.own.Placed) :
    Ensures (Value.visit p c) fun c' =>
      Visited c c' ∧ RuledNode p.rules done c'.own c'.children := by
  unfold Value.visit
  by_cases he : c.own.isElement = true
  · rw [if_pos he]
    exact ensures_visitElement hr hd hp
  · rw [if_neg he]
    exact .pure ⟨.refl hd hp, fun hk => absurd (Own.isElement_iff.2 hk) he⟩

omit hr in
/-- Going on to the children. -/
theorem ensures_descend {f : Content → ValueM Content} {S : Content → Content → Prop}
    (h : ∀ d ∈ c.children, Ensures (f d) (S d)) :
    Ensures (Value.descend f c) fun c' =>
      c'.own = c.own ∧ List.Forall₂ S c.children c'.children := by
  unfold Value.descend
  split
  · refine (Ensures.any _).bind fun _ _ => (Ensures.mapM h).bind fun cs hcs => ?_
    exact (Ensures.any _).bind fun _ _ => .pure ⟨rfl, hcs⟩
  · exact (Ensures.mapM h).bind fun cs hcs => .pure ⟨rfl, hcs⟩

/-- **The first pass leaves every element as its rule leaves it** and keeps
the slot of the topmost node. -/
theorem ensures_resolveTo (depth : Nat) :
    ∀ {c : Content}, c.Distinct → c.own.Placed →
      Ensures (Value.resolveTo p depth c) fun c' =>
        c'.Everywhere (RuledNode p.rules done) ∧ Value.slotOf c' = Value.slotOf c := by
  induction depth with
  | zero =>
    intro c _ _ notes notes' c' h
    cases h
  | succ depth ih =>
    intro c hd hp
    unfold Value.resolveTo
    refine (ensures_visit hr hd hp).bind ?_
    rintro c₁ ⟨hv, hn⟩
    -- the children have been normalized, so each of them is placed
    refine (ensures_descend (S := fun d d' => d'.Everywhere (RuledNode p.rules done)
      ∧ Value.slotOf d' = Value.slotOf d) fun d hm => ?_).mono ?_
    · obtain ⟨e, he, rfl⟩ := List.mem_map.1 hm
      obtain ⟨hde, hpe, -⟩ := (hv.distinct.children e he).normalize
      exact ih hde hpe
    · rintro c₂ ⟨hown, hcs⟩
      have hslots : slotsOf c₂.children = slotsOf c₁.children :=
        (slotsOf_congr (hcs.imp fun _ _ h => h.2)).trans (slotsOf_normalize hv.distinct.children)
      refine ⟨?_, (congrArg Own.slotName hown).trans hv.slotName_eq⟩
      rw [← node_own_children c₂]
      refine .node ?_ fun d hm => ?_
      · unfold RuledNode
        rw [hslots, hown]
        exact hn
      · obtain ⟨_, -, hs⟩ := exists_mem_of_forall₂ hcs hm
        exact hs.1

end Steps

/-! ## Pages -/

/-- **A node of a page is in normal form**, if it is an element. -/
def NormalAt (table : RuleTable) (t : Tree) (x : NodeId) : Prop :=
  t.isElement x = true → Normal table ((t.children x).filterMap t.slotName) (t.own x)

/-- The slots of the children of a node are those of what they show. -/
theorem slotsOf_eq {t : Tree} {x : NodeId} {cs : List Content}
    (hcs : List.Forall₂ t.Shows (t.children x) cs) :
    (t.children x).filterMap t.slotName = slotsOf cs :=
  filterMap_eq_of_forall₂ hcs fun _ _ => slotName_eq

theorem normalAt_of_normalNode {table : RuleTable} {t : Tree} {x : NodeId} {cs : List Content}
    (h : NormalNode table (t.own x) cs) (hcs : List.Forall₂ t.Shows (t.children x) cs) :
    NormalAt table t x := by
  intro he
  rw [slotsOf_eq hcs]
  exact h (isElement_iff.1 he)

/-- The second pass keeps normal form. -/
theorem NormalAt.of_labels {table : RuleTable} (ho : ∀ rule ∈ table, Orderly rule) {t t' : Tree}
    {x : NodeId} (h : Labels t t') (hn : NormalAt table t x) : NormalAt table t' x := by
  intro he
  have hown := h.own x
  have hslots : (t'.children x).filterMap t'.slotName = (t.children x).filterMap t.slotName := by
    rw [h.children_eq]
    exact List.filterMap_congr fun c _ => h.slotName_eq c
  have hk := hown.markedAs.kind_eq
  obtain ⟨h₁, h₂, h₃, h₄, h₅, h₆⟩ := hn (isElement_iff.2 (hk ▸ isElement_iff.1 he))
  rw [hslots]
  rw [← hown.tag_eq] at h₂ h₃ h₄ h₅ h₆
  refine ⟨fun hm => ?_, fun ht => ?_, h₃, fun rule hf q hq hm => ?_, h₅, h₆⟩
  · rcases hown.mem_names hm with hm | hm
    · exact h₁ hm
    · exact absurd hm (by decide)
  · exact Own.marker?_eq_none_iff.1 (hown.markedAs.marker?_eq.trans
      (Own.marker?_eq_none_iff.2 (h₂ ht)))
  · rcases hown.mem_names hm with hm | hm
    · exact h₄ rule hf q hq hm
    · exact ((orderly_of_find ho hf).attr_ne q hq).2.2 hm

/-- **What the first pass leaves of the nodes of a tree.** -/
theorem ruledNode_of_resolveTo {p : Processor} {done : Rule → List String → Own → Prop}
    (hr : ∀ rule ∈ p.rules, Establishes p.renderer rule done) {depth : Nat} {run run' : Run}
    {id : NodeId} (h : run.tree.WellFormed) (hid : id < run.tree.size)
    (hp : (run.tree.own id).Placed) (hok : p.resolveTo depth id run = .ok () run') {x : NodeId}
    (hx : run'.tree.Within id x) :
    ∃ cs, List.Forall₂ run'.tree.Shows (run'.tree.children x) cs
      ∧ RuledNode p.rules done (run'.tree.own x) cs := by
  obtain ⟨c, hc⟩ := h.exists_shows id
  have hagree := agree_resolveTo p depth h hid hc
  rw [hok] at hagree
  obtain ⟨c', hv, hs⟩ := hagree.exists_value_of_ok
  obtain ⟨hn, -⟩ := ensures_resolveTo hr depth (h.distinct hc) (hc.own_eq ▸ hp) _ _ _ hv
  exact hs.of_everywhere hn hx

/-- The first pass brings a tree into normal form. -/
theorem normalAt_of_resolveTo {p : Processor} (ho : ∀ rule ∈ p.rules, Orderly rule) {depth : Nat}
    {run run' : Run} {id : NodeId} (h : run.tree.WellFormed) (hid : id < run.tree.size)
    (hp : (run.tree.own id).Placed) (hok : p.resolveTo depth id run = .ok () run') {x : NodeId}
    (hx : run'.tree.Within id x) : NormalAt p.rules run'.tree x := by
  obtain ⟨cs, hcs, hnode⟩ := ruledNode_of_resolveTo
    (fun rule hr => establishes_tidied (ho rule hr)) h hid hp hok hx
  exact normalAt_of_normalNode hnode.normalNode hcs

/-- **A page that has been resolved is in normal form**: whatever the
markup, the renderer and the depth, if the first pass over the document
returns, then every element that hangs from the document is normal, and it
is still normal after the second pass. -/
theorem normalAt_of_resolve {p : Processor} (hp : p.rules = builtIn) {markup file : String}
    {ids : List NodeId} {calls : List RenderCall} {log : Log} {run : Run}
    (hread : (readFragment markup).nodes = .ok ids)
    (hok : p.resolve 0 { tree := (readFragment markup).tree, context := { file }, calls, log }
      = .ok () run) :
    (∀ x, run.tree.Within 0 x → NormalAt builtIn run.tree x)
      ∧ ∀ x, (p.deriveIds run.tree 0).2.Within 0 x →
        NormalAt builtIn (p.deriveIds run.tree 0).2 x := by
  have ho : ∀ rule ∈ p.rules, Orderly rule := fun rule hr => orderly_of_mem_builtIn (hp ▸ hr)
  obtain ⟨hwf, hsize, cs, hs⟩ := readFragment_of_ok hread
  have hplaced : ((readFragment markup).tree.own 0).Placed := by
    rw [hs.own_eq]
    exact nofun
  have hn : ∀ x, run.tree.Within 0 x → NormalAt builtIn run.tree x := fun x hx =>
    hp ▸ normalAt_of_resolveTo ho hwf hsize hplaced hok hx
  have hl := p.labels_deriveIds run.tree 0
  exact ⟨hn, fun x hx => (hn x ((within_congr hl.children_eq).1 hx)).of_labels
    (fun _ => orderly_of_mem_builtIn) hl⟩

/-- A panel with an attribute, an older marker and a region. -/
theorem normalAt_of_resolve_panel :
    let p : Processor := { renderer := .ofFunction fun call => .ok call.source }
    let fragment := readFragment "<panel alt=\"x\"><p slot=\"a\"><md>y</md></p></panel>"
    ∃ run, p.resolve 0 { tree := fragment.tree, context := { file := "page.md" } } = .ok () run
      ∧ (∀ x, run.tree.Within 0 x → NormalAt builtIn run.tree x)
      ∧ ∀ x, (p.deriveIds run.tree 0).2.Within 0 x →
        NormalAt builtIn (p.deriveIds run.tree 0).2 x := by
  intro p fragment
  have hread : fragment.nodes = .ok [2] := by decide +kernel
  obtain ⟨_, run, hok⟩ := exists_of_returns (show returns (p.resolve 0
    { tree := fragment.tree, context := { file := "page.md" } }) = true by decide +kernel)
  exact ⟨run, hok, normalAt_of_resolve rfl hread hok⟩

end PageSlots.Page
