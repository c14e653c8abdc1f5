import PageSlots.Proofs.Content.Fragment
import PageSlots.Proofs.Page.Derived

/-!
# Which ids the second pass gives

What a component finds in its slot may change in the course of the second
pass: a table may give ids to headings, and a component that has been
given an id may be what another one looks through. That it all comes out
as if every component had looked at the finished tree is due to the order.
The pass is over with everything below a node when it comes to the node,
and what a node looks at is below it.

On values there is nothing to show for that: `Value.derived` hands a node
the finished contents of its children. So each node below the one that the
pass is called for is read off the tree that is left
(`own_deriveIds_of_within`), and the same equation tells why there is
nothing left to do (`deriveIds_deriveIds`), for any table.

What a component finds is told without the search: there is a first child
for the slot, and a first heading with an id in it (`FindsId`).
-/

namespace PageSlots.Page

open PageSlots.Component PageSlots.Markup PageSlots.Markup.Tree PageSlots.Slot

variable {p : Processor} {t : Tree} {r x : NodeId} {slot value : String}

/-! ## What a component finds -/

/-- **The first child for a slot**: no child in front of it has the name. -/
def FillsSlot (t : Tree) (id : NodeId) (slot : String) (c : NodeId) : Prop :=
  ∃ before after, t.children id = before ++ c :: after ∧ t.slotName c = some slot
    ∧ ∀ d ∈ before, t.slotName d ≠ some slot

/-- **The id of the first heading that has one**, among nodes in their
order. -/
def FirstHeadingId (t : Tree) (nodes : List NodeId) (value : String) : Prop :=
  ∃ before y after, nodes = before ++ y :: after ∧ t.isHeading y = true
    ∧ t.attr? y "id" = some value ∧ ∀ z ∈ before, t.isHeading z = true → t.attr? z "id" = none

/-- **What a component finds in a slot**: the id of the first heading that
has one, in document order below the first child for the slot. -/
def FindsId (t : Tree) (id : NodeId) (slot value : String) : Prop :=
  ∃ c, FillsSlot t id slot c ∧ FirstHeadingId t (t.descendants c) value

theorem findSlot_eq_some_iff {id c : NodeId} :
    t.findSlot id slot = some c ↔ FillsSlot t id slot c := by
  rw [findSlot, List.find?_eq_some_iff_append, decide_eq_true_iff]
  constructor
  · rintro ⟨hc, before, after, hl, hb⟩
    exact ⟨before, after, hl, hc, fun d hd => by simpa using hb d hd⟩
  · rintro ⟨before, after, hl, hc, hb⟩
    exact ⟨hc, before, after, hl, fun d hd => by simpa using hb d hd⟩

theorem firstHeadingId_iff {nodes : List NodeId} :
    (nodes.filter t.isHeading).findSome? (t.attr? · "id") = some value
      ↔ FirstHeadingId t nodes value := by
  have hfind : (nodes.filter t.isHeading).findSome? (t.attr? · "id")
      = nodes.findSome? fun x => if t.isHeading x then t.attr? x "id" else none := by
    induction nodes with
    | nil => rfl
    | cons x nodes ih =>
      rw [List.filter_cons, List.findSome?_cons]
      by_cases hx : t.isHeading x = true
      · rw [if_pos hx, if_pos hx, List.findSome?_cons, ih]
      · rw [if_neg hx, if_neg hx, ih]
  rw [hfind, List.findSome?_eq_some_iff]
  refine ⟨fun ⟨before, y, after, hl, hy, hb⟩ => ?_, fun ⟨before, y, after, hl, hh, hy, hb⟩ => ?_⟩
  · by_cases hh : t.isHeading y = true
    · rw [if_pos hh] at hy
      exact ⟨before, y, after, hl, hh, hy, fun z hz hhz => by simpa [hhz] using hb z hz⟩
    · rw [if_neg hh] at hy
      cases hy
  · refine ⟨before, y, after, hl, by rw [if_pos hh, hy], fun z hz => ?_⟩
    by_cases hhz : t.isHeading z = true
    · rw [if_pos hhz, hb z hz hhz]
    · rw [if_neg hhz]

/-- The search of a component finds what there is. -/
theorem slotHeadingId_eq_some_iff {id : NodeId} :
    Processor.slotHeadingId t id slot = some value ↔ FindsId t id slot value := by
  unfold Processor.slotHeadingId FindsId
  cases hc : t.findSlot id slot with
  | none =>
    refine ⟨nofun, fun ⟨c, hfills, _⟩ => ?_⟩
    rw [findSlot_eq_some_iff.2 hfills] at hc
    cases hc
  | some c =>
    rw [firstHeadingId_iff]
    refine ⟨fun hf => ⟨c, findSlot_eq_some_iff.1 hc, hf⟩, fun ⟨d, hfills, hf⟩ => ?_⟩
    rw [findSlot_eq_some_iff.2 hfills] at hc
    exact Option.some.inj hc ▸ hf

/-! ## The finished tree -/

/-- Every node below shows what it should when the pass is over. -/
theorem shows_deriveIds_of_within (h : t.WellFormed) (hr : r < t.size) (hx : t.Within r x) :
    ∃ c, t.Shows x c ∧ (p.deriveIds t r).2.Shows x (Value.derived p c) := by
  induction hx with
  | refl =>
    obtain ⟨c, hc⟩ := h.exists_shows r
    exact ⟨c, hc, shows_deriveIds h hr hc⟩
  | @child y x _ hxy ih =>
    obtain ⟨⟨o, cs⟩, hc, hc'⟩ := ih
    have hcs := hc.children
    have hcs' := hc'.children
    rw [Value.derived_node, Content.children_node, (p.labels_deriveIds t r).children_eq] at hcs'
    obtain ⟨i, hi, rfl⟩ := List.getElem_of_mem hxy
    have hi' : i < cs.length := hcs.length_eq ▸ hi
    have hd' := hcs'.get hi (by rwa [List.length_map])
    rw [List.get_eq_getElem, List.get_eq_getElem, List.getElem_map] at hd'
    exact ⟨cs[i], hcs.get hi hi', hd'⟩

/-- What a node finds by the rule of its tag. -/
def foundId (p : Processor) (t : Tree) (id : NodeId) : Option String :=
  ((p.rules.find (t.tag id)).bind (·.idFromSlot)).bind (Processor.slotHeadingId t id)

/-- **Own data below are read off the finished tree.** -/
theorem own_deriveIds_of_within (h : t.WellFormed) (hr : r < t.size) (hx : t.Within r x) :
    (p.deriveIds t r).2.own x
      = if !t.isElement x || t.hasAttr x "id" then t.own x
        else match foundId p (p.deriveIds t r).2 x with
          | none => t.own x
          | some value => (t.own x).setAttr "id" value := by
  have hl := p.labels_deriveIds t r
  obtain ⟨⟨o, cs⟩, hc, hc'⟩ := shows_deriveIds_of_within (p := p) h hr hx
  have ho : t.own x = o := hc.own_eq
  have htag : (p.deriveIds t r).2.tag x = o.tag := (hl.own x).tag_eq.trans (congrArg Own.tag ho)
  rw [Value.derived_node] at hc'
  have hfind : foundId p (p.deriveIds t r).2 x
      = ((p.rules.find o.tag).bind (·.idFromSlot)).bind
        (Value.slotHeadingId (cs.map (Value.derived p))) := by
    rw [foundId, htag]
    exact congrArg _ (funext fun slot => slotHeadingId_eq_value (hl.wellFormed h) hc'.children slot)
  rw [hc'.own_eq, Content.own_node, Value.deriveId, hfind, ← ho]
  rfl

/-- **When the pass is over, every node below is done with.** -/
theorem derived_deriveIds_of_within (h : t.WellFormed) (hr : r < t.size) (hx : t.Within r x) :
    Derived p (p.deriveIds t r).2 x := by
  intro he hi slot hslot
  by_contra hne
  obtain ⟨value, hvalue⟩ := Option.ne_none_iff_exists'.1 hne
  have hown := (p.labels_deriveIds t r).own x
  -- what there is to find now has been found
  have hfound : foundId p (p.deriveIds t r).2 x = some value := by
    rw [foundId, hslot, Option.bind_some, hvalue]
  have heq := own_deriveIds_of_within (p := p) h hr hx
  rw [isElement_iff, hown.markedAs.kind_eq, ← isElement_iff] at he
  rw [he, hasAttr_eq_own, hown.hasAttr_eq_false hi, hfound] at heq
  rw [hasAttr_eq_own, heq, Bool.eq_false_iff] at hi
  refine hi (Own.hasAttr_iff.2 ?_)
  by_contra hm
  rw [← Own.attr?_eq_none_iff] at hm
  exact absurd ((Own.attr?_setAttr_self "id" value (t.own x)).symm.trans hm) nofun

/-- **A second time the second pass changes nothing**, whatever the
table. -/
theorem deriveIds_deriveIds (h : t.WellFormed) (hr : r < t.size) :
    (p.deriveIds (p.deriveIds t r).2 r).2 = (p.deriveIds t r).2 := by
  have hdone := p.deriveIdsTo_eq_self (t := (p.deriveIds t r).2) (p.deriveIds t r).2.size
    (fun x hx => derived_deriveIds_of_within h hr
      ((within_congr (p.labels_deriveIds t r).children_eq).1 hx)) []
  rw [Processor.deriveIds, hdone]

/-- What is not below the node stays as it is. -/
theorem own_deriveIds_of_not_within (h : t.WellFormed) (hr : r < t.size) (hx : ¬ t.Within r x) :
    (p.deriveIds t r).2.own x = t.own x := by
  obtain ⟨c, hc⟩ := h.exists_shows r
  exact (shows_deriveIdsTo [] h hr hc (h.fitsIn_size hr)).2 x hx

/-! ## Ids that are gained -/

/-- An element below a node that has no `id`. -/
def LacksId (t : Tree) (r x : NodeId) : Prop :=
  t.Within r x ∧ t.isElement x = true ∧ t.hasAttr x "id" = false

/-- What is no element without an `id` below the node stays as it is. -/
theorem own_deriveIds_of_not_lacksId (h : t.WellFormed) (hr : r < t.size)
    (hx : ¬ LacksId t r x) : (p.deriveIds t r).2.own x = t.own x := by
  by_cases hw : t.Within r x
  · rw [own_deriveIds_of_within h hr hw, if_pos]
    by_contra hk
    rw [Bool.or_eq_true, not_or, Bool.not_eq_true', Bool.not_eq_false, Bool.not_eq_true] at hk
    exact hx ⟨hw, hk⟩
  · exact own_deriveIds_of_not_within h hr hw

/-- An element without an `id` below the node gets what it finds. -/
theorem attrs_deriveIds_of_lacksId (h : t.WellFormed) (hr : r < t.size) (hx : LacksId t r x) :
    (p.deriveIds t r).2.attrs x
      = t.attrs x ++ ((foundId p (p.deriveIds t r).2 x).map (Attribute.mk "id")).toList := by
  obtain ⟨hw, he, hi⟩ := hx
  have hm : "id" ∉ (t.own x).names := fun hm =>
    absurd ((Own.hasAttr_iff.2 hm).symm.trans hi) nofun
  rw [attrs_eq_own, own_deriveIds_of_within h hr hw, he, hi]
  cases foundId p (p.deriveIds t r).2 x with
  | none => exact (List.append_nil _).symm
  | some value => exact setAttribute_of_notMem hm

theorem foundId_eq_some_iff {id : NodeId} : foundId p t id = some value
    ↔ ∃ rule slot, p.rules.find (t.tag id) = some rule ∧ rule.idFromSlot = some slot
      ∧ FindsId t id slot value := by
  rw [foundId, Option.bind_eq_some_iff]
  simp only [Option.bind_eq_some_iff, slotHeadingId_eq_some_iff]
  exact ⟨fun ⟨slot, ⟨rule, hrule, hslot⟩, hf⟩ => ⟨rule, slot, hrule, hslot, hf⟩,
    fun ⟨rule, slot, hrule, hslot, hf⟩ => ⟨slot, ⟨rule, hrule, hslot⟩, hf⟩⟩

/-- **Elements below a node have gained ids**, and nothing else has
changed. -/
structure GainsIds (p : Processor) (r : NodeId) (t t' : Tree) : Prop where
  /-- The tree is well formed. -/
  wellFormed : t'.WellFormed
  /-- No node comes or goes. -/
  size_eq : t'.size = t.size
  /-- Kinds stay. -/
  kind_eq : ∀ x, t'.kind x = t.kind x
  /-- Tags stay. -/
  tag_eq : ∀ x, t'.tag x = t.tag x
  /-- Texts stay. -/
  text_eq : ∀ x, t'.text x = t.text x
  /-- Children stay. -/
  children_eq : ∀ x, t'.children x = t.children x
  /-- Parents stay. -/
  parent_eq : ∀ x, t'.parent x = t.parent x
  /-- What is not below the node stays as it is. -/
  node_eq : ∀ x, ¬ t.Within r x → t'.node x = t.node x
  /-- The attributes of a node stay, or an element below the node that had
  no `id` has one now, behind the others. -/
  attrs_eq : ∀ x, t'.attrs x = t.attrs x
    ∨ LacksId t r x ∧ ∃ value, t'.attrs x = t.attrs x ++ [⟨"id", value⟩]
  /-- It is given the id that it finds in the tree that is left, in the slot
  that the rule of its tag names. -/
  gained_iff : ∀ x value, t'.attrs x = t.attrs x ++ [⟨"id", value⟩]
    ↔ LacksId t r x ∧ ∃ rule slot, p.rules.find (t.tag x) = some rule
      ∧ rule.idFromSlot = some slot ∧ FindsId t' x slot value

/-- **The second pass gives each component below a node the id that it
finds in the tree that the pass leaves**, and changes nothing else. Doing
it again changes nothing. -/
theorem gainsIds_deriveIds (p : Processor) (h : t.WellFormed) (hr : r < t.size) :
    GainsIds p r t (p.deriveIds t r).2
      ∧ (p.deriveIds (p.deriveIds t r).2 r).2 = (p.deriveIds t r).2 := by
  have hl := p.labels_deriveIds t r
  have htag : ∀ x, (p.deriveIds t r).2.tag x = t.tag x := fun x => (hl.own x).tag_eq
  have hstays := fun x (hx : ¬ LacksId t r x) =>
    congrArg Own.attrs (own_deriveIds_of_not_lacksId (p := p) h hr hx)
  have hgains := fun x (hx : LacksId t r x) => attrs_deriveIds_of_lacksId (p := p) h hr hx
  refine ⟨⟨hl.wellFormed h, hl.size_eq, fun x => (hl.own x).markedAs.kind_eq, htag,
    fun x => (hl.own x).text_eq, hl.children_eq, hl.parent_eq, fun x hx => ?_, fun x => ?_,
    fun x value => ?_⟩, deriveIds_deriveIds h hr⟩
  · exact node_ext (own_deriveIds_of_not_within h hr hx) (hl.children_eq x) (hl.parent_eq x)
  · by_cases hx : LacksId t r x
    · rw [hgains x hx]
      cases foundId p (p.deriveIds t r).2 x with
      | none => exact .inl (List.append_nil _)
      | some value => exact .inr ⟨hx, value, rfl⟩
    · exact .inl (hstays x hx)
  · rw [← htag, ← foundId_eq_some_iff]
    by_cases hx : LacksId t r x
    · rw [hgains x hx, List.append_cancel_left_eq]
      cases foundId p (p.deriveIds t r).2 x <;> simp [hx]
    · refine ⟨fun ha => ?_, fun ha => absurd ha.1 hx⟩
      have hself := (hstays x hx).symm.trans ha
      simp [attrs_eq_own] at hself

/-- A table that gives an id to a heading: the panel has the heading `h4`
in front, but the heading around it is what it finds in the end. -/
theorem gainsIds_deriveIds_heading :
    let p : Processor := { renderer := .ofFunction fun call => .ok call.source
                           rules := [{ tags := ["panel"], idFromSlot := some "header" },
                             { tags := ["h2"], idFromSlot := some "x" }] }
    let t := (readFragment ("<panel><p #header><h2><h4 id=j></h4><b #x><h3 id=k></h3></b></h2></p>"
      ++ "</panel>")).tree
    let t' := (p.deriveIds t 0).2
    t.WellFormed ∧ 0 < t.size ∧ GainsIds p 0 t t' ∧ (p.deriveIds t' 0).2 = t'
      ∧ Processor.slotHeadingId t 2 "header" = some "j"
      ∧ t'.attrs 4 = [⟨"id", "k"⟩] ∧ t'.attrs 2 = [⟨"id", "k"⟩] := by
  intro p t t'
  have hok : (readFragment ("<panel><p #header><h2><h4 id=j></h4><b #x><h3 id=k></h3></b></h2></p>"
      ++ "</panel>")).nodes = .ok [2] := by decide +kernel
  obtain ⟨hwf, hsize, -⟩ := readFragment_of_ok hok
  obtain ⟨hg, hagain⟩ := gainsIds_deriveIds p hwf hsize
  have hids : Processor.slotHeadingId t 2 "header" = some "j"
      ∧ t'.attrs 4 = [⟨"id", "k"⟩] ∧ t'.attrs 2 = [⟨"id", "k"⟩] := by decide +kernel
  exact ⟨hwf, hsize, hg, hagain, hids⟩

end PageSlots.Page
