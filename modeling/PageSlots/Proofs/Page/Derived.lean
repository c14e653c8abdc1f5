import PageSlots.Proofs.Page.SecondPass

/-!
# The second pass on values

What the second pass leaves is a function of what it finds: told of
contents, it is `Value.derived`. From the bottom up an element without an
id gets the id of the first heading in one of its slots.

So what is written after the second pass depends on what the tree shows,
and not on the numbers of its nodes (`toList_innerHtml_deriveIds`). The
pass over the tree goes from node to node and gives ids in place; as it
gives them below the node it is called for only, what the siblings show
stays.
-/

namespace PageSlots.Page

open PageSlots.Component PageSlots.Markup PageSlots.Markup.Tree PageSlots.Slot

namespace Value

/-- The id of the first heading that has one in a slot among contents. -/
def slotHeadingId (cs : List Content) (slot : String) : Option String :=
  (cs.find? fun c => slotOf c = some slot).bind fun c =>
    (c.inOrder.filter Own.isHeading).findSome? (·.attr? "id")

/-- Give own data over contents the id of a heading in a slot. -/
def deriveId (p : Processor) (cs : List Content) (o : Own) : Own :=
  if !o.isElement || o.hasAttr "id" then o
  else
    match ((p.rules.find o.tag).bind (·.idFromSlot)).bind (slotHeadingId cs) with
    | none => o
    | some value => o.setAttr "id" value

/-- **The second pass** over a content. -/
def derived (p : Processor) : Content → Content
  | .node o cs => .node (deriveId p (cs.map (derived p)) o) (cs.map (derived p))

theorem derived_node (p : Processor) (o : Own) (cs : List Content) :
    derived p (.node o cs)
      = .node (deriveId p (cs.map (derived p)) o) (cs.map (derived p)) := by
  rw [derived]

end Value

variable {p : Processor} {t : Tree} {id : NodeId} {c : Content} {cs : List Content}

/-- Related entries are found in related lists. -/
theorem find?_of_forall₂ {α β : Type} {R : α → β → Prop} {l : List α} {m : List β} {f : α → Bool}
    {g : β → Bool} (h : List.Forall₂ R l m) (hfg : ∀ a b, R a b → f a = g b) :
    (l.find? f = none ∧ m.find? g = none)
      ∨ ∃ a b, l.find? f = some a ∧ m.find? g = some b ∧ R a b := by
  induction h with
  | nil => exact .inl ⟨rfl, rfl⟩
  | @cons a b l m hab _ ih =>
    rw [List.find?_cons, List.find?_cons, hfg a b hab]
    cases g b with
    | true => exact .inr ⟨a, b, rfl, rfl, hab⟩
    | false => exact ih

/-- The heading in a slot is the one that is shown. -/
theorem slotHeadingId_eq_value (h : t.WellFormed)
    (hcs : List.Forall₂ t.Shows (t.children id) cs) (slot : String) :
    Processor.slotHeadingId t id slot = Value.slotHeadingId cs slot := by
  unfold Processor.slotHeadingId Value.slotHeadingId findSlot
  have hslot : ∀ i c, t.Shows i c →
      decide (t.slotName i = some slot) = decide (Value.slotOf c = some slot) := fun i c hc => by
    rw [slotName_eq_own, hc.own_eq]
    rfl
  rcases find?_of_forall₂ hcs hslot with ⟨hi, hc⟩ | ⟨i, c, hi, hc, hshows⟩
  · rw [hi, hc]
    rfl
  · rw [hi, hc, Option.bind_some]
    have him : i < t.size := h.lt_of_mem (List.mem_of_find?_eq_some hi)
    dsimp only
    rw [← h.map_own_descendants him hshows, List.filter_map, List.findSome?_map]
    rfl

/-- A step of the second pass edits own data, by what the children show. -/
theorem recast_deriveId (h : t.WellFormed) (hid : id < t.size)
    (hcs : List.Forall₂ t.Shows (t.children id) cs) (log : Log) :
    Recast id (Value.deriveId p cs) t (p.deriveId (log, t) id).2 := by
  have hfind : ((p.rules.find (t.tag id)).bind (·.idFromSlot)).bind (Value.slotHeadingId cs)
      = ((p.rules.find (t.tag id)).bind (·.idFromSlot)).bind (Processor.slotHeadingId t id) :=
    congrArg _ (funext fun slot => (slotHeadingId_eq_value h hcs slot).symm)
  have hvalue : Value.deriveId p cs (t.own id)
      = if !t.isElement id || t.hasAttr id "id" then t.own id
        else match ((p.rules.find (t.tag id)).bind (·.idFromSlot)).bind
            (Processor.slotHeadingId t id) with
          | none => t.own id
          | some value => (t.own id).setAttr "id" value := by
    rw [← hfind]
    rfl
  unfold Processor.deriveId
  dsimp only
  split
  · rename_i hk
    exact Recast.refl (by rw [hvalue, if_pos hk])
  · rename_i hk
    rw [if_neg hk] at hvalue
    cases hslot : (p.rules.find (t.tag id)).bind (·.idFromSlot) with
    | none => exact Recast.refl (by rw [hvalue, hslot]; rfl)
    | some slot =>
      rw [hslot, Option.bind_some] at hvalue
      dsimp only
      cases hheading : Processor.slotHeadingId t id slot with
      | none => exact Recast.refl (by rw [hvalue, hheading])
      | some value =>
        refine (recast_setAttr hid "id" value).congr ?_
        rw [hvalue, hheading]

/-- **The second pass below a node** leaves what it should, and changes no
other node. -/
theorem shows_deriveIdsTo {depth : Nat} : ∀ {t : Tree} {id : NodeId} {c : Content} (log : Log),
    t.WellFormed → id < t.size → t.Shows id c → t.FitsIn depth id →
      (p.deriveIdsTo depth (log, t) id).2.Shows id (Value.derived p c)
        ∧ ∀ x, ¬ t.Within id x → (p.deriveIdsTo depth (log, t) id).2.own x = t.own x := by
  induction depth with
  | zero => exact fun _ _ _ _ hfit => absurd hfit id
  | succ depth ih =>
    intro t id c log h hid hc hfit
    obtain ⟨o, cs⟩ := c
    obtain ⟨rfl, hcs⟩ := shows_node.1 hc
    -- the children are taken one after the other, and each leaves the others
    have hfold : ∀ (ids : List NodeId) (ds : List Content) (log : Log) (t₁ : Tree), Labels t t₁ →
        ids ⊆ t.children id → ids.Pairwise t.Apart → List.Forall₂ t₁.Shows ids ds →
        List.Forall₂ (ids.foldl (p.deriveIdsTo depth) (log, t₁)).2.Shows ids
            (ds.map (Value.derived p))
          ∧ ∀ x, (∀ i ∈ ids, ¬ t.Within i x) →
            (ids.foldl (p.deriveIdsTo depth) (log, t₁)).2.own x = t₁.own x := by
      intro ids
      induction ids with
      | nil =>
        intro ds log t₁ _ _ _ hds
        cases hds
        exact ⟨.nil, fun _ _ => rfl⟩
      | cons i ids ih' =>
        intro ds log t₁ hl hsub hapart hds
        obtain ⟨d, ds, hd, hrestds, rfl⟩ := List.forall₂_cons_left_iff.1 hds
        obtain ⟨hia, hapart⟩ := List.pairwise_cons.1 hapart
        have hi : i ∈ t.children id := hsub List.mem_cons_self
        have hwithin : ∀ {k x}, t₁.Within k x ↔ t.Within k x := within_congr hl.children_eq
        obtain ⟨hs, hout⟩ := ih log (hl.wellFormed h) (hl.size_eq ▸ h.lt_of_mem hi) hd
          ((hfit i hi).congr hl.children_eq)
        have hstep := p.labels_deriveIdsTo depth (log, t₁) i
        obtain ⟨hrest, hrestout⟩ := ih' ds (p.deriveIdsTo depth (log, t₁) i).1
          (p.deriveIdsTo depth (log, t₁) i).2 (hl.trans hstep)
          (List.subset_of_cons_subset hsub) hapart
          (forall₂_shows_congr hrestds fun k hk x hx => ⟨hout x fun hix =>
            h.not_within_of_apart (hia k hk) (hwithin.1 hix) (hwithin.1 hx), hstep.children_eq x⟩)
        have hrestlabels : Labels (p.deriveIdsTo depth (log, t₁) i).2
            (ids.foldl (p.deriveIdsTo depth) (p.deriveIdsTo depth (log, t₁) i)).2 :=
          p.labels_foldl_deriveIdsTo depth ids _
        refine ⟨.cons (hs.congr fun x hx => ⟨hrestout x fun k hk hkx => ?_,
          hrestlabels.children_eq x⟩) hrest, fun x hx => ?_⟩
        · exact h.not_within_of_apart (hia k hk)
            (hwithin.1 ((within_congr hstep.children_eq).1 hx)) hkx
        · exact (hrestout x fun k hk => hx k (List.mem_cons_of_mem i hk)).trans
            (hout x fun hix => hx i List.mem_cons_self (hwithin.1 hix))
    obtain ⟨hkids, hout⟩ := hfold (t.children id) cs log t (.refl t) (List.Subset.refl _)
      (h.pairwise_apart_children id) hcs
    have hl := p.labels_foldl_deriveIdsTo depth (t.children id) (log, t)
    generalize hstep : (t.children id).foldl (p.deriveIdsTo depth) (log, t) = step at hkids hout hl
    obtain ⟨log', t₁⟩ := step
    have hself : t₁.own id = t.own id := hout id fun i hi => h.not_within_of_mem hi
    have hid₁ : id < t₁.size := hl.size_eq ▸ hid
    have hrecast := recast_deriveId (p := p) (hl.wellFormed h) hid₁
      (hl.children_eq id ▸ hkids) log'
    have hshows : t₁.Shows id (.node (t.own id) (cs.map (Value.derived p))) :=
      shows_node.2 ⟨hself, hl.children_eq id ▸ hkids⟩
    rw [Processor.deriveIdsTo, hstep, Value.derived_node]
    refine ⟨hrecast.shows_self (hl.wellFormed h) hshows, fun x hx => ?_⟩
    rw [hrecast.own_ne (by rintro rfl; exact hx .refl)]
    exact hout x fun i hi hix => hx ((Within.refl.child hi).trans hix)

/-- **The second pass shows what it should.** -/
theorem shows_deriveIds (h : t.WellFormed) (hid : id < t.size) (hc : t.Shows id c) :
    (p.deriveIds t id).2.Shows id (Value.derived p c) :=
  (shows_deriveIdsTo [] h hid hc (h.fitsIn_size hid)).1

/-- **What is written after the second pass.** -/
theorem toList_innerHtml_deriveIds (h : t.WellFormed) (hid : id < t.size) (hc : t.Shows id c) :
    ((p.deriveIds t id).2.innerHtml id).toList
      = (Value.derived p c).children.flatMap Content.written :=
  ((p.labels_deriveIds t id).wellFormed h).toList_innerHtml (shows_deriveIds h hid hc).children

end PageSlots.Page
