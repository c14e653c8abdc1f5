import PageSlots.Proofs.Content.Reading

/-!
# Reading a fragment into a tree

The pool is not needed to know what a fragment is. Reading a fragment into
a well-formed tree appends new nodes that show `Content.parse` of the
fragment (`WellFormed.readInto_of_ok`), or leaves every node as it is if
that is a fault (`WellFormed.readInto_of_error`). In both cases there is
to tell what `Content.parse` tells.
-/

namespace PageSlots.Markup

open PageSlots.Text

namespace Tree

variable {t t' : Tree} {p x : NodeId} {markup : String} {ids roots : List NodeId}
variable {cs : List Content} {fault : MarkupFault}

/-- **One tree is another with new nodes under an old one**, after the
children it had, and the new nodes show some contents. -/
structure Receives (p : NodeId) (ids : List NodeId) (cs : List Content) (t t' : Tree) : Prop where
  /-- The tree is well formed. -/
  wellFormed : t'.WellFormed
  /-- No node goes. -/
  size_le : t.size ≤ t'.size
  /-- Every other old node stays as it is. -/
  node_eq : ∀ x < t.size, x ≠ p → t'.node x = t.node x
  /-- The old node keeps its own data. -/
  own_eq : t'.own p = t.own p
  /-- It keeps its parent. -/
  parent_eq : t'.parent p = t.parent p
  /-- It has the new children after the old ones. -/
  children_eq : t'.children p = t.children p ++ ids
  /-- These are new. -/
  le_of_mem : ∀ id ∈ ids, t.size ≤ id
  /-- They show the contents. -/
  shows : List.Forall₂ t'.Shows ids cs

theorem Receives.confined (h : Receives p ids cs t t') : Confined [p] t t' where
  size_le := h.size_le
  node_eq x hx hr := h.node_eq x hx (by
    rintro rfl
    exact hr x List.mem_cons_self .refl)
  parent_eq r hr := by rw [List.mem_singleton.1 hr, h.parent_eq]

/-- Old nodes keep their own data. -/
theorem Receives.own_eq_of_lt (h : Receives p ids cs t t') (hx : x < t.size) :
    t'.own x = t.own x := by
  by_cases hxp : x = p
  · rw [hxp]
    exact h.own_eq
  · unfold own kind tag attrs text
    rw [h.node_eq x hx hxp]

/-- The builder that starts on a pool has read nothing. -/
theorem WellFormed.follows_start (h : t.WellFormed) :
    Builder.Follows t { tree := t.createDocument.2, holder := t.size } {} := by
  have ha := adds_createDocument t
  exact {
    wellFormed := ha.wellFormed h List.nodup_nil
    holder_eq := rfl
    holder_lt := ha.lt_size
    parent_holder := (ha.parent_eq _).trans (parent_of_le (Nat.le_refl _))
    node_eq := fun _ hx => ha.node_eq hx
    done := by
      show List.Forall₂ _ (t.createDocument.2.children t.size) []
      rw [ha.children_eq, children_of_le (Nat.le_refl _)]
      exact .nil
    outer := .nil
    log_eq := rfl }

/-- **What reading a fragment does**, by what the fragment is: a builder
has read it, and its result is handed over or dropped. -/
theorem WellFormed.readInto_cases (h : t.WellFormed) (p : NodeId) (markup : String) :
    ∃ b z, Builder.Follows t b z ∧ z.log = (Content.parse markup).2 ∧
      match (Content.parse markup).1 with
      | .error fault => t.readInto p markup = ⟨.error fault, b.tree, b.log⟩
      | .ok cs => Builder.read { tree := t.createDocument.2, holder := t.size }
            (byteLength markup.toList) markup.toList = (none, b)
          ∧ cs = z.contents ∧ t.readInto p markup
            = ⟨.ok (b.tree.children b.holder), b.tree.appendChildren p (b.tree.children b.holder),
                b.log⟩ := by
  obtain ⟨hfst, hf⟩ := Builder.follows_read h.follows_start h (byteLength markup.toList)
    markup.toList
  refine ⟨_, _, hf, ?_⟩
  have hholder := hf.holder_eq
  unfold Content.parse readInto
  dsimp only
  rw [show (t.createDocument).1 = t.size from rfl]
  rcases hb : Builder.read { tree := t.createDocument.2, holder := t.size }
    (byteLength markup.toList) markup.toList with ⟨f, b⟩
  rcases hz : Draft.read {} (byteLength markup.toList) markup.toList with ⟨f', z⟩
  rw [hb, hz] at hfst
  rw [hb] at hholder
  dsimp only at hfst hholder
  subst hfst
  rw [hholder]
  cases f <;> simp

/-- There is to tell what the fragment says. -/
theorem WellFormed.log_readInto (h : t.WellFormed) (p : NodeId) (markup : String) :
    (t.readInto p markup).log = (Content.parse markup).2 := by
  obtain ⟨b, z, hf, hlog, hr⟩ := h.readInto_cases p markup
  rw [← hlog, ← hf.log_eq]
  split at hr
  · rw [hr]
  · rw [hr.2.2]

/-- **A fragment with a fault** leaves every node as it is. -/
theorem WellFormed.readInto_of_error (h : t.WellFormed) (p : NodeId)
    (hp : (Content.parse markup).1 = .error fault) :
    (t.readInto p markup).nodes = .error fault ∧ (t.readInto p markup).tree.WellFormed
      ∧ Confined [] t (t.readInto p markup).tree := by
  obtain ⟨b, z, hf, -, hr⟩ := h.readInto_cases p markup
  rw [hp] at hr
  dsimp only at hr
  rw [hr]
  exact ⟨rfl, hf.wellFormed, {
    size_le := Nat.le_of_lt (hf.holder_eq ▸ hf.holder_lt)
    node_eq := fun x hx _ => hf.node_eq x hx
    parent_eq := nofun }⟩

/-- What a builder has read is new, with all that stands below. -/
theorem WellFormed.le_of_within_contents {b : Builder} {z : Draft} (h : t.WellFormed)
    (hf : Builder.Follows t b z) {id x : NodeId} (hid : id ∈ b.tree.children b.holder)
    (hx : b.tree.Within id x) : t.size ≤ x :=
  h.le_of_within hf.wellFormed hf.node_eq ((Within.refl.child hid).trans hx)
    (Nat.le_of_eq hf.holder_eq.symm)

section HandOver

variable {b : Builder} {z : Draft} (h : t.WellFormed) (hf : Builder.Follows t b z)
include h hf

/-- No old node stands below what a builder has read. -/
theorem WellFormed.not_within_contents {id : NodeId} (hid : id ∈ b.tree.children b.holder)
    (hx : x < t.size) : ¬ b.tree.Within id x := fun hw =>
  Nat.not_le_of_lt hx (h.le_of_within_contents hf hid hw)

variable (hp : p < t.size)
include hp

/-- What a builder has read can be put under an old node. -/
theorem WellFormed.appendable_contents :
    p < b.tree.size ∧ ∀ id ∈ b.tree.children b.holder, id < b.tree.size ∧ ¬ b.tree.Within id p :=
  ⟨Nat.lt_trans hp (hf.holder_eq ▸ hf.holder_lt), fun _ hid =>
    ⟨hf.wellFormed.lt_of_mem hid, h.not_within_contents hf hid hp⟩⟩

/-- **Outside the holder only the list of the old node changes** when it is
given what has been read. -/
theorem WellFormed.children_appendContents (hx : x ≠ b.holder) :
    (b.tree.appendChildren p (b.tree.children b.holder)).children x
      = if x = p then b.tree.children x ++ b.tree.children b.holder else b.tree.children x := by
  obtain ⟨hps, hids⟩ := h.appendable_contents hf hp
  rw [children_appendChildren hf.wellFormed hps hids (hf.wellFormed.nodup_children b.holder),
    hf.wellFormed.filter_children_of_subset (List.Subset.refl _) hx]

/-- What stands below what has been read keeps its children. -/
theorem WellFormed.children_appendContents_of_within {id : NodeId}
    (hid : id ∈ b.tree.children b.holder) (hx : b.tree.Within id x) :
    (b.tree.appendChildren p (b.tree.children b.holder)).children x = b.tree.children x := by
  rw [h.children_appendContents hf hp, if_neg]
  · rintro rfl
    exact h.not_within_contents hf hid hp hx
  · rintro rfl
    exact hf.wellFormed.not_within_of_mem hid hx

/-- **An old node that is given what a builder has read** receives what the
draft has finished. -/
theorem WellFormed.receives_appendChildren :
    Receives p (b.tree.children b.holder) z.contents t
      (b.tree.appendChildren p (b.tree.children b.holder)) := by
  have hsize : t.size < b.tree.size := hf.holder_eq ▸ hf.holder_lt
  obtain ⟨hps, hids⟩ := h.appendable_contents hf hp
  have hch : ∀ x < t.size, (b.tree.appendChildren p (b.tree.children b.holder)).children x
      = if x = p then b.tree.children x ++ b.tree.children b.holder else b.tree.children x :=
    fun x hx => h.children_appendContents hf hp (Nat.ne_of_lt (hf.holder_eq ▸ hx))
  have hpar : ∀ x < t.size,
      (b.tree.appendChildren p (b.tree.children b.holder)).parent x = b.tree.parent x :=
    fun x hx => (parent_appendChildren (fun id hid => (hids id hid).1) p x).trans
      (if_neg fun hm => h.not_within_contents hf hm hx .refl)
  refine {
    wellFormed := hf.wellFormed.appendChildren hps hids
    size_le := by rw [size_appendChildren]; exact Nat.le_of_lt hsize
    node_eq := fun x hx hxp => ?_
    own_eq := ?_
    parent_eq := ?_
    children_eq := ?_
    le_of_mem := fun id hid => h.le_of_within_contents hf hid .refl
    shows := ?_ }
  · rw [← hf.node_eq x hx]
    exact node_ext (own_appendChildren ..) ((hch x hx).trans (if_neg hxp)) (hpar x hx)
  · rw [own_appendChildren]
    unfold own kind tag attrs text
    rw [hf.node_eq p hp]
  · rw [hpar p hp]
    unfold parent
    rw [hf.node_eq p hp]
  · rw [hch p hp, if_pos rfl]
    unfold children
    rw [hf.node_eq p hp]
  · exact forall₂_shows_congr hf.contents fun i hi x hx =>
      ⟨own_appendChildren .., h.children_appendContents_of_within hf hp hi hx⟩

end HandOver

/-- **A fragment without fault** is appended to its parent. -/
theorem WellFormed.readInto_of_ok (h : t.WellFormed) (hp : p < t.size)
    (hcs : (Content.parse markup).1 = .ok cs) :
    ∃ ids, (t.readInto p markup).nodes = .ok ids
      ∧ Receives p ids cs t (t.readInto p markup).tree := by
  obtain ⟨b, z, hf, -, hr⟩ := h.readInto_cases p markup
  rw [hcs] at hr
  obtain ⟨-, rfl, hr⟩ := hr
  rw [hr]
  exact ⟨_, rfl, h.receives_appendChildren hf hp⟩

/-- A fragment that is appended is without fault. -/
theorem WellFormed.receives_of_ok (h : t.WellFormed) (hp : p < t.size)
    (hids : (t.readInto p markup).nodes = .ok ids) :
    ∃ cs, (Content.parse markup).1 = .ok cs ∧ Receives p ids cs t (t.readInto p markup).tree := by
  cases hcs : (Content.parse markup).1 with
  | error fault => cases hids.symm.trans (h.readInto_of_error p hcs).1
  | ok cs =>
    obtain ⟨ids', hids', hreceives⟩ := h.readInto_of_ok hp hcs
    obtain rfl := Except.ok.inj (hids.symm.trans hids')
    exact ⟨cs, rfl, hreceives⟩

end Tree

open PageSlots.Markup.Tree in
/-- **A fragment in a tree of its own** hangs from node zero, a document,
and is what `Content.parse` says. -/
theorem readFragment_eq (markup : String) :
    match (Content.parse markup).1 with
    | .error fault => (readFragment markup).nodes = .error fault
    | .ok cs => (∃ ids, (readFragment markup).nodes = .ok ids)
        ∧ (readFragment markup).tree.WellFormed ∧ 0 < (readFragment markup).tree.size
        ∧ (readFragment markup).tree.Shows 0 (.node { kind := .document } cs) := by
  have ha := adds_createDocument Tree.empty
  have hwf := ha.wellFormed wellFormed_empty List.nodup_nil
  unfold readFragment
  dsimp only
  split
  · rename_i fault hp
    exact (hwf.readInto_of_error 0 hp).1
  · rename_i cs hp
    obtain ⟨ids, hn, hr⟩ := hwf.readInto_of_ok (p := 0) ha.lt_size hp
    refine ⟨⟨ids, hn⟩, hr.wellFormed, Nat.lt_of_lt_of_le ha.lt_size hr.size_le,
      shows_node.2 ⟨?_, ?_⟩⟩
    · exact hr.own_eq.trans ((ha.own_eq 0).trans (if_pos rfl))
    · have hc := hr.children_eq
      rw [(ha.children_eq 0).trans (children_of_le (Nat.zero_le _)), List.nil_append] at hc
      exact hc.symm ▸ hr.shows

/-- A fragment that is read hangs from a document. -/
theorem readFragment_of_ok {markup : String} {ids : List NodeId}
    (h : (readFragment markup).nodes = .ok ids) :
    (readFragment markup).tree.WellFormed ∧ 0 < (readFragment markup).tree.size
      ∧ ∃ cs, (readFragment markup).tree.Shows 0 (.node { kind := .document } cs) := by
  have hr := readFragment_eq markup
  split at hr
  · rw [hr] at h
    cases h
  · exact ⟨hr.2.1, hr.2.2.1, _, hr.2.2.2⟩

open PageSlots.Markup.Tree in
/-- Nothing stands above the document of a fragment, and what has been read
hangs from it. -/
theorem root_readFragment {markup : String} {ids : List NodeId}
    (h : (readFragment markup).nodes = .ok ids) :
    (readFragment markup).tree.parent 0 = none ∧ (readFragment markup).tree.children 0 = ids := by
  have ha := adds_createDocument Tree.empty
  obtain ⟨_, -, hr⟩ :=
    (ha.wellFormed wellFormed_empty List.nodup_nil).receives_of_ok (p := 0) ha.lt_size h
  have hchildren : Tree.empty.createDocument.2.children 0 = [] :=
    (ha.children_eq 0).trans (children_of_le (Nat.zero_le _))
  refine ⟨hr.parent_eq.trans ((ha.parent_eq 0).trans (parent_of_le (Nat.zero_le _))),
    hr.children_eq.trans ?_⟩
  rw [hchildren, List.nil_append]

theorem parent_readFragment {markup : String} {ids : List NodeId}
    (h : (readFragment markup).nodes = .ok ids) : (readFragment markup).tree.parent 0 = none :=
  (root_readFragment h).1

/-- **Markup reads as contents**: it is well formed, and what hangs from
the document of its fragment shows them. -/
def ReadsAs (markup : String) (cs : List Content) : Prop :=
  (∃ ids, (readFragment markup).nodes = .ok ids)
    ∧ (readFragment markup).tree.Shows 0 (.node { kind := .document } cs)

theorem ReadsAs.parse_eq {markup : String} {cs : List Content} (h : ReadsAs markup cs) :
    (Content.parse markup).1 = .ok cs := by
  obtain ⟨⟨ids, hok⟩, hs⟩ := h
  have hr := readFragment_eq markup
  split at hr
  · rw [hok] at hr
    cases hr
  · rename_i ds hp
    cases hs.unique hr.2.2.2
    exact hp

end PageSlots.Markup
