import PageSlots.Proofs.Content.Draft

/-!
# The reader of the pool follows the draft

`Builder.Follows t b z` says that the builder `b`, which started on the
pool `t`, has read what the draft `z` has: what stands under its innermost
open element shows what the draft calls finished, the open elements stand
each as the last child of the next, and no node of `t` has been touched.
Each step of reading keeps this (`Follows.addText`, `Follows.close`,
`Follows.add`), so the whole run does (`Builder.follows_read`).
-/

namespace PageSlots.Markup

open PageSlots.Text

namespace Tree

variable {t₀ t t' : Tree} {a r x holder id : NodeId} {o : Own} {ids opened : List NodeId}
variable {cs : List Content} {outer : List (Own × List Content)}

/-- **New nodes have only new nodes below them**, if the old ones are
untouched. -/
theorem WellFormed.le_of_within (h₀ : t₀.WellFormed) (h : t.WellFormed)
    (hn : ∀ x < t₀.size, t.node x = t₀.node x) (hw : t.Within a x) (ha : t₀.size ≤ a) :
    t₀.size ≤ x := by
  induction hw with
  | refl => exact ha
  | @child p c _ hc ih =>
    by_contra hlt
    have hp : t₀.parent c = some p := by
      have := (h.parent_iff c p).2 hc
      unfold parent at this ⊢
      rwa [hn c (Nat.lt_of_not_le hlt)] at this
    exact Nat.not_le_of_lt (h₀.lt_of_parent hp) ih

/-- What stands below the last child of a node is apart from the children
before it. -/
theorem WellFormed.apart_of_last (h : t.WellFormed) (hch : t.children a = ids ++ [id])
    (hr : t.Within id r) (hx : x ∈ ids) : t.Apart r x := by
  have hid : id ∈ t.children a := hch ▸ List.mem_append_right _ List.mem_cons_self
  have hxm : x ∈ t.children a := hch ▸ List.mem_append_left _ hx
  have hne : id ≠ x := by
    rintro rfl
    have := h.nodup_children a
    rw [hch] at this
    exact (List.nodup_append.1 this).2.2 _ hx _ List.mem_cons_self rfl
  have hapart := h.apart_of_mem_children hid hxm hne
  exact ⟨fun hw => hapart.left (hr.trans hw), fun hw => h.not_within_of_apart hapart hr hw⟩

/-- What is done below the last child of a node leaves the child list. -/
theorem Confined.children_of_last (hc : Confined [r] t t') (h : t.WellFormed)
    (hch : t.children a = ids ++ [id]) (hr : t.Within id r) : t'.children a = ids ++ [id] := by
  have hid : id ∈ t.children a := hch ▸ List.mem_append_right _ List.mem_cons_self
  rw [hc.children_eq (lt_of_mem_children hid), hch]
  exact List.forall_mem_singleton.2 fun hw => h.not_within_of_mem hid (hr.trans hw)

/-- **The open elements of a fragment stand each as the last child of the
next**, the outermost one of the holder. Each is described by its own data
and by what stands before it. -/
inductive Encloses (t : Tree) (holder : NodeId) :
    List NodeId → List (Own × List Content) → Prop where
  /-- No element is open. -/
  | nil : Encloses t holder [] []
  /-- One more element is open inside the others. -/
  | cons {id : NodeId} {ids before : List NodeId} {cs : List Content}
      {outer : List (Own × List Content)} :
      t.children (ids.head?.getD holder) = before ++ [id] → List.Forall₂ t.Shows before cs →
      Encloses t holder ids outer → Encloses t holder (id :: ids) ((t.own id, cs) :: outer)

namespace Encloses

/-- The innermost open element stands below the holder. -/
theorem within (h : t.Encloses holder opened outer) :
    t.Within holder (opened.head?.getD holder) := by
  induction h with
  | nil => exact .refl
  | cons hc _ _ ih => exact ih.child (hc ▸ List.mem_append_right _ List.mem_cons_self)

/-- **The open elements are not changed by what is done inside the
innermost one.** -/
theorem confined (h : t.Encloses holder opened outer) (hwf : t.WellFormed)
    (hc : Confined [r] t t') (hr : t.Within (opened.head?.getD holder) r)
    (ho : t'.own r = t.own r) : t'.Encloses holder opened outer := by
  induction h with
  | nil => exact .nil
  | @cons id ids before cs outer hch hcs _ ih =>
    replace hr : t.Within id r := hr
    have hid : id ∈ t.children (ids.head?.getD holder) :=
      hch ▸ List.mem_append_right _ List.mem_cons_self
    have hown : t'.own id = t.own id := by
      by_cases he : id = r
      · rw [he, ho]
      · exact hc.own_eq (hwf.lt_of_mem hid) (List.forall_mem_singleton.2 fun hw =>
          he (hwf.within_antisymm hr hw))
    rw [← hown]
    have hcs' : List.Forall₂ t'.Shows before cs := by
      refine List.forall₂_iff_zip.2 ⟨hcs.length_eq, fun {b c} hb => ?_⟩
      have hbm := (List.of_mem_zip hb).1
      exact hc.shows hwf (hwf.lt_of_mem (hch ▸ List.mem_append_left _ hbm))
        (List.forall_mem_singleton.2 (hwf.apart_of_last hch hr hbm)) (List.forall₂_zip hcs hb)
    exact .cons (hc.children_of_last hwf hch hr) hcs' (ih ((Within.refl.child hid).trans hr))

end Encloses

end Tree

open PageSlots.Markup.Tree

/-- **A builder has read what a draft has**, and left the nodes of the pool
it started on alone. -/
structure Builder.Follows (t : Tree) (b : Builder) (z : Draft) : Prop where
  /-- The tree is well formed. -/
  wellFormed : b.tree.WellFormed
  /-- The holder is the first node that was created. -/
  holder_eq : b.holder = t.size
  /-- It is there. -/
  holder_lt : b.holder < b.tree.size
  /-- It is detached. -/
  parent_holder : b.tree.parent b.holder = none
  /-- The old nodes are untouched. -/
  node_eq : ∀ x < t.size, b.tree.node x = t.node x
  /-- The children of the innermost open element show what is finished. -/
  done : List.Forall₂ b.tree.Shows (b.tree.children b.current) z.done
  /-- The open elements are those of the draft. -/
  outer : b.tree.Encloses b.holder b.opened z.outer
  /-- There is the same to tell. -/
  log_eq : b.log = z.log

namespace Builder.Follows

variable {t t' : Tree} {b : Builder} {z : Draft} {o : Own} {id : NodeId}
variable {cs : List Content}

theorem within_current (h : b.Follows t z) : b.tree.Within b.holder b.current :=
  h.outer.within

theorem current_lt (h : b.Follows t z) : b.current < b.tree.size :=
  h.wellFormed.lt_of_within h.holder_lt h.within_current

/-- The innermost open element is new. -/
theorem le_current (h : b.Follows t z) (ht : t.WellFormed) : t.size ≤ b.current :=
  ht.le_of_within h.wellFormed h.node_eq h.within_current (Nat.le_of_eq h.holder_eq.symm)

/-- **A change inside the innermost open element** is a change of what is
finished there. -/
theorem update (h : b.Follows t z) (ht : t.WellFormed) (hwf : t'.WellFormed)
    (hc : Confined [b.current] b.tree t') (ho : t'.own b.current = b.tree.own b.current)
    (hd : List.Forall₂ t'.Shows (t'.children b.current) cs) :
    Follows t { b with tree := t' } { z with done := cs } where
  wellFormed := hwf
  holder_eq := h.holder_eq
  holder_lt := Nat.lt_of_lt_of_le h.holder_lt hc.size_le
  parent_holder := by
    by_cases he : b.holder = b.current
    · show t'.parent b.holder = none
      rw [he, hc.parent_eq _ List.mem_cons_self, ← he, h.parent_holder]
    · show t'.parent b.holder = none
      rw [hc.parent_eq_of_outside h.holder_lt, h.parent_holder]
      exact List.forall_mem_singleton.2 fun hw =>
        he (h.wellFormed.within_antisymm h.within_current hw)
  node_eq x hx := by
    rw [← h.node_eq x hx]
    refine hc.node_eq x (Nat.lt_trans (Nat.lt_of_lt_of_eq hx h.holder_eq.symm) h.holder_lt) ?_
    exact List.forall_mem_singleton.2 fun hw =>
      Nat.not_le_of_lt hx (ht.le_of_within h.wellFormed h.node_eq hw (h.le_current ht))
  done := hd
  outer := h.outer.confined h.wellFormed hc .refl ho
  log_eq := h.log_eq

/-- A node that is created and not attached is not seen. -/
theorem adds (h : b.Follows t z) (ht : t.WellFormed) (ha : Adds o b.tree t')
    (hn : o.names.Nodup) : Follows t { b with tree := t' } z := by
  have hdone : List.Forall₂ t'.Shows (t'.children b.current) z.done := by
    rw [ha.children_eq]
    refine forall₂_shows_congr h.done fun i hi x hx => ⟨?_, ha.children_eq x⟩
    rw [ha.own_eq, if_neg]
    exact Nat.ne_of_lt (h.wellFormed.lt_of_within (h.wellFormed.lt_of_mem hi) hx)
  refine h.update ht (ha.wellFormed h.wellFormed hn) (ha.confined _) ?_ hdone
  rw [ha.own_eq, if_neg (Nat.ne_of_lt h.current_lt)]

/-- The children of the innermost open element, once a new node is
attached. -/
theorem children_current (h : b.Follows t z) (ha : Adds o b.tree t') (hn : o.names.Nodup) :
    (t'.appendChild b.current b.tree.size).children b.current
      = b.tree.children b.current ++ [b.tree.size] := by
  unfold appendChild
  rw [ha.children_insertChild h.wellFormed hn h.current_lt, if_pos rfl, ha.children_eq,
    Nat.min_self, List.insertIdx_length_self]

/-- No other child list changes. -/
theorem children_of_ne (h : b.Follows t z) (ha : Adds o b.tree t') (hn : o.names.Nodup)
    {x : NodeId} (hx : x ≠ b.current) :
    (t'.appendChild b.current b.tree.size).children x = b.tree.children x := by
  unfold appendChild
  rw [ha.children_insertChild h.wellFormed hn h.current_lt, if_neg hx]

/-- **A new node that is attached is finished last.** -/
theorem attach (h : b.Follows t z) (ht : t.WellFormed) (ha : Adds o b.tree t')
    (hn : o.names.Nodup) :
    Follows t { b with tree := t'.appendChild b.current b.tree.size } (z.push (.node o [])) := by
  have hown : ∀ x, (t'.appendChild b.current b.tree.size).own x
      = if x = b.tree.size then o else b.tree.own x := fun x => by
    rw [own_appendChild, ha.own_eq]
  have hne : b.tree.size ≠ b.current := Nat.ne_of_gt h.current_lt
  refine h.update ht (ha.wellFormed_insertChild h.wellFormed hn h.current_lt _)
    (ha.confined_insertChild h.wellFormed hn h.current_lt _ .refl) ?_ ?_
  · exact (hown _).trans (if_neg (Ne.symm hne))
  · show List.Forall₂ _ ((t'.appendChild b.current b.tree.size).children b.current) _
    rw [h.children_current ha hn]
    refine List.rel_append ?_ (.cons ?_ .nil)
    · refine forall₂_shows_congr h.done fun i hi x hx => ⟨?_, h.children_of_ne ha hn ?_⟩
      · rw [hown, if_neg]
        exact Nat.ne_of_lt (h.wellFormed.lt_of_within (h.wellFormed.lt_of_mem hi) hx)
      · rintro rfl
        exact h.wellFormed.not_within_of_mem hi hx
    · refine shows_node.2 ⟨(hown _).trans (if_pos rfl), ?_⟩
      rw [h.children_of_ne ha hn hne, children_of_le (Nat.le_refl _)]
      exact .nil

/-- **Entering the element that was attached last.** -/
theorem enter (h : b.Follows t (z.push (.node o [])))
    (hid : (b.tree.children b.current).getLast? = some id) :
    Follows t { b with opened := id :: b.opened } (z.enter o) := by
  obtain ⟨before, hb⟩ := List.getLast?_eq_some_iff.1 hid
  have hd := h.done
  rw [hb] at hd
  obtain ⟨hd, hid⟩ := forall₂_concat.1 hd
  obtain ⟨ho, hkids⟩ := shows_node.1 hid
  rw [← ho]
  exact { h with
    done := hkids
    outer := .cons hb hd h.outer }

/-- **Closing the innermost element.** -/
theorem leave {opened : List NodeId} {before : List Content} {outer : List (Own × List Content)}
    (h : b.Follows t z) (hb : b.opened = id :: opened) (hz : z.outer = (o, before) :: outer) :
    b.tree.own id = o ∧ Follows t { b with opened }
      { z with done := before ++ [.node o z.done], outer } := by
  have hd := h.done
  have ho := h.outer
  rw [hb, hz] at ho
  rw [current, hb] at hd
  cases ho with
  | cons hch hcs ho =>
    refine ⟨rfl, { h with done := ?_, outer := ho }⟩
    show List.Forall₂ b.tree.Shows (b.tree.children (opened.head?.getD b.holder)) _
    rw [hch]
    exact List.rel_append hcs (.cons (.node hd) .nil)

/-- **An edit of the node that is finished last.** -/
theorem recast_last {f : Own → Own} {ids : List NodeId} {last : NodeId} {c : Content}
    (h : b.Follows t z) (ht : t.WellFormed) (hlast : b.tree.children b.current = ids ++ [last])
    (hz : z.done = cs ++ [c]) (hr : Recast last f b.tree t') (hn : (f c.own).names.Nodup) :
    Follows t { b with tree := t' } { z with done := cs ++ [c.mapOwn f] } := by
  have hd := h.done
  rw [hlast, hz] at hd
  obtain ⟨hcs, hc⟩ := forall₂_concat.1 hd
  have hmem : last ∈ b.tree.children b.current :=
    hlast ▸ List.mem_append_right _ List.mem_cons_self
  have hids : List.Forall₂ t'.Shows ids cs := by
    refine List.forall₂_iff_zip.2 ⟨hcs.length_eq, fun {i c} hi => ?_⟩
    have him := (List.of_mem_zip hi).1
    have hne : last ≠ i := by
      rintro rfl
      have hnd := h.wellFormed.nodup_children b.current
      rw [hlast] at hnd
      exact (List.nodup_append.1 hnd).2.2 _ him _ List.mem_cons_self rfl
    exact hr.shows (h.wellFormed.not_within_sibling (p := b.current)
      (hlast ▸ List.mem_append_left _ him) hmem (Ne.symm hne)) (List.forall₂_zip hcs hi)
  have hcurrent : b.current ≠ last := fun he =>
    h.wellFormed.not_within_of_mem hmem (he ▸ .refl)
  refine h.update ht (h.wellFormed.recast hr (hc.own_eq.symm ▸ hn))
    (hr.confined (Within.refl.child hmem)) (hr.own_ne hcurrent) ?_
  rw [hr.children_eq, hlast]
  exact List.rel_append hids (.cons (hr.shows_self h.wellFormed hc) .nil)

/-- **Adding character data**, to a text that is finished last if there is
one. -/
theorem addText (h : b.Follows t z) (ht : t.WellFormed) (text : List Char) :
    Follows t (b.addText text) (z.addText text) := by
  unfold Builder.addText Draft.addText
  split
  · exact h
  · have hnew : Follows t (Builder.attach { b with tree := (b.tree.createText _).2 } b.tree.size)
        (z.push (.ofText text)) :=
      h.attach ht (adds_createText b.tree _) List.nodup_nil
    have hd := h.done
    rcases List.eq_nil_or_concat (b.tree.children b.current) with hnil | ⟨ids, last, hlast⟩
    · rw [hnil] at hd ⊢
      rw [List.forall₂_nil_left_iff.1 hd]
      exact hnew
    · rw [List.concat_eq_append] at hlast
      rw [hlast] at hd ⊢
      obtain ⟨cs, c, hzd⟩ : ∃ cs c, z.done = cs ++ [c] := by
        rcases List.eq_nil_or_concat z.done with hz | ⟨cs, c, hz⟩
        · rw [hz] at hd
          simpa using hd.length_eq
        · exact ⟨cs, c, hz.trans (List.concat_eq_append ..)⟩
      rw [hzd] at hd ⊢
      obtain ⟨-, hc⟩ := forall₂_concat.1 hd
      obtain ⟨o, kids⟩ := c
      rw [List.getLast?_append, List.getLast?_append]
      dsimp only [List.getLast?_singleton, Option.some_or]
      rw [kind_eq_own, hc.own_eq, Content.own_node]
      split
      · rw [List.dropLast_concat]
        have hmem : last ∈ b.tree.children b.current :=
          hlast ▸ List.mem_append_right _ List.mem_cons_self
        have hr := recast_pushText (h.wellFormed.lt_of_mem hmem) (String.ofList text)
        have ho : b.tree.own last = o := hc.own_eq
        have hn : o.names.Nodup := ho ▸ h.wellFormed.nodup_names last
        exact h.recast_last ht hlast hzd hr hn
      · exact hnew

end Builder.Follows

/-! ## Elements -/

theorem Own.nodup_names_addAttribute {o : Own} (attr : List Char × List Char)
    (h : o.names.Nodup) : (o.addAttribute attr).names.Nodup := by
  unfold Own.addAttribute
  dsimp only
  split
  · exact h
  · exact Own.nodup_names_setAttr _ _ h

/-- The attributes of an element that is read have distinct names. -/
theorem Own.nodup_names_ofTag (content : List Char) : (Own.ofTag content).names.Nodup := by
  have hfold : ∀ (attrs : List (List Char × List Char)) (o : Own), o.names.Nodup →
      (attrs.foldl Own.addAttribute o).names.Nodup := by
    intro attrs
    induction attrs with
    | nil => exact fun _ h => h
    | cons attr attrs ih => exact fun o h => ih _ (Own.nodup_names_addAttribute attr h)
  exact hfold _ _ List.nodup_nil

namespace Builder

variable {t : Tree} {b : Builder} {z : Draft} {content : List Char}

theorem recast_addAttribute {id : NodeId} (h : id < t.size) (attr : List Char × List Char) :
    Recast id (fun o => o.addAttribute attr) t (addAttribute id t attr) := by
  unfold addAttribute
  dsimp only
  split
  · rename_i ha
    refine Recast.refl ?_
    unfold Own.addAttribute
    exact if_pos ha
  · rename_i ha
    refine (recast_setAttr h _ _).congr ?_
    unfold Own.addAttribute
    exact (if_neg ha).symm

/-- **The element of a tag is created with all its attributes**, and is
then attached unless one of them is at fault. -/
theorem addElement_eq (b : Builder) (content : List Char) :
    ∃ t', Adds (Own.ofTag content) b.tree t' ∧
      b.addElement content = match Own.ofTag? content with
        | .error fault => (.error fault, { b with tree := t' })
        | .ok _ => (.ok b.tree.size, attach { b with tree := t' } b.tree.size) := by
  have hfold : ∀ (attrs : List (List Char × List Char)) (o : Own) (t' : Tree),
      Adds o b.tree t' → Adds (attrs.foldl Own.addAttribute o) b.tree
        (attrs.foldl (addAttribute b.tree.size) t') := by
    intro attrs
    induction attrs with
    | nil => exact fun _ _ h => h
    | cons attr attrs ih =>
      exact fun o t' h => ih _ _ (h.recast (recast_addAttribute h.lt_size attr))
  refine ⟨_, hfold (readAttributes (tagAttributes content)).1 _ _
    (adds_createElement b.tree (String.ofList (asciiLower (tagName content)))), ?_⟩
  unfold addElement Own.ofTag?
  generalize readAttributes (tagAttributes content) = r
  obtain ⟨attrs, fault⟩ := r
  cases fault <;> rfl

/-- **A tag with a fault** leaves an element that nobody sees. -/
theorem addElement_of_error {fault : MarkupFault} (h : b.Follows t z) (ht : t.WellFormed)
    (ho : Own.ofTag? content = .error fault) :
    ∃ b', b.addElement content = (.error fault, b') ∧ b'.Follows t z := by
  obtain ⟨t', hadds, hb⟩ := addElement_eq b content
  rw [ho] at hb
  exact ⟨_, hb, h.adds ht hadds (Own.nodup_names_ofTag content)⟩

/-- **The element of a tag** is finished last, under the number that is
returned. -/
theorem addElement_of_ok {o : Own} (h : b.Follows t z) (ht : t.WellFormed)
    (ho : Own.ofTag? content = .ok o) :
    ∃ id b', b.addElement content = (.ok id, b') ∧ b'.Follows t (z.push (.node o []))
      ∧ (b'.tree.children b'.current).getLast? = some id ∧ b'.tree.tag id = o.tag := by
  obtain ⟨t', hadds, hb⟩ := addElement_eq b content
  have hnodup := Own.nodup_names_ofTag content
  rw [ho] at hb
  have hoo : o = Own.ofTag content := by
    unfold Own.ofTag? at ho
    split at ho
    · cases ho
    · injection ho with ho
      exact ho.symm
  rw [hoo]
  refine ⟨_, _, hb, h.attach ht hadds hnodup, ?_, ?_⟩
  · exact (congrArg List.getLast? (h.children_current hadds hnodup)).trans List.getLast?_concat
  · exact congrArg Own.tag (((own_appendChild ..).trans (hadds.own_eq _)).trans (if_pos rfl))

end Builder

/-! ## The steps of reading -/

namespace Builder.Follows

variable {t : Tree} {b : Builder} {z : Draft}

/-- Closing up to an element with a tag, if one is open. -/
theorem closeIn (h : b.Follows t z) (tag : String) :
    match Draft.closeIn tag z.done z.outer with
    | some (done, outer) => ∃ id opened, b.opened.dropWhile (!b.isOpened tag ·) = id :: opened
        ∧ Follows t { b with opened } { z with done, outer }
    | none => b.opened.dropWhile (!b.isOpened tag ·) = [] := by
  obtain ⟨tree, holder, opened, log⟩ := b
  obtain ⟨done, outer, zlog⟩ := z
  induction outer generalizing opened done with
  | nil =>
    have ho := h.outer
    cases ho
    rfl
  | cons e outer ih =>
    obtain ⟨o, before⟩ := e
    obtain ⟨id, opened, rfl⟩ : ∃ id ids, opened = id :: ids := by
      have ho := h.outer
      cases ho
      exact ⟨_, _, rfl⟩
    obtain ⟨hown, hleave⟩ := h.leave rfl rfl
    have htag : tree.tag id = o.tag := congrArg Own.tag hown
    rw [Draft.closeIn, List.dropWhile_cons]
    unfold Builder.isOpened
    dsimp only
    rw [htag]
    by_cases he : o.tag = tag
    · rw [if_pos he, if_neg (by simp [he])]
      exact ⟨id, opened, rfl, hleave⟩
    · rw [if_neg he, if_pos (by simp [he])]
      -- the element is finished, as a child of the next one
      exact ih opened _ hleave

/-- **Closing an element.** -/
theorem close (h : b.Follows t z) (tag : String) : Follows t (b.close tag) (z.close tag) := by
  have hc := h.closeIn tag
  unfold Builder.close Draft.close
  cases hz : Draft.closeIn tag z.done z.outer with
  | some closed =>
    obtain ⟨done, outer⟩ := closed
    rw [hz] at hc
    obtain ⟨id, opened, hb, hf⟩ := hc
    rw [hb]
    exact hf
  | none =>
    rw [hz] at hc
    rw [show b.opened.dropWhile _ = [] from hc]
    exact { h with log_eq := congrArg (· ++ _) h.log_eq }

/-- Telling of what is open at the end. -/
theorem finish (h : b.Follows t z) : Follows t b.finish z.finish := by
  obtain ⟨tree, holder, opened, log⟩ := b
  obtain ⟨done, outer, zlog⟩ := z
  have ho := h.outer
  unfold Builder.finish Draft.finish
  cases ho with
  | nil => exact h
  | cons _ _ _ => exact { h with log_eq := congrArg (· ++ _) h.log_eq }

/-- **What hangs from the holder** at the end is what has been read. -/
theorem contents (h : b.Follows t z) :
    List.Forall₂ b.tree.Shows (b.tree.children b.holder) z.contents := by
  obtain ⟨tree, holder, opened, log⟩ := b
  obtain ⟨done, outer, zlog⟩ := z
  unfold Draft.contents
  induction outer generalizing opened done with
  | nil =>
    have ho := h.outer
    cases ho
    exact h.done
  | cons e outer ih =>
    obtain ⟨o, before⟩ := e
    obtain ⟨id, opened, rfl⟩ : ∃ id ids, opened = id :: ids := by
      have ho := h.outer
      cases ho
      exact ⟨_, _, rfl⟩
    exact ih opened _ (h.leave rfl rfl).2

/-- **Adding a construct.** -/
theorem add (h : b.Follows t z) (ht : t.WellFormed) (construct : Construct) (rest : List Char) :
    (b.add construct rest).1 = (z.add construct rest).1
      ∧ Follows t (b.add construct rest).2 (z.add construct rest).2 := by
  cases construct with
  | startTag content =>
    unfold Builder.add Draft.add
    dsimp only
    cases ho : Own.ofTag? content with
    | error fault =>
      obtain ⟨b', hr, hb⟩ := addElement_of_error h ht ho
      rw [hr]
      exact ⟨rfl, hb⟩
    | ok o =>
      obtain ⟨id, b', hr, hb, hlast, htag⟩ := addElement_of_ok h ht ho
      rw [hr]
      dsimp only
      rw [htag]
      split
      · exact ⟨rfl, (hb.enter hlast).addText ht _⟩
      · split
        · exact ⟨rfl, hb⟩
        · exact ⟨rfl, hb.enter hlast⟩
  | emptyTag content =>
    unfold Builder.add Draft.add
    dsimp only
    cases ho : Own.ofTag? content with
    | error fault =>
      obtain ⟨b', hr, hb⟩ := addElement_of_error h ht ho
      rw [hr]
      exact ⟨rfl, hb⟩
    | ok o =>
      obtain ⟨id, b', hr, hb, -, -⟩ := addElement_of_ok h ht ho
      rw [hr]
      exact ⟨rfl, hb⟩
  | endTag name => exact ⟨rfl, h.close _⟩
  | comment text => exact ⟨rfl, h.attach ht (adds_createComment b.tree _) List.nodup_nil⟩
  | characterData text =>
    exact ⟨rfl, h.addText ht ("<![CDATA[".toList ++ text ++ "]]>".toList)⟩
  | skipped => exact ⟨rfl, h⟩

end Builder.Follows

/-! ## The whole run -/

namespace Builder

variable {t : Tree} {b : Builder} {z : Draft}

section Read

variable {text before text' rest : List Char} {c : Char} {construct : Construct}

theorem read_of_end (h : breakAtConstruct text = (before, [])) (b : Builder) (total : Nat) :
    b.read total text = (none, (b.addText before).finish) := by
  rw [read]
  grind

theorem read_of_error {offset : Nat} {fault : ConstructFault}
    (h : breakAtConstruct text = (before, c :: text'))
    (hr : readConstruct text' = .error (offset, fault)) (b : Builder) (total : Nat) :
    b.read total text
      = (some (.malformed (total - byteLength (c :: text') + offset) fault),
          b.addText before) := by
  rw [read]
  grind

theorem read_of_ok (h : breakAtConstruct text = (before, c :: text'))
    (hr : readConstruct text' = .ok (construct, rest)) (b : Builder) (total : Nat) :
    b.read total text
      = match (b.addText before).add construct rest with
        | (.error fault, b') => (some fault, b')
        | (.ok next, b') => b'.read total next := by
  rw [read]
  grind

end Read

/-- **A builder that follows a draft reads what the draft reads**, to the
same fault if there is one. -/
theorem follows_read (h : b.Follows t z) (ht : t.WellFormed) (total : Nat) (text : List Char) :
    (b.read total text).1 = (z.read total text).1
      ∧ Follows t (b.read total text).2 (z.read total text).2 := by
  revert z
  induction b, text using Builder.read.induct with
  | case1 b text before hb =>
    intro z h
    rw [read_of_end hb, Draft.read_of_end hb]
    exact ⟨rfl, (h.addText ht before).finish⟩
  | case2 b text before c after hb offset fault hr =>
    intro z h
    rw [read_of_error hb hr, Draft.read_of_error hb hr]
    exact ⟨rfl, h.addText ht before⟩
  | case3 b text before c after hb b₁ construct rest hr fault b₂ =>
    rename_i ha
    intro z h
    obtain ⟨hfst, hadd⟩ := (h.addText ht before).add ht construct rest
    rw [read_of_ok hb hr, Draft.read_of_ok hb hr]
    rcases hz : (z.addText before).add construct rest with ⟨result, z'⟩
    rw [ha, hz] at hfst hadd
    rw [ha]
    dsimp only at hfst hadd ⊢
    subst hfst
    exact ⟨rfl, hadd⟩
  | case4 b text before c after hb b₁ construct rest hr next b₂ ha =>
    rename_i ih
    intro z h
    obtain ⟨hfst, hadd⟩ := (h.addText ht before).add ht construct rest
    rw [read_of_ok hb hr, Draft.read_of_ok hb hr]
    rcases hz : (z.addText before).add construct rest with ⟨result, z'⟩
    rw [ha, hz] at hfst hadd
    rw [ha]
    dsimp only at hfst hadd ⊢
    subst hfst
    exact ih hadd

end Builder

end PageSlots.Markup
