import PageSlots.Proofs.Content.Fragment
import PageSlots.Proofs.Content.Parsed
import PageSlots.Proofs.Content.Walk

/-!
# Numbers in document order

Reading never puts a node anywhere but behind all others: a new node
becomes the last child of the innermost open element, and the open
elements stand each as the last child of the next. So the walk from the
holder, which lists a node before what stands below it, has the new node
at its end (`Encloses.descendants_append`), and what hangs from the holder
is numbered in document order without a gap (`Builder.InOrder`). Elements
that are closed, text that joins the text before it and constructs that
are dropped change nothing about that.

A fault among the attributes of a tag leaves a number to a node that hangs
nowhere. That is why only markup without fault is numbered so.
-/

namespace PageSlots.Markup

open PageSlots.Text

namespace Tree

variable {t t' : Tree} {r holder : NodeId} {opened : List NodeId}
variable {outer : List (Own × List Content)}

/-- **What comes last in the innermost open element comes last of all**: if
its list grows at the end, so does that of the holder. -/
theorem Encloses.descendants_append {l : List NodeId} (h : t.Encloses holder opened outer)
    (hwf : t.WellFormed) (hwf' : t'.WellFormed) (hc : Confined [r] t t')
    (hr : t.Within (opened.head?.getD holder) r)
    (hd : t'.descendants (opened.head?.getD holder)
      = t.descendants (opened.head?.getD holder) ++ l) :
    t'.descendants holder = t.descendants holder ++ l := by
  induction h with
  | nil => exact hd
  | @cons id ids before cs outer hch _ _ ih =>
    replace hr : t.Within id r := hr
    replace hd : t'.descendants id = t.descendants id ++ l := hd
    have hid : id ∈ t.children (ids.head?.getD holder) :=
      hch ▸ List.mem_append_right _ List.mem_cons_self
    have hp := lt_of_mem_children hid
    have hbefore : before.flatMap t'.descendants = before.flatMap t.descendants :=
      List.flatMap_congr fun x hx => hc.descendants_eq hwf
        (hwf.lt_of_mem (hch ▸ List.mem_append_left _ hx))
        (List.forall_mem_singleton.2 (hwf.apart_of_last hch hr hx))
    refine ih ((Within.refl.child hid).trans hr) ?_
    rw [hwf'.descendants_eq (Nat.lt_of_lt_of_le hp hc.size_le), hwf.descendants_eq hp,
      hc.children_of_last hwf hch hr, hch, List.flatMap_append, List.flatMap_append, hbefore,
      List.flatMap_singleton, List.flatMap_singleton, hd]
    simp

end Tree

open PageSlots.Markup.Tree

/-- **What hangs from the holder is numbered in document order**, from the
holder's number on and up to the last number there is. -/
def Builder.InOrder (b : Builder) : Prop :=
  b.tree.descendants b.holder = List.range' b.holder (b.tree.size - b.holder)

namespace Builder.InOrder

variable {t t' : Tree} {b b' : Builder} {z : Draft} {o : Own}

/-- **A new node that is attached is the next one.** -/
theorem attach (hb : b.InOrder) (h : b.Follows t z) (ha : Adds o b.tree t') (hn : o.names.Nodup) :
    InOrder { b with tree := t'.appendChild b.current b.tree.size } := by
  have hwf := h.wellFormed
  have hwf' : (t'.appendChild b.current b.tree.size).WellFormed :=
    ha.wellFormed_insertChild hwf hn h.current_lt _
  have hsize : (t'.appendChild b.current b.tree.size).size = b.tree.size + 1 :=
    (size_appendChild ..).trans ha.size_eq
  have hc : Confined [b.current] b.tree (t'.appendChild b.current b.tree.size) :=
    ha.confined_insertChild hwf hn h.current_lt _ .refl
  have hnew : (t'.appendChild b.current b.tree.size).descendants b.tree.size = [b.tree.size] := by
    rw [hwf'.descendants_eq (hsize ▸ Nat.lt_succ_self _),
      h.children_of_ne ha hn (Nat.ne_of_gt h.current_lt),
      children_of_le (Nat.le_refl _)]
    rfl
  have hold : (b.tree.children b.current).flatMap
        (t'.appendChild b.current b.tree.size).descendants
      = (b.tree.children b.current).flatMap b.tree.descendants := by
    refine List.flatMap_congr fun i hi => ?_
    refine hwf.descendants_congr (hwf.lt_of_mem hi) hc.size_le fun x hx =>
      h.children_of_ne ha hn ?_
    rintro rfl
    exact hwf.not_within_of_mem hi hx
  have hcurrent : (t'.appendChild b.current b.tree.size).descendants b.current
      = b.tree.descendants b.current ++ [b.tree.size] := by
    have hlt := h.current_lt
    rw [hwf'.descendants_eq (Nat.lt_of_lt_of_le hlt hc.size_le), hwf.descendants_eq hlt,
      h.children_current ha hn,
      List.flatMap_append, hold, List.flatMap_singleton, hnew]
    rfl
  have hholder := h.holder_lt
  show (t'.appendChild b.current b.tree.size).descendants b.holder = List.range' b.holder
    ((t'.appendChild b.current b.tree.size).size - b.holder)
  rw [h.outer.descendants_append hwf hwf' hc .refl hcurrent, hb, hsize,
    Nat.sub_add_comm (Nat.le_of_lt hholder), List.range'_1_concat,
    Nat.add_sub_of_le (Nat.le_of_lt hholder)]

/-- An edit of own data renumbers nothing. -/
theorem recast {id : NodeId} {f : Own → Own} (hb : b.InOrder) (h : b.Follows t z)
    (hr : Recast id f b.tree t') : InOrder { b with tree := t' } := by
  show t'.descendants b.holder = List.range' b.holder (t'.size - b.holder)
  rw [h.wellFormed.descendants_congr h.holder_lt (Nat.le_of_eq hr.size_eq.symm) fun x _ =>
    hr.children_eq x, hr.size_eq]
  exact hb

theorem addText (hb : b.InOrder) (h : b.Follows t z) (text : List Char) :
    (b.addText text).InOrder := by
  unfold Builder.addText
  split
  · exact hb
  · have hnew := hb.attach h (adds_createText b.tree (String.ofList text)) List.nodup_nil
    dsimp only
    split
    · rename_i last hlast
      split
      · exact hb.recast h
          (recast_pushText (h.wellFormed.lt_of_mem (List.mem_of_getLast? hlast)) _)
      · exact hnew
    · exact hnew

theorem addElement {content : List Char} {id : NodeId} (hb : b.InOrder) (h : b.Follows t z)
    (he : b.addElement content = (.ok id, b')) : b'.InOrder := by
  obtain ⟨t', hadds, heq⟩ := addElement_eq b content
  rw [he] at heq
  split at heq
  · cases heq
  · obtain ⟨-, rfl⟩ := Prod.mk.inj heq
    exact hb.attach h hadds (Own.nodup_names_ofTag content)

/-- Closing elements renumbers nothing. -/
theorem close (hb : b.InOrder) (tag : String) : (b.close tag).InOrder := by
  unfold Builder.close
  split <;> exact hb

theorem finish (hb : b.InOrder) : b.finish.InOrder := by
  unfold Builder.finish
  split <;> exact hb

/-- **A construct that is added** is numbered behind all that is there. -/
theorem add {construct : Construct} {rest next : List Char} (hb : b.InOrder) (h : b.Follows t z)
    (ht : t.WellFormed) (ha : b.add construct rest = (.ok next, b')) : b'.InOrder := by
  cases construct with
  | startTag content =>
    unfold Builder.add at ha
    dsimp only at ha
    cases ho : Own.ofTag? content with
    | error fault =>
      obtain ⟨b₁, hr, -⟩ := addElement_of_error h ht ho
      rw [hr] at ha
      cases ha
    | ok o =>
      obtain ⟨id, b₁, hr, hf, hlast, -⟩ := addElement_of_ok h ht ho
      have hb₁ := hb.addElement h hr
      rw [hr] at ha
      dsimp only at ha
      split at ha
      · cases ha
        exact addText (show InOrder { b₁ with opened := id :: b₁.opened } from hb₁)
          (hf.enter hlast) _
      · split at ha <;> cases ha <;> exact hb₁
  | emptyTag content =>
    unfold Builder.add at ha
    dsimp only at ha
    split at ha
    · cases ha
    · cases ha
      exact hb.addElement h ‹_›
  | endTag name =>
    cases ha
    exact hb.close _
  | comment text =>
    cases ha
    exact hb.attach h (adds_createComment b.tree _) List.nodup_nil
  | characterData text =>
    cases ha
    exact hb.addText h _
  | skipped =>
    cases ha
    exact hb

/-- **Markup without fault is numbered in document order.** -/
theorem read {total : Nat} {text : List Char} (hb : b.InOrder) (h : ∃ z, b.Follows t z)
    (ht : t.WellFormed) (hok : (b.read total text).1 = none) : (b.read total text).2.InOrder := by
  induction b, text using Builder.read.induct with
  | case1 b text before hbreak =>
    obtain ⟨z, h⟩ := h
    rw [read_of_end hbreak]
    exact (hb.addText h before).finish
  | case2 b text before c after hbreak offset fault hr =>
    rw [read_of_error hbreak hr] at hok
    cases hok
  | case3 b text before c after hbreak b₁ construct rest hr fault b₂ ha =>
    rw [read_of_ok hbreak hr, ha] at hok
    cases hok
  | case4 b text before c after hbreak b₁ construct rest hr next b₂ ha ih =>
    obtain ⟨z, h⟩ := h
    have hf := h.addText ht before
    have hadded := (hf.add ht construct rest).2
    rw [ha] at hadded
    rw [read_of_ok hbreak hr, ha] at hok ⊢
    exact ih ((hb.addText h before).add hf ht ha) ⟨_, hadded⟩ hok

end Builder.InOrder

namespace Tree

variable {t : Tree} {p : NodeId} {markup : String} {ids : List NodeId}

/-- The builder that starts on a pool has only the holder. -/
theorem WellFormed.inOrder_start (h : t.WellFormed) :
    Builder.InOrder { tree := t.createDocument.2, holder := t.size } := by
  have ha := adds_createDocument t
  show t.createDocument.2.descendants t.size
    = List.range' t.size (t.createDocument.2.size - t.size)
  rw [(ha.wellFormed h List.nodup_nil).descendants_eq ha.lt_size, ha.children_eq,
    children_of_le (Nat.le_refl _), ha.size_eq, Nat.add_sub_cancel_left]
  rfl

/-- **A fragment is numbered in document order.** The nodes that are read
into a tree have the numbers behind the holder's, without a gap and up to
the last one, in the order in which a walk comes to them. -/
theorem WellFormed.flatMap_descendants_readInto (h : t.WellFormed) (hp : p < t.size)
    (hok : (t.readInto p markup).nodes = .ok ids) :
    t.size + 1 ≤ (t.readInto p markup).tree.size
      ∧ ids.flatMap (t.readInto p markup).tree.descendants
        = List.range' (t.size + 1) ((t.readInto p markup).tree.size - (t.size + 1)) := by
  obtain ⟨b, z, hf, -, hr⟩ := h.readInto_cases p markup
  split at hr
  · rw [hr] at hok
    cases hok
  · obtain ⟨hread, -, hr⟩ := hr
    have hb : b.InOrder := by
      have hrun := h.inOrder_start.read ⟨_, h.follows_start⟩ h (congrArg Prod.fst hread)
      rwa [hread] at hrun
    rw [hr] at hok ⊢
    cases hok
    dsimp only
    have hholder := hf.holder_lt
    have hlists : (b.tree.children b.holder).flatMap
          (b.tree.appendChildren p (b.tree.children b.holder)).descendants
        = (b.tree.children b.holder).flatMap b.tree.descendants :=
      List.flatMap_congr fun i hi => hf.wellFormed.descendants_congr (hf.wellFormed.lt_of_mem hi)
        (Nat.le_of_eq (size_appendChildren ..).symm) fun x hx =>
          h.children_appendContents_of_within hf hp hi hx
    have hsucc : b.tree.size - b.holder = (b.tree.size - (b.holder + 1)) + 1 :=
      (Nat.succ_pred_eq_of_pos (Nat.sub_pos_of_lt hholder)).symm
    unfold Builder.InOrder at hb
    rw [hf.wellFormed.descendants_eq hholder, hsucc, List.range'_succ] at hb
    rw [size_appendChildren, hlists, ← hf.holder_eq]
    exact ⟨hholder, (List.cons.inj hb).2⟩

end Tree

end PageSlots.Markup
