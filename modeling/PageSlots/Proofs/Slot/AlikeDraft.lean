import PageSlots.Proofs.Content.Draft
import PageSlots.Proofs.Slot.Spelling

/-!
# Reading on from alike drafts

Two drafts are alike if what has been read into them is the same but for
the spelling of markers. What is inside a region is the same: in the
contents that stand finished, and in the elements that are open.

The same text is read alike into both, with faults at the same places. It
closes the same elements, and a text is joined to the one before it in both
or in neither, because respelled elements have the same tags and are no
texts.
-/

namespace PageSlots.Markup

open PageSlots.Markup.Tree PageSlots.Page PageSlots.Text

/-! ## Rows of contents -/

namespace Content

/-- **Two rows of contents are alike**, and inside a region they are the
same. -/
def AlikeIn (region : Prop) (cs cs' : List Content) : Prop :=
  List.Forall₂ Alike cs cs' ∧ (region → cs = cs')

namespace AlikeIn

variable {region : Prop} {cs cs' : List Content} {c c' : Content}

theorem nil : AlikeIn region [] [] :=
  ⟨.nil, fun _ => rfl⟩

theorem concat (h : AlikeIn region cs cs') (hc : c.Alike c') (hr : region → c = c') :
    AlikeIn region (cs ++ [c]) (cs' ++ [c']) :=
  ⟨forall₂_concat.2 ⟨h.1, hc⟩, fun hin => by rw [h.2 hin, hr hin]⟩

/-- Alike rows are empty, or each is another row and a last content. -/
theorem cases_concat (h : AlikeIn region cs cs') :
    cs = [] ∧ cs' = [] ∨ ∃ ds ds' d d', cs = ds ++ [d] ∧ cs' = ds' ++ [d']
      ∧ AlikeIn region ds ds' ∧ d.Alike d' ∧ (region → d = d') := by
  rcases List.eq_nil_or_concat cs with rfl | ⟨ds, d, rfl⟩
  · exact .inl ⟨rfl, List.forall₂_nil_left_iff.1 h.1⟩
  · rcases List.eq_nil_or_concat cs' with rfl | ⟨ds', d', rfl⟩
    · exact absurd (List.forall₂_nil_right_iff.1 h.1) (by simp)
    · rw [List.concat_eq_append, List.concat_eq_append] at h ⊢
      obtain ⟨hall, hin⟩ := h
      obtain ⟨hds, hd⟩ := forall₂_concat.1 hall
      exact .inr ⟨ds, ds', d, d', rfl, rfl, ⟨hds, fun hr => (List.append_inj' (hin hr) rfl).1⟩, hd,
        fun hr => (List.cons.inj (List.append_inj' (hin hr) rfl).2).1⟩

end AlikeIn

end Content

/-! ## Drafts -/

namespace Draft

/-- Whether one of the open elements is a region. -/
def InRegion (outer : List (Own × List Content)) : Prop :=
  ∃ e ∈ outer, regionOf e.1.tag ≠ none

/-- **The open elements of two drafts are alike**, each with what stands
finished before it. -/
inductive AlikeOuter : List (Own × List Content) → List (Own × List Content) → Prop where
  /-- No element is open. -/
  | nil : AlikeOuter [] []
  /-- The innermost elements are alike, and so is what is around them. -/
  | cons {o o' : Own} {before before' : List Content} {outer outer' : List (Own × List Content)} :
      o.Alike o' → (InRegion outer → o = o') → Content.AlikeIn (InRegion outer) before before' →
      AlikeOuter outer outer' → AlikeOuter ((o, before) :: outer) ((o', before') :: outer')

/-- **Two drafts are alike.** -/
structure Alike (z z' : Draft) : Prop where
  /-- So is what stands finished in the innermost element. -/
  done : Content.AlikeIn (InRegion z.outer) z.done z'.done
  /-- So are the open elements. -/
  outer : AlikeOuter z.outer z'.outer
  /-- The same has been told. -/
  log_eq : z.log = z'.log

theorem AlikeOuter.refl (outer : List (Own × List Content)) : AlikeOuter outer outer := by
  induction outer with
  | nil => exact .nil
  | cons e outer ih =>
    exact .cons (.inl rfl) (fun _ => rfl) ⟨Content.Alike.refl_list _, fun _ => rfl⟩ ih

namespace Alike

variable {z z' : Draft} {o o' : Own} {c c' : Content} {done done' before before' : List Content}
variable {outer outer' : List (Own × List Content)} {log : Log}

theorem refl (z : Draft) : z.Alike z :=
  ⟨⟨Content.Alike.refl_list _, fun _ => rfl⟩, .refl _, rfl⟩

theorem push (h : z.Alike z') (hc : c.Alike c') (hr : InRegion z.outer → c = c') :
    (z.push c).Alike (z'.push c') :=
  ⟨h.done.concat hc hr, h.outer, h.log_eq⟩

theorem enter (h : z.Alike z') (ho : o.Alike o') (hr : InRegion z.outer → o = o') :
    (z.enter o).Alike (z'.enter o') :=
  ⟨.nil, .cons ho hr h.done h.outer, h.log_eq⟩

/-- Text is added to both, or joined to the same text. -/
theorem addText (h : z.Alike z') (text : List Char) : (z.addText text).Alike (z'.addText text) := by
  have hpush := h.push (.refl (.ofText text)) fun _ => rfl
  unfold Draft.addText
  split
  · exact h
  · rcases h.done.cases_concat with ⟨hnil, hnil'⟩ | ⟨ds, ds', d, d', hds, hds', hbefore, hd, hr⟩
    · rw [hnil, hnil']
      exact hpush
    · obtain ⟨o, cs⟩ := d
      obtain ⟨o', cs'⟩ := d'
      obtain ⟨ho, hcs, hregion⟩ := Content.alike_node.1 hd
      rw [hds, hds', List.getLast?_concat, List.getLast?_concat]
      dsimp only
      rw [← ho.kind_eq]
      split
      · rename_i hk
        -- a text is not respelled
        obtain rfl : o = o' := by
          rcases ho with he | hrespelled
          · exact he
          · cases hrespelled
            cases hk
        rw [List.dropLast_concat, List.dropLast_concat]
        refine ⟨hbefore.concat (.node (.inl rfl) hcs hregion) fun hin => ?_, h.outer, h.log_eq⟩
        cases hr hin
        rfl
      · exact hpush

/-- The innermost elements are closed. -/
theorem leave (h : Draft.Alike ⟨done, (o, before) :: outer, log⟩
      ⟨done', (o', before') :: outer', log⟩) :
    Draft.Alike ⟨before ++ [.node o done], outer, log⟩ ⟨before' ++ [.node o' done'], outer', log⟩ := by
  obtain ⟨⟨hall, hin⟩, houter, -⟩ := h
  dsimp only at hall hin
  cases houter with
  | cons ho hr hbefore hrest =>
    refine ⟨hbefore.concat (.node ho hall fun hne => ?_) fun hregion => ?_, hrest, rfl⟩
    · exact hin ⟨_, List.mem_cons_self, hne⟩
    · obtain ⟨e, he, hne⟩ := hregion
      rw [hr ⟨e, he, hne⟩, hin ⟨e, List.mem_cons_of_mem _ he, hne⟩]

/-- **An end tag** closes the same elements in both. -/
theorem close (h : z.Alike z') (tag : String) : (z.close tag).Alike (z'.close tag) := by
  obtain ⟨done, outer, log⟩ := z
  obtain ⟨done', outer', log'⟩ := z'
  obtain rfl : log = log' := h.log_eq
  have hclose : closeIn tag done outer = none ∧ closeIn tag done' outer' = none
      ∨ ∃ d w d' w', closeIn tag done outer = some (d, w) ∧ closeIn tag done' outer' = some (d', w')
        ∧ Draft.Alike ⟨d, w, log⟩ ⟨d', w', log⟩ := by
    induction outer generalizing done done' outer' with
    | nil =>
      cases h.outer
      exact .inl ⟨rfl, rfl⟩
    | cons e outer ih =>
      have houter := h.outer
      cases houter with
      | cons ho _ _ _ =>
        rw [closeIn, closeIn, ← ho.tag_eq]
        split
        · exact .inr ⟨_, _, _, _, rfl, rfl, h.leave⟩
        · exact ih _ _ _ h.leave
  unfold Draft.close
  rcases hclose with ⟨hc, hc'⟩ | ⟨d, w, d', w', hc, hc', halike⟩
  · rw [hc, hc']
    exact ⟨h.done, h.outer, rfl⟩
  · rw [hc, hc']
    exact halike

theorem finish (h : z.Alike z') : z.finish.Alike z'.finish := by
  obtain ⟨done, outer, log⟩ := z
  obtain ⟨done', outer', log'⟩ := z'
  have houter := h.outer
  cases houter with
  | nil => exact h
  | cons ho _ _ _ =>
    refine ⟨h.done, h.outer, ?_⟩
    show log ++ _ = log' ++ _
    rw [show log = log' from h.log_eq, ho.tag_eq]

/-- **The contents of alike drafts are alike.** -/
theorem contents (h : z.Alike z') : List.Forall₂ Content.Alike z.contents z'.contents := by
  obtain ⟨done, outer, log⟩ := z
  obtain ⟨done', outer', log'⟩ := z'
  obtain rfl : log = log' := h.log_eq
  unfold Draft.contents
  induction outer generalizing done done' outer' with
  | nil =>
    cases h.outer
    exact h.done.1
  | cons e outer ih =>
    have houter := h.outer
    cases houter with
    | cons _ _ _ _ =>
      rw [closeAll, closeAll]
      exact ih _ _ _ h.leave

end Alike

/-! ## Reading -/

/-- **Two tags are read as alike elements**, or both have faults. -/
inductive TagsAlike (region : Prop) : Except MarkupFault Own → Except MarkupFault Own → Prop where
  /-- The elements are alike, and in a region the same. -/
  | ok {o o' : Own} : o.Alike o' → (region → o = o') → TagsAlike region (.ok o) (.ok o')
  /-- The faults may differ in their places. -/
  | error (fault fault' : MarkupFault) : TagsAlike region (.error fault) (.error fault')

/-- **What is added leaves alike drafts** and the same text to read, or
there are two faults. -/
inductive AddedAlike : Except MarkupFault (List Char) × Draft →
    Except MarkupFault (List Char) × Draft → Prop where
  /-- Reading goes on from alike drafts. -/
  | ok (next : List Char) {z z' : Draft} : z.Alike z' → AddedAlike (.ok next, z) (.ok next, z')
  /-- It ends. -/
  | error (fault fault' : MarkupFault) (z z' : Draft) :
      AddedAlike (.error fault, z) (.error fault', z')

/-- **Two texts are read to alike drafts**, or there are two faults. -/
inductive ReadAlike : Option MarkupFault × Draft → Option MarkupFault × Draft → Prop where
  /-- Both are read to the end. -/
  | none {z z' : Draft} : z.Alike z' → ReadAlike (none, z) (none, z')
  /-- Neither is. -/
  | some (fault fault' : MarkupFault) (z z' : Draft) : ReadAlike (some fault, z) (some fault', z')

theorem TagsAlike.refl (region : Prop) (r : Except MarkupFault Own) : TagsAlike region r r := by
  cases r with
  | error fault => exact .error fault fault
  | ok o => exact .ok (.inl rfl) fun _ => rfl

namespace Alike

variable {z z' : Draft} {content content' : List Char}

/-- **Two start tags** that are read as alike elements are added alike. -/
theorem add_startTag (h : z.Alike z')
    (ht : TagsAlike (InRegion z.outer) (Own.ofTag? content) (Own.ofTag? content'))
    (rest : List Char) :
    AddedAlike (z.add (.startTag content) rest) (z'.add (.startTag content') rest) := by
  unfold Draft.add
  dsimp only
  generalize Own.ofTag? content = r at ht
  generalize Own.ofTag? content' = r' at ht
  cases ht with
  | error fault fault' => exact .error fault fault' z z'
  | ok ho hr =>
    dsimp only
    rw [← ho.tag_eq]
    split
    · exact .ok _ ((h.enter ho hr).addText _)
    · split
      · exact .ok rest (h.push (.node ho .nil fun _ => rfl) fun hin => by rw [hr hin])
      · exact .ok rest (h.enter ho hr)

theorem add_emptyTag (h : z.Alike z')
    (ht : TagsAlike (InRegion z.outer) (Own.ofTag? content) (Own.ofTag? content'))
    (rest : List Char) :
    AddedAlike (z.add (.emptyTag content) rest) (z'.add (.emptyTag content') rest) := by
  unfold Draft.add
  dsimp only
  generalize Own.ofTag? content = r at ht
  generalize Own.ofTag? content' = r' at ht
  cases ht with
  | error fault fault' => exact .error fault fault' z z'
  | ok ho hr => exact .ok rest (h.push (.node ho .nil fun _ => rfl) fun hin => by rw [hr hin])

/-- **A construct** is added alike. -/
theorem add (h : z.Alike z') (construct : Construct) (rest : List Char) :
    AddedAlike (z.add construct rest) (z'.add construct rest) := by
  cases construct with
  | startTag content => exact h.add_startTag (.refl _ _) rest
  | emptyTag content => exact h.add_emptyTag (.refl _ _) rest
  | endTag name => exact .ok rest (h.close _)
  | comment text => exact .ok rest (h.push (.refl _) fun _ => rfl)
  | characterData text => exact .ok rest (h.addText _)
  | skipped => exact .ok rest h

/-- **The same text is read alike** into alike drafts. -/
theorem read (h : z.Alike z') (total total' : Nat) (text : List Char) :
    ReadAlike (z.read total text) (z'.read total' text) := by
  revert z'
  induction z, text using Draft.read.induct with
  | case1 z text before hb =>
    intro z' h
    rw [read_of_end hb, read_of_end hb]
    exact .none (h.addText before).finish
  | case2 z text before c after hb offset fault hr =>
    intro z' h
    rw [read_of_error hb hr, read_of_error hb hr]
    exact .some _ _ _ _
  | case3 z text before c after hb z₁ construct rest hr fault z₂ =>
    rename_i ha
    intro z' h
    have hadded := (h.addText before).add construct rest
    rw [ha] at hadded
    rw [read_of_ok hb hr, read_of_ok hb hr, ha]
    generalize (z'.addText before).add construct rest = s' at hadded
    cases hadded with
    | error fault fault' => exact .some fault fault' _ _
  | case4 z text before c after hb z₁ construct rest hr next z₂ ha =>
    rename_i ih
    intro z' h
    have hadded := (h.addText before).add construct rest
    rw [ha] at hadded
    rw [read_of_ok hb hr, read_of_ok hb hr, ha]
    generalize (z'.addText before).add construct rest = s' at hadded
    cases hadded with
    | ok next hw => exact ih hw

end Alike

end Draft

end PageSlots.Markup
