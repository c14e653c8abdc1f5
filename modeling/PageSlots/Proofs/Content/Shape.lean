import PageSlots.Proofs.Content.Numbering

/-!
# The shape of a fragment

What has been read (`Content.IsRead`) has its shape at every node, and so
has the tree that shows it: only the root is a document, texts and comments
are leaves without attributes, tags begin with a letter and names are there
once, no two texts stand side by side and a void element is empty
(`Tree.IsReadNode`). Together with the numbers of the nodes, which are
those of the document order, this is what every fragment without fault
gives (`readFragment_inOrder`).
-/

namespace PageSlots.Markup

open PageSlots.Text

/-- What has been read has been read everywhere below. -/
theorem Content.IsRead.everywhere {c : Content} (h : c.IsRead) :
    c.Everywhere fun o cs => (node o cs).IsRead := by
  induction c with
  | node o cs ih =>
    refine .node h fun d hd => ih d hd ?_
    cases h with
    | text _ => cases hd
    | comment _ => cases hd
    | element _ _ _ hcs => exact hcs d hd

namespace Tree

variable {t : Tree} {x : NodeId} {ids : List NodeId} {cs : List Content}

/-- **A node as reading leaves it**, in a tree whose root is node zero. -/
structure IsReadNode (t : Tree) (x : NodeId) : Prop where
  /-- Only the root is a document. -/
  document_iff : t.kind x = .document ↔ x = 0
  /-- A tag begins with a letter and holds no capital letter of ASCII. -/
  tag : t.kind x = .element → ∃ c cs, (t.tag x).toList = c :: cs ∧ c.isAlpha = true
    ∧ ∀ d ∈ c :: cs, d.isUpper = false
  /-- No attribute is there twice. -/
  nodup : (attributeNames (t.attrs x)).Nodup
  /-- No name of one holds a capital letter of ASCII. -/
  lower : ∀ name ∈ attributeNames (t.attrs x), ∀ c ∈ name.toList, c.isUpper = false
  /-- Texts and comments have neither children nor attributes. -/
  leaf : t.kind x = .text ∨ t.kind x = .comment → t.children x = [] ∧ t.attrs x = []
  /-- No text is empty. -/
  text_ne : t.kind x = .text → t.text x ≠ ""
  /-- No two texts stand side by side. -/
  noTextsMeet : (t.children x).IsChain fun a b => ¬ (t.kind a = .text ∧ t.kind b = .text)
  /-- A void element has no children. -/
  void : isVoidTag (t.tag x) = true → t.children x = []

/-- Where no two texts are shown side by side, none stand there. -/
theorem isChain_of_noTextsMeet (h : List.Forall₂ t.Shows ids cs) (hcs : Content.NoTextsMeet cs) :
    ids.IsChain fun a b => ¬ (t.kind a = .text ∧ t.kind b = .text) := by
  have hkinds : ids.map t.kind = cs.map fun c => c.own.kind :=
    map_eq_of_forall₂ h fun _ _ hs => congrArg Own.kind hs.own_eq
  have hchain : (cs.map fun c => c.own.kind).IsChain fun k l => ¬ (k = .text ∧ l = .text) :=
    (List.isChain_map _).2 hcs
  rw [← hkinds] at hchain
  exact (List.isChain_map _).1 hchain

/-- A text or a comment that has been read. -/
theorem isReadNode_of_leaf (hx : x ≠ 0) (hkind : t.kind x = .text ∨ t.kind x = .comment)
    (hchildren : t.children x = []) (hattrs : t.attrs x = [])
    (htext : t.kind x = .text → t.text x ≠ "") : t.IsReadNode x where
  document_iff := by rcases hkind with hkind | hkind <;> simp [hkind, hx]
  tag := by rcases hkind with hkind | hkind <;> simp [hkind]
  nodup := by simp [hattrs]
  lower := by simp [hattrs]
  leaf _ := ⟨hchildren, hattrs⟩
  text_ne := htext
  noTextsMeet := by simp [hchildren]
  void _ := hchildren

/-- **A node that shows what has been read** is as reading leaves it. -/
theorem isReadNode_of_isRead (hx : x ≠ 0) (hs : List.Forall₂ t.Shows (t.children x) cs)
    (h : (Content.node (t.own x) cs).IsRead) : t.IsReadNode x := by
  have hchildren : cs = [] → t.children x = [] := fun he =>
    List.forall₂_nil_right_iff.1 (he ▸ hs)
  generalize ho : t.own x = o at h
  have hkind : t.kind x = o.kind := congrArg Own.kind ho
  have htag : t.tag x = o.tag := congrArg Own.tag ho
  have hattrs : t.attrs x = o.attrs := congrArg Own.attrs ho
  have htext : t.text x = o.text := congrArg Own.text ho
  cases h with
  | text hne =>
    exact isReadNode_of_leaf hx (.inl hkind) (hchildren rfl) hattrs fun _ => htext ▸ hne
  | comment _ =>
    exact isReadNode_of_leaf hx (.inr hkind) (hchildren rfl) hattrs fun he => by
      rw [hkind] at he
      cases he
  | element hstart hvoid hmeet _ =>
    obtain ⟨c, rest, hletters, hlow, hrest⟩ := hstart.tag
    dsimp only at hkind htag hattrs
    exact {
      document_iff := by simp [hkind, hx]
      tag := fun _ => ⟨c, rest, htag ▸ hletters, Bool.or_eq_true_iff.2 (.inr hlow),
        List.forall_mem_cons.2 ⟨IsTagChar.isUpper_eq (.inl hlow), fun d hd => (hrest d hd).1⟩⟩
      nodup := hattrs ▸ hstart.nodup
      lower := fun name hname d hd => ((hstart.name name (hattrs ▸ hname)).char d hd).1
      leaf := by simp [hkind]
      text_ne := by simp [hkind]
      noTextsMeet := isChain_of_noTextsMeet hs hmeet
      void := fun hv => hchildren (hvoid (htag ▸ hv)) }

/-- The root of what has been read. -/
theorem isReadNode_root (h : t.Shows 0 (.node { kind := .document } cs))
    (hcs : Content.NoTextsMeet cs) : t.IsReadNode 0 := by
  obtain ⟨hown, hs⟩ := shows_node.1 h
  have hkind : t.kind 0 = .document := congrArg Own.kind hown
  have htag : t.tag 0 = "" := congrArg Own.tag hown
  have hattrs : t.attrs 0 = [] := congrArg Own.attrs hown
  exact {
    document_iff := by simp [hkind]
    tag := by simp [hkind]
    nodup := by simp [hattrs]
    lower := by simp [hattrs]
    leaf := by simp [hkind]
    text_ne := by simp [hkind]
    noTextsMeet := isChain_of_noTextsMeet hs hcs
    void := fun hv => by
      rw [htag] at hv
      cases hv }

end Tree

open PageSlots.Markup.Tree

variable {markup : String} {ids : List NodeId}

/-- **Every node of a fragment is as reading leaves it.** -/
theorem isReadNode_readFragment (h : (readFragment markup).nodes = .ok ids) {x : NodeId}
    (hx : (readFragment markup).tree.Within 0 x) : (readFragment markup).tree.IsReadNode x := by
  have hread := readFragment_eq markup
  split at hread
  · rw [hread] at h
    cases h
  · rename_i cs hparse
    obtain ⟨-, hwf, -, hshows⟩ := hread
    have hrow := Content.isReadRow_of_parse hparse
    rcases hx.eq_or_exists with rfl | ⟨i, hi, hx⟩
    · exact isReadNode_root hshows hrow.noTextsMeet
    · obtain ⟨-, hkids⟩ := shows_node.1 hshows
      obtain ⟨c, hc, hs⟩ := exists_mem_of_forall₂ hkids.flip hi
      obtain ⟨ds, hds, hnode⟩ := hs.of_everywhere (hrow.isRead c hc).everywhere hx
      refine isReadNode_of_isRead ?_ hds hnode
      rintro rfl
      exact hwf.not_within_of_mem hi hx

/-- **A fragment is a tree in document order.** If markup can be read, the
walk from the root comes to the numbers from two on, one after the other
and to the last one there is; and every node it comes to is as reading
leaves it. The number one is the holder's, which hangs nowhere. -/
theorem readFragment_inOrder (h : (readFragment markup).nodes = .ok ids) :
    2 ≤ (readFragment markup).tree.size
      ∧ (readFragment markup).tree.descendants 0
        = 0 :: List.range' 2 ((readFragment markup).tree.size - 2)
      ∧ ∀ x ∈ (readFragment markup).tree.descendants 0, (readFragment markup).tree.IsReadNode x := by
  obtain ⟨hwf, hpos, -⟩ := readFragment_of_ok h
  have ha := adds_createDocument Tree.empty
  have hstart := ha.wellFormed wellFormed_empty List.nodup_nil
  obtain ⟨hsize, hnumbers⟩ := hstart.flatMap_descendants_readInto (p := 0) ha.lt_size h
  refine ⟨hsize, ?_, fun x hx => isReadNode_readFragment h ((hwf.mem_descendants_iff hpos).1 hx)⟩
  rw [hwf.descendants_eq hpos, (root_readFragment h).2]
  exact congrArg (0 :: ·) hnumbers

/-- A paragraph with a void element in it, and a text behind it. -/
theorem readFragment_inOrder_paragraph :
    (readFragment "<P>a<br>b</p>c").nodes = .ok [2, 6]
      ∧ 2 ≤ (readFragment "<P>a<br>b</p>c").tree.size
      ∧ (readFragment "<P>a<br>b</p>c").tree.descendants 0
        = 0 :: List.range' 2 ((readFragment "<P>a<br>b</p>c").tree.size - 2)
      ∧ ∀ x ∈ (readFragment "<P>a<br>b</p>c").tree.descendants 0,
        (readFragment "<P>a<br>b</p>c").tree.IsReadNode x := by
  have h : (readFragment "<P>a<br>b</p>c").nodes = .ok [2, 6] := by decide +kernel
  exact ⟨h, readFragment_inOrder h⟩

end PageSlots.Markup
