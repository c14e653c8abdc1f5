import Mathlib.Algebra.GroupWithZero.Nat
import Mathlib.Data.List.Forall2
import PageSlots.Markup.Writing
import PageSlots.Proofs.Tree.Subtree

/-!
# Trees as values

The pool names nodes by numbers, and two pools can hold the same page
under different numbers. A `Content` is a node with everything below it as
a value, without any numbers: own data and a list of contents.
`t.Shows id c` says that the subtree of `id` in the pool `t` is `c`.

In a well-formed tree every node shows exactly one content
(`WellFormed.exists_shows`, `Shows.unique`), and what a node shows depends
on its subtree alone (`Shows.congr`, `Confined.shows`). So two subtrees
are equal up to the numbers of their nodes exactly if they show the same
content. The two readers of whole subtrees – the walk in document order
and the writing as markup – are functions of what is shown
(`map_own_walk`, `toList_toHtml`): the bounds on steps and depth that they
carry in the pool are never reached.
-/

namespace PageSlots.Markup

/-- **A node and everything below it, as a value.** -/
inductive Content where
  /-- A node by its own data and what its children show. -/
  | node (own : Own) (children : List Content)
  deriving Inhabited

namespace Content

/-- **Induction on contents**: a statement holds of every content if it
holds of a node whenever it holds of its children. -/
@[elab_as_elim, induction_eliminator]
theorem induct {motive : Content → Prop}
    (node : ∀ own cs, (∀ c ∈ cs, motive c) → motive (.node own cs)) : ∀ c, motive c
  | .node own cs => node own cs fun c _ => induct node c

/-- The own data of the topmost node. -/
def own : Content → Own
  | node o _ => o

/-- What the children of the topmost node show. -/
def children : Content → List Content
  | node _ cs => cs

@[simp] theorem own_node (o : Own) (cs : List Content) : (node o cs).own = o := rfl

@[simp] theorem children_node (o : Own) (cs : List Content) : (node o cs).children = cs := rfl

@[simp] theorem node_own_children : ∀ c : Content, node c.own c.children = c
  | .node _ _ => rfl

/-- A content with other own data at the top. -/
def mapOwn (f : Own → Own) (c : Content) : Content :=
  .node (f c.own) c.children

@[simp] theorem own_mapOwn (f : Own → Own) (c : Content) : (c.mapOwn f).own = f c.own := rfl

@[simp] theorem children_mapOwn (f : Own → Own) (c : Content) :
    (c.mapOwn f).children = c.children := rfl

/-- How many nodes a content has. -/
def count : Content → Nat
  | node _ cs => (cs.map count).sum + 1

theorem count_node (o : Own) (cs : List Content) :
    (node o cs).count = (cs.map count).sum + 1 := by
  rw [count]

/-- **The own data of all nodes**, in document order. -/
def inOrder : Content → List Own
  | node o cs => o :: cs.flatMap inOrder

theorem inOrder_node (o : Own) (cs : List Content) :
    (node o cs).inOrder = o :: cs.flatMap inOrder := by
  rw [inOrder]

/-- There are as many own data as nodes. -/
theorem length_inOrder (c : Content) : c.inOrder.length = c.count := by
  induction c with
  | node o cs ih =>
    rw [inOrder_node, count_node, List.length_cons, List.length_flatMap,
      List.map_congr_left ih]

/-- The character data of a content, in document order. -/
def textContent (c : Content) : String :=
  String.join ((c.inOrder.filter (·.kind = .text)).map (·.text))

/-- A statement about the own data and the children of every node. -/
inductive Everywhere (P : Own → List Content → Prop) : Content → Prop where
  /-- It holds of the topmost node and everywhere in its children. -/
  | node {o : Own} {cs : List Content} : P o cs → (∀ c ∈ cs, Everywhere P c) →
      Everywhere P (.node o cs)

theorem everywhere_node {P : Own → List Content → Prop} {o : Own} {cs : List Content} :
    Everywhere P (.node o cs) ↔ P o cs ∧ ∀ c ∈ cs, Everywhere P c :=
  ⟨fun | .node h h' => ⟨h, h'⟩, fun h => .node h.1 h.2⟩

theorem Everywhere.mono {P Q : Own → List Content → Prop} (hPQ : ∀ o cs, P o cs → Q o cs)
    {c : Content} (h : c.Everywhere P) : c.Everywhere Q := by
  induction c with
  | node o cs ih =>
    obtain ⟨ho, hcs⟩ := everywhere_node.1 h
    exact .node (hPQ o cs ho) fun c hc => ih c hc (hcs c hc)

end Content

namespace Tree

/-- **A subtree is a content**: the own data of its topmost node are those
of the content, and its children show the contents of the children. -/
inductive Shows (t : Tree) : NodeId → Content → Prop where
  /-- A node shows its own data over what its children show. -/
  | node {id : NodeId} {cs : List Content} : List.Forall₂ (Shows t) (t.children id) cs →
      Shows t id (.node (t.own id) cs)

variable {t t' : Tree} {a b id r x : NodeId} {c c' : Content} {o : Own} {cs cs' : List Content}
variable {ids roots : List NodeId}

theorem shows_node :
    t.Shows id (.node o cs) ↔ t.own id = o ∧ List.Forall₂ t.Shows (t.children id) cs :=
  ⟨fun | .node h => ⟨rfl, h⟩, fun ⟨ho, h⟩ => ho ▸ .node h⟩

theorem shows_iff :
    t.Shows id c ↔ t.own id = c.own ∧ List.Forall₂ t.Shows (t.children id) c.children := by
  rw [← shows_node, Content.node_own_children]

theorem Shows.own_eq (h : t.Shows id c) : t.own id = c.own :=
  (shows_iff.1 h).1

theorem Shows.children (h : t.Shows id c) : List.Forall₂ t.Shows (t.children id) c.children :=
  (shows_iff.1 h).2

/-- **A node shows one content only.** -/
theorem Shows.unique (h : t.Shows id c) (h' : t.Shows id c') : c = c' := by
  induction c generalizing id c' with
  | node o cs ih =>
    obtain ⟨ho, hcs⟩ := shows_node.1 h
    obtain ⟨ho', hcs'⟩ := shows_iff.1 h'
    have hall : ∀ (ids : List NodeId) (l l' : List Content), (∀ c ∈ l, c ∈ cs) →
        List.Forall₂ t.Shows ids l → List.Forall₂ t.Shows ids l' → l = l' := by
      intro ids l l' hsub hl hl'
      induction hl generalizing l' with
      | nil => exact (List.forall₂_nil_left_iff.1 hl').symm
      | cons hd _ ihl =>
        obtain ⟨d', m, hd', hm, rfl⟩ := List.forall₂_cons_left_iff.1 hl'
        rw [ih _ (hsub _ List.mem_cons_self) hd hd',
          ihl m (fun c hc => hsub c (List.mem_cons_of_mem _ hc)) hm]
    have := hall _ cs c'.children (fun _ hc => hc) hcs hcs'
    rw [← ho, ho', this, Content.node_own_children]

/-- **What a node shows depends on its subtree alone.** -/
theorem Shows.congr (h : t.Shows id c)
    (hs : ∀ x, t.Within id x → t'.own x = t.own x ∧ t'.children x = t.children x) :
    t'.Shows id c := by
  induction c generalizing id with
  | node o cs ih =>
    obtain ⟨ho, hcs⟩ := shows_node.1 h
    obtain ⟨ho', hc'⟩ := hs id .refl
    refine shows_node.2 ⟨ho'.trans ho, ?_⟩
    rw [hc']
    refine List.forall₂_iff_zip.2 ⟨hcs.length_eq, fun {i d} hid => ?_⟩
    have hi := (List.of_mem_zip hid).1
    exact ih d (List.of_mem_zip hid).2 (List.forall₂_zip hcs hid)
      fun x hx => hs x ((Within.refl.child hi).trans hx)

/-- Related lists have equal images under functions that agree on related
entries. -/
theorem map_eq_of_forall₂ {α β γ : Type} {R : α → β → Prop} {l : List α} {m : List β} {f : α → γ}
    {g : β → γ} (h : List.Forall₂ R l m) (hfg : ∀ i k, R i k → f i = g k) : l.map f = m.map g := by
  induction h with
  | nil => rfl
  | cons hik _ ih => rw [List.map_cons, List.map_cons, hfg _ _ hik, ih]

theorem filterMap_eq_of_forall₂ {α β γ : Type} {R : α → β → Prop} {l : List α} {m : List β}
    {f : α → Option γ} {g : β → Option γ} (h : List.Forall₂ R l m)
    (hfg : ∀ i k, R i k → f i = g k) : l.filterMap f = m.filterMap g := by
  have := congrArg (List.filterMap id) (map_eq_of_forall₂ h hfg)
  rwa [List.filterMap_map, List.filterMap_map] at this

/-- Each entry of the second list is related to one of the first. -/
theorem exists_mem_of_forall₂ {α β : Type} {R : α → β → Prop} {l : List α} {m : List β} {k : β}
    (h : List.Forall₂ R l m) (hk : k ∈ m) : ∃ i ∈ l, R i k := by
  induction h with
  | nil => cases hk
  | @cons i j l m hij _ ih =>
    rcases List.mem_cons.1 hk with rfl | hk
    · exact ⟨i, List.mem_cons_self, hij⟩
    · obtain ⟨i', hi', hik⟩ := ih hk
      exact ⟨i', List.mem_cons_of_mem i hi', hik⟩

theorem forall₂_concat {α β : Type} {R : α → β → Prop} {l : List α} {m : List β} {i : α} {k : β} :
    List.Forall₂ R (l ++ [i]) (m ++ [k]) ↔ List.Forall₂ R l m ∧ R i k := by
  rw [← List.forall₂_reverse_iff, List.reverse_concat, List.reverse_concat, List.forall₂_cons,
    List.forall₂_reverse_iff, and_comm]

/-- Several nodes keep what they show if their subtrees stay as they
are. -/
theorem forall₂_shows_congr (h : List.Forall₂ t.Shows ids cs)
    (hs : ∀ i ∈ ids, ∀ x, t.Within i x → t'.own x = t.own x ∧ t'.children x = t.children x) :
    List.Forall₂ t'.Shows ids cs :=
  List.forall₂_iff_zip.2 ⟨h.length_eq, fun {i _} hi =>
    (List.forall₂_zip h hi).congr (hs i (List.of_mem_zip hi).1)⟩

/-- **An operation on roots that are apart from a node leaves what the
node shows.** -/
theorem Confined.shows (h : Confined roots t t') (hwf : t.WellFormed) (hb : b < t.size)
    (ha : ∀ r ∈ roots, t.Apart r b) (hc : t.Shows b c) : t'.Shows b c :=
  hc.congr fun x hx => by
    have hx := h.node_eq_of_apart hwf hb ha hx
    exact ⟨by unfold own kind tag attrs text; rw [hx], by unfold Tree.children; rw [hx]⟩

/-- A node that is not above an edited one shows what it showed. -/
theorem Recast.shows {f : Own → Own} (h : Recast id f t t') (hw : ¬ t.Within b id)
    (hs : t.Shows b c) : t'.Shows b c :=
  hs.congr fun x hx => ⟨h.own_ne (by rintro rfl; exact hw hx), h.children_eq x⟩

/-- **An edit of own data changes the top of what its node shows.** -/
theorem Recast.shows_self {f : Own → Own} (h : Recast id f t t') (hwf : t.WellFormed)
    (hs : t.Shows id c) : t'.Shows id (c.mapOwn f) := by
  obtain ⟨ho, hcs⟩ := shows_iff.1 hs
  refine shows_node.2 ⟨by rw [h.own_self, ho], ?_⟩
  rw [h.children_eq]
  refine forall₂_shows_congr hcs fun i hi x hx => ⟨h.own_ne ?_, h.children_eq x⟩
  rintro rfl
  exact hwf.not_within_of_mem hi hx

/-- Editing the children of a node changes the tops of what they show. -/
theorem RecastAll.shows_children {f : Own → Own} (h : RecastAll (t.children a) f t t')
    (hwf : t.WellFormed) (hcs : List.Forall₂ t.Shows (t.children a) cs) :
    List.Forall₂ t'.Shows (t'.children a) (cs.map (Content.mapOwn f)) := by
  rw [h.children_eq, List.forall₂_map_right_iff]
  refine List.forall₂_iff_zip.2 ⟨hcs.length_eq, fun {i c} hi => ?_⟩
  have him := (List.of_mem_zip hi).1
  obtain ⟨ho, hkids⟩ := shows_iff.1 (List.forall₂_zip hcs hi)
  refine shows_node.2 ⟨by rw [h.own_eq, if_pos him, ho], ?_⟩
  rw [h.children_eq]
  refine forall₂_shows_congr hkids fun k hk x hx => ⟨?_, h.children_eq x⟩
  rw [h.own_eq, if_neg]
  intro hxm
  have hix := (Within.refl.child hk).trans hx
  by_cases hxi : i = x
  · exact hwf.not_within_of_mem hk (hxi ▸ hx)
  · exact hwf.not_within_sibling him hxm hxi hix

/-- A new node shows itself. -/
theorem Adds.shows (h : Adds o t t') : t'.Shows t.size (.node o []) :=
  shows_node.2 ⟨by rw [h.own_eq, if_pos rfl], by
    rw [h.children_eq, children_of_le (Nat.le_refl _)]
    exact .nil⟩

/-! ## Every node shows a content -/

/-- If each of several nodes shows something, they show a list. -/
theorem exists_forall₂_shows (h : ∀ i ∈ ids, ∃ c, t.Shows i c) :
    ∃ cs, List.Forall₂ t.Shows ids cs := by
  induction ids with
  | nil => exact ⟨[], .nil⟩
  | cons id ids ih =>
    obtain ⟨c, hc⟩ := h id List.mem_cons_self
    obtain ⟨cs, hcs⟩ := ih fun i hi => h i (List.mem_cons_of_mem _ hi)
    exact ⟨c :: cs, .cons hc hcs⟩

open Classical in
/-- How many nodes stand below a node. -/
private noncomputable def below (t : Tree) (id : NodeId) : Nat :=
  ((List.range t.size).filter fun x => t.Within id x).length

open Classical in
private theorem below_lt_of_mem (h : t.WellFormed) (hc : b ∈ t.children a) :
    t.below b < t.below a := by
  have hsub : ((List.range t.size).filter fun x => t.Within b x).Sublist
      ((List.range t.size).filter fun x => t.Within a x) := by
    refine List.monotone_filter_right _ fun x hx => ?_
    exact decide_eq_true ((Within.refl.child hc).trans (of_decide_eq_true hx))
  refine Nat.lt_of_le_of_ne hsub.length_le fun heq => ?_
  have ha : a ∈ (List.range t.size).filter fun x => t.Within a x :=
    List.mem_filter.2 ⟨List.mem_range.2 (lt_of_mem_children hc), decide_eq_true .refl⟩
  rw [← hsub.eq_of_length heq] at ha
  exact h.not_within_of_mem hc (of_decide_eq_true (List.mem_filter.1 ha).2)

/-- **Every node of a well-formed tree shows a content.** The induction is
on the number of nodes below it. -/
theorem WellFormed.exists_shows (h : t.WellFormed) (id : NodeId) : ∃ c, t.Shows id c := by
  induction hn : t.below id using Nat.strongRecOn generalizing id with
  | _ n ih =>
    have hkids : ∀ i ∈ t.children id, ∃ c, t.Shows i c := fun i hi =>
      ih (t.below i) (hn ▸ below_lt_of_mem h hi) i rfl
    obtain ⟨cs, hcs⟩ := exists_forall₂_shows hkids
    exact ⟨.node (t.own id) cs, .node hcs⟩

/-- **What holds everywhere in what a node shows** holds at every node
below it. -/
theorem Shows.of_everywhere {P : Own → List Content → Prop} (h : t.Shows id c)
    (hP : c.Everywhere P) (hx : t.Within id x) :
    ∃ cs, List.Forall₂ t.Shows (t.children x) cs ∧ P (t.own x) cs := by
  suffices hw : ∃ d, t.Shows x d ∧ d.Everywhere P by
    obtain ⟨⟨o, cs⟩, hd, hdP⟩ := hw
    obtain ⟨rfl, hcs⟩ := shows_node.1 hd
    exact ⟨cs, hcs, (Content.everywhere_node.1 hdP).1⟩
  induction hx with
  | refl => exact ⟨c, h, hP⟩
  | @child p y _ hy ih =>
    obtain ⟨⟨o, cs⟩, hd, hdP⟩ := ih
    obtain ⟨-, hcs⟩ := shows_node.1 hd
    obtain ⟨i, hi, rfl⟩ := List.mem_iff_getElem.1 hy
    have hi' : i < cs.length := hcs.length_eq ▸ hi
    exact ⟨cs[i], hcs.get hi hi', (Content.everywhere_node.1 hdP).2 _ (List.getElem_mem hi')⟩

/-- **What holds at every node below one** holds everywhere in what it
shows. -/
theorem Shows.everywhere {P : Own → Prop} (h : t.Shows id c)
    (hP : ∀ x, t.Within id x → P (t.own x)) : c.Everywhere fun o _ => P o := by
  induction c generalizing id with
  | node o cs ih =>
    obtain ⟨rfl, hcs⟩ := shows_node.1 h
    refine .node (hP id .refl) fun d hd => ?_
    obtain ⟨i, hi, hs⟩ := exists_mem_of_forall₂ hcs hd
    exact ih d hd hs fun x hx => hP x ((Within.refl.child hi).trans hx)

/-! ## The walk and the writing -/

/-- **A walk with enough steps reads what the stack shows**, in document
order. -/
theorem map_own_walk {n : Nat} (h : List.Forall₂ t.Shows ids cs)
    (hn : (cs.map Content.count).sum ≤ n) :
    (t.walk n ids).map t.own = cs.flatMap Content.inOrder := by
  induction n generalizing ids cs with
  | zero =>
    cases h with
    | nil => rfl
    | @cons _ c _ cs _ _ =>
      obtain ⟨o, kids⟩ := c
      rw [List.map_cons, List.sum_cons, Content.count_node] at hn
      omega
  | succ n ih =>
    cases h with
    | nil => rfl
    | @cons id c ids cs hc hcs =>
      obtain ⟨o, kids⟩ := c
      obtain ⟨ho, hkids⟩ := shows_node.1 hc
      rw [List.map_cons, List.sum_cons, Content.count_node] at hn
      rw [walk, List.map_cons, ih (List.rel_append hkids hcs)
        (by rw [List.map_append, List.sum_append]; omega), List.flatMap_cons,
        Content.inOrder_node, ho, List.flatMap_append, List.cons_append]

/-- **A content has no more nodes than the pool** that shows it. -/
theorem WellFormed.count_le_size (h : t.WellFormed) (hid : id < t.size) (hc : t.Shows id c) :
    c.count ≤ t.size := by
  have hwalk := congrArg List.length (map_own_walk (n := c.count) (.cons hc .nil) (by simp))
  rw [List.length_map, List.flatMap_cons, List.flatMap_nil, List.append_nil,
    Content.length_inOrder] at hwalk
  rw [← hwalk]
  exact h.length_walk_le (List.pairwise_singleton _ _) (by simpa using hid)

/-- **The own data of a node and everything below it**, in document
order. -/
theorem WellFormed.map_own_descendants (h : t.WellFormed) (hid : id < t.size)
    (hc : t.Shows id c) : (t.descendants id).map t.own = c.inOrder := by
  rw [descendants, map_own_walk (.cons hc .nil) (by simpa using h.count_le_size hid hc),
    List.flatMap_cons, List.flatMap_nil, List.append_nil]

end Tree

/-! ## Written contents -/

/-- The start tag of an element, as characters. -/
def Own.startTag (o : Own) : List Char :=
  '<' :: (o.tag.toList ++ o.attrs.flatMap (·.written.toList) ++ ['>'])

/-- The end tag of an element, as characters. -/
def Own.endTag (o : Own) : List Char :=
  '<' :: '/' :: (o.tag.toList ++ ['>'])

/-- A node as markup, given its content as markup. -/
def Own.enclose (o : Own) (inner : List Char) : List Char :=
  match o.kind with
  | .document => inner
  | .text => o.text.toList
  | .comment => "<!--".toList ++ o.text.toList ++ "-->".toList
  | .element => if isVoidTag o.tag then o.startTag else o.startTag ++ inner ++ o.endTag

/-- **A content as markup.** -/
def Content.written : Content → List Char
  | node o cs => o.enclose (cs.flatMap written)

theorem Content.written_node (o : Own) (cs : List Content) :
    (node o cs).written = o.enclose (cs.flatMap written) := by
  rw [written]

namespace Tree

variable {t : Tree} {id : NodeId} {c : Content} {cs : List Content} {ids : List NodeId}

theorem toList_startTag (t : Tree) (id : NodeId) :
    (t.startTag id).toList = (t.own id).startTag := by
  simp only [startTag, Own.startTag, String.toList_append, String.toList_join, List.flatMap_map,
    ← tag_eq_own, ← attrs_eq_own]
  rfl

/-- **Writing with enough depth writes what is shown.** -/
theorem toList_write {n : Nat} (h : t.Shows id c) (hn : c.count ≤ n) :
    (t.write n id).toList = c.written := by
  induction n generalizing id c with
  | zero =>
    obtain ⟨o, cs⟩ := c
    rw [Content.count_node] at hn
    omega
  | succ n ih =>
    obtain ⟨o, cs⟩ := c
    obtain ⟨rfl, hcs⟩ := shows_node.1 h
    rw [Content.count_node] at hn
    have hinner : (String.join ((t.children id).map (t.write n))).toList
        = cs.flatMap Content.written := by
      rw [String.toList_join, List.flatMap_map]
      have hall : ∀ (ids : List NodeId) (l : List Content), List.Forall₂ t.Shows ids l →
          (l.map Content.count).sum ≤ n →
          ids.flatMap (fun i => (t.write n i).toList) = l.flatMap Content.written := by
        intro ids l hl hsum
        induction hl with
        | nil => rfl
        | cons hd _ ihl =>
          rw [List.map_cons, List.sum_cons] at hsum
          rw [List.flatMap_cons, List.flatMap_cons, ih hd (by omega), ihl (by omega)]
      exact hall _ cs hcs (by omega)
    rw [Content.written_node, ← hinner, write, Own.enclose, ← kind_eq_own]
    cases t.kind id with
    | document => rfl
    | text => rfl
    | comment => simp only [String.toList_append, text_eq_own]
    | element =>
      dsimp only
      rw [← tag_eq_own]
      split
      · exact toList_startTag t id
      · simp only [String.toList_append, toList_startTag, Own.endTag, ← tag_eq_own]
        simp

/-- **A node is written as what it shows.** -/
theorem WellFormed.toList_toHtml (h : t.WellFormed) (hid : id < t.size) (hc : t.Shows id c) :
    (t.toHtml id).toList = c.written :=
  toList_write hc (h.count_le_size hid hc)

/-- The children of a node are written as what they show. -/
theorem WellFormed.toList_innerHtml (h : t.WellFormed)
    (hcs : List.Forall₂ t.Shows (t.children id) cs) :
    (t.innerHtml id).toList = cs.flatMap Content.written := by
  have hall : ∀ (ids : List NodeId) (l : List Content), List.Forall₂ t.Shows ids l →
      (∀ i ∈ ids, i < t.size) →
      ids.flatMap (fun i => (t.toHtml i).toList) = l.flatMap Content.written := by
    intro ids l hl hs
    induction hl with
    | nil => rfl
    | cons hd _ ihl =>
      rw [List.flatMap_cons, List.flatMap_cons, h.toList_toHtml (hs _ List.mem_cons_self) hd,
        ihl fun i hi => hs i (List.mem_cons_of_mem _ hi)]
  rw [innerHtml, String.toList_join, List.flatMap_map]
  exact hall _ cs hcs fun i hi => h.lt_of_mem hi

/-- **The character data below a node are those it shows.** -/
theorem WellFormed.textContent_eq (h : t.WellFormed) (hid : id < t.size) (hc : t.Shows id c) :
    t.textContent id = c.textContent := by
  rw [textContent, Content.textContent, ← h.map_own_descendants hid hc, List.filter_map,
    List.map_map]
  rfl

end Tree

end PageSlots.Markup
