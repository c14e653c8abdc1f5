import Mathlib.Data.List.Nodup
import PageSlots.Markup.Tree.Edit

/-!
# What a node holds of its own

A node has two sides. Its place – the children and the parent link – ties
it to other nodes; its kind, tag, attributes and character data are its
own. This module separates the two. `Own` is the second side as a value,
`Tree.own` reads it, and every edit of a node's own data is a function on
`Own` applied at one number: `Tree.Recast id f t t'` says that `t'` is `t`
with `f` applied at `id`, and with every place as it was.

So a statement about an edit of tags or attributes is a statement about
one value, and the shape of the tree need not be mentioned again. The
attribute lists themselves come first: which names each edit leaves, and
that names stay distinct.
-/

namespace PageSlots.Markup

/-! ## Attribute lists -/

/-- The names of an attribute list, in order. -/
def attributeNames (attrs : List Attribute) : List String :=
  attrs.map (·.name)

@[simp] theorem attributeNames_nil : attributeNames [] = [] := rfl

@[simp] theorem attributeNames_cons (a : Attribute) (attrs : List Attribute) :
    attributeNames (a :: attrs) = a.name :: attributeNames attrs := rfl

@[simp] theorem attributeNames_append (l₁ l₂ : List Attribute) :
    attributeNames (l₁ ++ l₂) = attributeNames l₁ ++ attributeNames l₂ :=
  List.map_append

theorem mem_attributeNames {attrs : List Attribute} {name : String} :
    name ∈ attributeNames attrs ↔ ∃ a ∈ attrs, a.name = name :=
  List.mem_map

/-- The names of a part of the list are a part of the names. -/
theorem attributeNames_sublist {l₁ l₂ : List Attribute} (h : l₁.Sublist l₂) :
    (attributeNames l₁).Sublist (attributeNames l₂) :=
  h.map _

/-- **Setting an attribute adds its name at the end**, unless the name is
there already. -/
theorem attributeNames_setAttribute (name value : String) (attrs : List Attribute) :
    attributeNames (setAttribute name value attrs)
      = if name ∈ attributeNames attrs then attributeNames attrs
        else attributeNames attrs ++ [name] := by
  induction attrs with
  | nil => rfl
  | cons a attrs ih =>
    unfold setAttribute
    by_cases h : a.name = name
    · rw [if_pos h, if_pos (by simp [h])]
      rfl
    · rw [if_neg h, attributeNames_cons, ih]
      by_cases hm : name ∈ attributeNames attrs
      · rw [if_pos hm, if_pos (by simp [hm])]
        rfl
      · rw [if_neg hm, if_neg (by simp [hm, Ne.symm h])]
        rfl

theorem nodup_setAttribute {attrs : List Attribute} (name value : String)
    (h : (attributeNames attrs).Nodup) :
    (attributeNames (setAttribute name value attrs)).Nodup := by
  rw [attributeNames_setAttribute]
  split
  · exact h
  · rename_i hm
    exact List.nodup_append.2 ⟨h, List.nodup_singleton _, by
      rintro a ha b hb rfl
      exact hm (List.mem_singleton.1 hb ▸ ha)⟩

/-- A name that is not there is set at the end. -/
theorem setAttribute_of_notMem {name value : String} {attrs : List Attribute}
    (h : name ∉ attributeNames attrs) :
    setAttribute name value attrs = attrs ++ [⟨name, value⟩] := by
  induction attrs with
  | nil => rfl
  | cons a attrs ih =>
    rw [attributeNames_cons, List.mem_cons, not_or] at h
    rw [setAttribute, if_neg (Ne.symm h.1), ih h.2, List.cons_append]

/-- **A name that is there keeps its place**: the first attribute with it
gets the value. -/
theorem setAttribute_append {pre post : List Attribute} {a : Attribute} {value : String}
    (h : a.name ∉ attributeNames pre) :
    setAttribute a.name value (pre ++ a :: post) = pre ++ ⟨a.name, value⟩ :: post := by
  induction pre with
  | nil => simp [setAttribute]
  | cons b pre ih =>
    rw [attributeNames_cons, List.mem_cons, not_or] at h
    rw [List.cons_append, setAttribute, if_neg (Ne.symm h.1), ih h.2, List.cons_append]

/-- Once the renamed attribute is behind, only the ones with the new name
go. -/
theorem renameAttribute_true (src dst : String) (attrs : List Attribute) :
    renameAttribute src dst true attrs = attrs.filter (·.name ≠ dst) := by
  induction attrs with
  | nil => rfl
  | cons a attrs ih =>
    rw [renameAttribute, List.filter_cons]
    by_cases h : a.name = dst <;> simp [h, ih]

/-- **Renaming keeps the place**: the first attribute with the old name
gets the new one, and every other attribute with the new name goes. -/
theorem renameAttribute_append {pre post : List Attribute} {a : Attribute} {dst : String}
    (h : a.name ∉ attributeNames pre) :
    renameAttribute a.name dst false (pre ++ a :: post)
      = pre.filter (·.name ≠ dst) ++ ⟨dst, a.value⟩ :: post.filter (·.name ≠ dst) := by
  induction pre with
  | nil => simp [renameAttribute, renameAttribute_true]
  | cons b pre ih =>
    rw [attributeNames_cons, List.mem_cons, not_or] at h
    rw [List.cons_append, renameAttribute, if_neg (by simp [Ne.symm h.1]), ih h.2,
      List.filter_cons]
    by_cases hb : b.name = dst <;> simp [hb]

/-- A name that occurs splits the list at its first occurrence. -/
theorem exists_append_of_mem_attributeNames {attrs : List Attribute} {name : String}
    (h : name ∈ attributeNames attrs) :
    ∃ pre a post, attrs = pre ++ a :: post ∧ a.name = name ∧ name ∉ attributeNames pre := by
  induction attrs with
  | nil => simp at h
  | cons b attrs ih =>
    by_cases hb : b.name = name
    · exact ⟨[], b, attrs, rfl, hb, by simp⟩
    · rw [attributeNames_cons, List.mem_cons] at h
      obtain ⟨pre, a, post, rfl, ha, hp⟩ := ih (h.resolve_left (Ne.symm hb))
      exact ⟨b :: pre, a, post, rfl, ha, by simp [hp, Ne.symm hb]⟩

theorem nodup_renameAttribute {attrs : List Attribute} {src : String} (dst : String)
    (h : (attributeNames attrs).Nodup) (hs : src ∈ attributeNames attrs) :
    (attributeNames (renameAttribute src dst false attrs)).Nodup := by
  obtain ⟨pre, a, post, rfl, rfl, hp⟩ := exists_append_of_mem_attributeNames hs
  have hdst : ∀ l : List Attribute, dst ∉ attributeNames (l.filter (·.name ≠ dst)) := by
    intro l hl
    obtain ⟨b, hb, hbd⟩ := mem_attributeNames.1 hl
    simp [hbd] at hb
  have hpre := attributeNames_sublist (List.filter_sublist (p := (·.name ≠ dst)) (l := pre))
  have hpost := attributeNames_sublist (List.filter_sublist (p := (·.name ≠ dst)) (l := post))
  rw [renameAttribute_append hp]
  simp only [attributeNames_append, attributeNames_cons, List.nodup_append, List.nodup_cons,
    List.mem_cons] at h ⊢
  refine ⟨h.1.sublist hpre, ⟨hdst post, h.2.1.2.sublist hpost⟩, ?_⟩
  rintro x hx y (rfl | hy) rfl
  · exact hdst pre hx
  · exact h.2.2 x (hpre.subset hx) x (Or.inr (hpost.subset hy)) rfl

/-! ## Own data -/

/-- **What a node holds of its own**: everything but its place. -/
structure Own where
  /-- What the node is. -/
  kind : NodeKind
  /-- The tag of an element. -/
  tag : String := ""
  /-- The attributes, in source order. -/
  attrs : List Attribute := []
  /-- The character data. -/
  text : String := ""
  deriving DecidableEq, Repr, Inhabited

namespace Own

/-- The value of an attribute. -/
def attr? (o : Own) (name : String) : Option String :=
  (o.attrs.find? (·.name = name)).map (·.value)

/-- Whether an attribute is present. -/
def hasAttr (o : Own) (name : String) : Bool :=
  o.attrs.any (·.name = name)

/-- The names of the attributes. -/
def names (o : Own) : List String :=
  attributeNames o.attrs

/-- Set an attribute. -/
def setAttr (name value : String) (o : Own) : Own :=
  { o with attrs := setAttribute name value o.attrs }

/-- Remove an attribute. -/
def removeAttr (name : String) (o : Own) : Own :=
  { o with attrs := o.attrs.eraseP (·.name = name) }

/-- Rename an attribute that is there. -/
def renameAttr (src dst : String) (o : Own) : Own :=
  if src ≠ dst ∧ o.hasAttr src then { o with attrs := renameAttribute src dst false o.attrs }
  else o

theorem hasAttr_iff {o : Own} {name : String} : o.hasAttr name = true ↔ name ∈ o.names := by
  simp [hasAttr, names, attributeNames]

theorem attr?_eq_none_iff {o : Own} {name : String} : o.attr? name = none ↔ name ∉ o.names := by
  simp [attr?, names, attributeNames]

theorem nodup_names_setAttr {o : Own} (name value : String) (h : o.names.Nodup) :
    (o.setAttr name value).names.Nodup :=
  nodup_setAttribute name value h

theorem mem_names_setAttr {o : Own} {name value x : String} (h : x ∈ (o.setAttr name value).names) :
    x ∈ o.names ∨ x = name := by
  unfold names setAttr at h
  rw [attributeNames_setAttribute] at h
  split at h
  · exact .inl h
  · rcases List.mem_append.1 h with h | h
    · exact .inl h
    · exact .inr (List.mem_singleton.1 h)

theorem nodup_names_removeAttr {o : Own} (name : String) (h : o.names.Nodup) :
    (o.removeAttr name).names.Nodup :=
  h.sublist (attributeNames_sublist List.eraseP_sublist)

theorem nodup_names_renameAttr {o : Own} (src dst : String) (h : o.names.Nodup) :
    (o.renameAttr src dst).names.Nodup := by
  unfold renameAttr
  split
  · rename_i hs
    exact nodup_renameAttribute dst h (hasAttr_iff.1 hs.2)
  · exact h

/-- After a renaming the old name is gone, and the new one is the only one
that may be new. -/
theorem mem_names_renameAttr {o : Own} {src dst x : String} (hn : o.names.Nodup)
    (h : x ∈ (o.renameAttr src dst).names) : x = dst ∨ x ∈ o.names ∧ x ≠ src := by
  by_cases hs : src ≠ dst ∧ o.hasAttr src = true
  · obtain ⟨pre, a, post, hattrs, rfl, hp⟩ :=
      exists_append_of_mem_attributeNames (hasAttr_iff.1 hs.2)
    unfold names at h hn ⊢
    rw [renameAttr, if_pos hs] at h
    dsimp only at h
    rw [hattrs, renameAttribute_append hp, attributeNames_append, attributeNames_cons,
      List.mem_append, List.mem_cons] at h
    rw [hattrs, attributeNames_append, attributeNames_cons] at hn ⊢
    obtain ⟨-, hpost, hdis⟩ := List.nodup_append.1 hn
    rcases h with h | rfl | h
    · have hx := (attributeNames_sublist List.filter_sublist).subset h
      exact .inr ⟨List.mem_append_left _ hx, fun he => hp (he ▸ hx)⟩
    · exact .inl rfl
    · have hx := (attributeNames_sublist List.filter_sublist).subset h
      exact .inr ⟨List.mem_append_right _ (List.mem_cons_of_mem _ hx),
        fun he => (List.nodup_cons.1 hpost).1 (he ▸ hx)⟩
  · rw [renameAttr, if_neg hs] at h
    by_cases hd : x = dst
    · exact .inl hd
    · refine .inr ⟨h, ?_⟩
      rintro rfl
      exact hs ⟨hd, hasAttr_iff.2 h⟩

/-- Removing an attribute erases its name. -/
theorem names_removeAttr (o : Own) (name : String) :
    (o.removeAttr name).names = o.names.erase name := by
  have he : ∀ attrs : List Attribute,
      attributeNames (attrs.eraseP (·.name = name)) = (attributeNames attrs).erase name := by
    intro attrs
    induction attrs with
    | nil => rfl
    | cons a attrs ih =>
      by_cases ha : a.name = name
      · simp [ha]
      · rw [List.eraseP_cons_of_neg (by simpa using ha), attributeNames_cons, attributeNames_cons,
          List.erase_cons_tail (by simpa using ha), ih]
  exact he o.attrs

/-- What is removed is the first attribute with the name. -/
theorem attrs_removeAttr_append {o : Own} {pre post : List Attribute} {a : Attribute}
    (h : o.attrs = pre ++ a :: post) (hpre : a.name ∉ attributeNames pre) :
    (o.removeAttr a.name).attrs = pre ++ post := by
  show o.attrs.eraseP _ = _
  rw [h, List.eraseP_append_right _ fun b hb hn => hpre (mem_attributeNames.2
    ⟨b, hb, of_decide_eq_true hn⟩), List.eraseP_cons_of_pos (by simp)]

/-- **A removed attribute is gone**, since its name occurred only once. -/
theorem notMem_names_removeAttr {o : Own} (name : String) (h : o.names.Nodup) :
    name ∉ (o.removeAttr name).names := by
  rw [names_removeAttr]
  exact h.not_mem_erase

end Own

namespace Tree

/-- What a node holds of its own. -/
def own (t : Tree) (id : NodeId) : Own :=
  ⟨t.kind id, t.tag id, t.attrs id, t.text id⟩

theorem kind_eq_own (t : Tree) (id : NodeId) : t.kind id = (t.own id).kind := rfl

theorem tag_eq_own (t : Tree) (id : NodeId) : t.tag id = (t.own id).tag := rfl

theorem attrs_eq_own (t : Tree) (id : NodeId) : t.attrs id = (t.own id).attrs := rfl

theorem text_eq_own (t : Tree) (id : NodeId) : t.text id = (t.own id).text := rfl

theorem attr?_eq_own (t : Tree) (id : NodeId) (name : String) :
    t.attr? id name = (t.own id).attr? name := rfl

theorem hasAttr_eq_own (t : Tree) (id : NodeId) (name : String) :
    t.hasAttr id name = (t.own id).hasAttr name := rfl

theorem isElement_iff {t : Tree} {id : NodeId} :
    t.isElement id = true ↔ (t.own id).kind = .element :=
  decide_eq_true_iff

/-- A node is its own data in its place. -/
theorem node_ext {t t' : Tree} {x y : NodeId} (ho : t'.own y = t.own x)
    (hc : t'.children y = t.children x) (hp : t'.parent y = t.parent x) :
    t'.node y = t.node x := by
  simp only [own, kind, tag, attrs, text, children, parent, Own.mk.injEq] at ho hc hp
  rcases hy : t'.node y
  rcases hx : t.node x
  simp_all

/-! ## Reading after a basic change -/

/-- A number beyond the pool reads a blank document. -/
theorem node_of_le {t : Tree} {id : NodeId} (h : t.size ≤ id) :
    t.node id = { kind := .document } := by
  rw [node, (get?_eq_none_iff t id).2 h]
  rfl

theorem node_modify {t : Tree} {id : NodeId} (h : id < t.size) (f : Node → Node) (x : NodeId) :
    (t.modify id f).node x = if x = id then f (t.node x) else t.node x := by
  unfold node
  rw [get?_modify]
  by_cases hx : id = x
  · subst hx
    obtain ⟨n, hn⟩ := Option.ne_none_iff_exists'.1
      (fun hn => Nat.not_le_of_lt h ((get?_eq_none_iff t id).1 hn))
    simp [hn]
  · rw [if_neg hx, if_neg (Ne.symm hx)]

theorem node_create (t : Tree) (n : Node) (x : NodeId) :
    (t.create n).2.node x = if x = t.size then n else t.node x := by
  unfold node
  rw [get?_create]
  split <;> rfl

/-- A change of a number that no node has changes nothing. -/
theorem modify_of_le {t : Tree} {id : NodeId} (h : t.size ≤ id) (f : Node → Node) :
    t.modify id f = t := by
  unfold modify
  congr 1
  apply Array.ext
  · simp
  · intro i h₁ h₂
    rw [Array.getElem_modify, if_neg]
    unfold size at h
    omega

/-! ## Edits of own data -/

/-- **One tree is another with the own data of one node changed.** -/
structure Recast (id : NodeId) (f : Own → Own) (t t' : Tree) : Prop where
  /-- No node comes or goes. -/
  size_eq : t'.size = t.size
  /-- The own data change at the one node. -/
  own_eq : ∀ x, t'.own x = if x = id then f (t.own x) else t.own x
  /-- The children stay. -/
  children_eq : ∀ x, t'.children x = t.children x
  /-- The parents stay. -/
  parent_eq : ∀ x, t'.parent x = t.parent x

namespace Recast

variable {id : NodeId} {f g : Own → Own} {t t' t'' : Tree}

theorem refl (h : f (t.own id) = t.own id) : Recast id f t t where
  size_eq := rfl
  own_eq x := by
    by_cases hx : x = id
    · rw [if_pos hx, hx, h]
    · rw [if_neg hx]
  children_eq _ := rfl
  parent_eq _ := rfl

theorem trans (h : Recast id f t t') (h' : Recast id g t' t'') : Recast id (g ∘ f) t t'' where
  size_eq := h'.size_eq.trans h.size_eq
  own_eq x := by
    rw [h'.own_eq, h.own_eq]
    split <;> rfl
  children_eq x := (h'.children_eq x).trans (h.children_eq x)
  parent_eq x := (h'.parent_eq x).trans (h.parent_eq x)

theorem congr (h : Recast id f t t') (hfg : f (t.own id) = g (t.own id)) : Recast id g t t' where
  size_eq := h.size_eq
  own_eq x := by
    rw [h.own_eq]
    by_cases hx : x = id
    · rw [if_pos hx, if_pos hx, hx, hfg]
    · rw [if_neg hx, if_neg hx]
  children_eq := h.children_eq
  parent_eq := h.parent_eq

theorem own_self (h : Recast id f t t') : t'.own id = f (t.own id) := by
  rw [h.own_eq, if_pos rfl]

theorem own_ne (h : Recast id f t t') {x : NodeId} (hx : x ≠ id) : t'.own x = t.own x := by
  rw [h.own_eq, if_neg hx]

theorem node_ne (h : Recast id f t t') {x : NodeId} (hx : x ≠ id) : t'.node x = t.node x :=
  node_ext (h.own_ne hx) (h.children_eq x) (h.parent_eq x)

end Recast

/-- **One tree is another with the own data of some nodes changed**, each in
the same way. -/
structure RecastAll (ids : List NodeId) (f : Own → Own) (t t' : Tree) : Prop where
  /-- No node comes or goes. -/
  size_eq : t'.size = t.size
  /-- The own data change at these nodes. -/
  own_eq : ∀ x, t'.own x = if x ∈ ids then f (t.own x) else t.own x
  /-- The children stay. -/
  children_eq : ∀ x, t'.children x = t.children x
  /-- The parents stay. -/
  parent_eq : ∀ x, t'.parent x = t.parent x

namespace RecastAll

variable {id : NodeId} {ids : List NodeId} {f : Own → Own} {t t' t'' : Tree}

theorem nil (f : Own → Own) (t : Tree) : RecastAll [] f t t where
  size_eq := rfl
  own_eq _ := rfl
  children_eq _ := rfl
  parent_eq _ := rfl

/-- One more node, edited before the others. -/
theorem cons (h : Recast id f t t') (h' : RecastAll ids f t' t'') (hid : id ∉ ids) :
    RecastAll (id :: ids) f t t'' where
  size_eq := h'.size_eq.trans h.size_eq
  own_eq x := by
    rw [h'.own_eq, h.own_eq]
    by_cases hx : x = id
    · rw [if_neg (hx ▸ hid), if_pos hx, if_pos (hx ▸ List.mem_cons_self)]
    · simp [hx]
  children_eq x := (h'.children_eq x).trans (h.children_eq x)
  parent_eq x := (h'.parent_eq x).trans (h.parent_eq x)

end RecastAll

/-- A change of a node that keeps its place recasts it. -/
theorem recast_modify {t : Tree} {id : NodeId} (h : id < t.size) (f : Node → Node)
    (g : Own → Own) (ho : ∀ n : Node, Own.mk (f n).kind (f n).tag (f n).attrs (f n).text
      = g ⟨n.kind, n.tag, n.attrs, n.text⟩)
    (hc : ∀ n, (f n).children = n.children) (hp : ∀ n, (f n).parent = n.parent) :
    Recast id g t (t.modify id f) where
  size_eq := size_modify t id f
  own_eq x := by
    unfold own kind tag attrs text
    rw [node_modify h]
    split
    · exact ho _
    · rfl
  children_eq x := by
    unfold children
    rw [node_modify h]
    split
    · exact hc _
    · rfl
  parent_eq x := by
    unfold parent
    rw [node_modify h]
    split
    · exact hp _
    · rfl

variable {t : Tree} {id : NodeId}

theorem recast_setTag (h : id < t.size) (tag : String) :
    Recast id (fun o => { o with tag }) t (t.setTag id tag) :=
  recast_modify h _ _ (fun _ => rfl) (fun _ => rfl) (fun _ => rfl)

theorem recast_setText (h : id < t.size) (text : String) :
    Recast id (fun o => { o with text }) t (t.setText id text) :=
  recast_modify h _ _ (fun _ => rfl) (fun _ => rfl) (fun _ => rfl)

theorem recast_pushText (h : id < t.size) (text : String) :
    Recast id (fun o => { o with text := o.text ++ text }) t (t.pushText id text) :=
  recast_modify h _ _ (fun _ => rfl) (fun _ => rfl) (fun _ => rfl)

theorem recast_setAttr (h : id < t.size) (name value : String) :
    Recast id (Own.setAttr name value) t (t.setAttr id name value) :=
  recast_modify h _ _ (fun _ => rfl) (fun _ => rfl) (fun _ => rfl)

theorem recast_removeAttr (h : id < t.size) (name : String) :
    Recast id (Own.removeAttr name) t (t.removeAttr id name).2 := by
  unfold removeAttr
  split
  · rename_i hn
    refine Recast.refl ?_
    have hm : name ∉ (t.own id).names := Own.attr?_eq_none_iff.1 (t.attr?_eq_own id name ▸ hn)
    unfold Own.removeAttr
    rw [List.eraseP_of_forall_not]
    intro a ha hname
    exact hm (mem_attributeNames.2 ⟨a, ha, by simpa using hname⟩)
  · exact recast_modify h _ _ (fun _ => rfl) (fun _ => rfl) (fun _ => rfl)

/-- The value an attribute had is what removing it returns. -/
theorem fst_removeAttr (t : Tree) (id : NodeId) (name : String) :
    (t.removeAttr id name).1 = (t.own id).attr? name := by
  rw [← attr?_eq_own]
  unfold removeAttr
  split <;> rename_i hv <;> rw [hv]

theorem recast_renameAttr (h : id < t.size) (src dst : String) :
    Recast id (Own.renameAttr src dst) t (t.renameAttr id src dst).2 := by
  unfold renameAttr
  split
  · rename_i he
    exact Recast.refl (by simp [Own.renameAttr, he])
  · rename_i he
    split
    · rename_i hs
      refine Recast.congr (recast_modify h _
        (fun o => { o with attrs := renameAttribute src dst false o.attrs })
        (fun _ => rfl) (fun _ => rfl) (fun _ => rfl)) ?_
      rw [Own.renameAttr, if_pos ⟨he, t.hasAttr_eq_own id src ▸ hs⟩]
    · rename_i hs
      exact Recast.refl (by
        rw [Own.renameAttr, if_neg (fun hn => hs (t.hasAttr_eq_own id src ▸ hn.2))])

end Tree

end PageSlots.Markup
