import PageSlots.Proofs.Tree.WellFormed
import PageSlots.Slot.Marker

/-!
# Slot markers as own data

Which slot a node fills, and what the migration of an older marker or the
renaming of a slot does to it, depends on the node's own data alone. This
module says it there: `Own.slotName` reads a slot from either marker,
`Own.migrate` replaces the older marker and `Own.setSlotName` renames the
slot. Migration keeps the slot (`slotName_migrate`) and leaves no older
marker (`notMem_names_migrate`); after a renaming the node fills the slot
it was renamed to (`slotName_setSlotName`).

The edits of the tree are these functions applied at one node.
-/

namespace PageSlots.Slot

open PageSlots.Markup

/-! ## Markers among attributes -/

theorem isMarker_marker {slot : String} (h : slot ≠ "") : isMarker (marker slot) = true := by
  obtain ⟨c, cs, hc⟩ := List.exists_cons_of_ne_nil
    (fun hn => h (String.toList_inj.1 hn) : slot.toList ≠ [])
  unfold isMarker marker
  rw [String.toList_append, hc]
  rfl

/-- A marker is the marker of the slot that it names. -/
theorem marker_slotOfMarker {name : String} (h : isMarker name = true) :
    marker (slotOfMarker name) = name := by
  rw [← String.toList_inj, marker, slotOfMarker, String.toList_append, String.toList_ofList]
  unfold isMarker at h
  split at h
  · rename_i hname
    rw [hname, String.toList_ofList]
    rfl
  · cases h

theorem isMarker_legacyName : isMarker legacyName = false := by
  decide

/-- No marker stands before the first one. -/
theorem findMarker_eq_some_iff {attrs : List Attribute} {name : String} :
    findMarker attrs = some name ↔ ∃ pre a post, attrs = pre ++ a :: post ∧ a.name = name
      ∧ isMarker name = true ∧ ∀ b ∈ pre, isMarker b.name = false := by
  unfold findMarker
  rw [Option.map_eq_some_iff]
  constructor
  · rintro ⟨a, ha, rfl⟩
    obtain ⟨hm, pre, post, rfl, hpre⟩ := List.find?_eq_some_iff_append.1 ha
    exact ⟨pre, a, post, rfl, rfl, hm, fun b hb => by simpa using hpre b hb⟩
  · rintro ⟨pre, a, post, rfl, rfl, hm, hpre⟩
    exact ⟨a, List.find?_eq_some_iff_append.2
      ⟨hm, pre, post, rfl, fun b hb => by simpa using hpre b hb⟩, rfl⟩

theorem findMarker_eq_none_iff {attrs : List Attribute} :
    findMarker attrs = none ↔ ∀ a ∈ attrs, isMarker a.name = false := by
  simp [findMarker]

/-- The first marker is one of the names. -/
theorem mem_attributeNames_of_findMarker {attrs : List Attribute} {name : String}
    (h : findMarker attrs = some name) : name ∈ attributeNames attrs := by
  obtain ⟨pre, a, post, rfl, rfl, -, -⟩ := findMarker_eq_some_iff.1 h
  simp

/-- A marker has none of the names before it, if these are no markers. -/
theorem notMem_of_isMarker {attrs : List Attribute} {name : String} (h : isMarker name = true)
    (hattrs : ∀ b ∈ attrs, isMarker b.name = false) : name ∉ attributeNames attrs := fun hm => by
  obtain ⟨b, hb, rfl⟩ := mem_attributeNames.1 hm
  rw [hattrs b hb] at h
  cases h

end PageSlots.Slot

namespace PageSlots.Markup

open PageSlots.Slot

namespace Own

variable {o : Own} {name slot target : String}

/-- The first shorthand marker. -/
def marker? (o : Own) : Option String :=
  findMarker o.attrs

/-- The shorthand markers of a node. -/
def markers (o : Own) : List Attribute :=
  o.attrs.filter fun a => isMarker a.name

/-- **The slot that a node fills**, from either marker. -/
def slotName (o : Own) : Option String :=
  if o.kind = .element then
    match o.marker? with
    | some name => some (slotOfMarker name)
    | none => (o.attr? legacyName).filter (!·.isEmpty)
  else none

/-- Let the marker name another slot, in the same notation. -/
def setSlotName (target : String) (o : Own) : Own :=
  match o.marker? with
  | some name => o.renameAttr name (marker target)
  | none => if o.hasAttr legacyName then o.setAttr legacyName target else o

/-- Replace the older marker by the shorthand at the same position, or drop
it. -/
def migrate (o : Own) : Own :=
  if o.kind = .element then
    match o.attr? legacyName with
    | none => o
    | some slot =>
      if slot.isEmpty || o.marker?.isSome then o.removeAttr legacyName
      else (o.renameAttr legacyName (marker slot)).setAttr (marker slot) ""
  else o

theorem kind_renameAttr (src dst : String) (o : Own) : (o.renameAttr src dst).kind = o.kind := by
  unfold renameAttr
  split <;> rfl

theorem tag_renameAttr (src dst : String) (o : Own) : (o.renameAttr src dst).tag = o.tag := by
  unfold renameAttr
  split <;> rfl

/-- A renaming changes attributes only. -/
theorem renameAttr_eq (src dst : String) (o : Own) :
    o.renameAttr src dst = { o with attrs := (o.renameAttr src dst).attrs } := by
  unfold renameAttr
  split <;> rfl

/-- So does the renaming of a slot. -/
theorem setSlotName_eq (target : String) (o : Own) :
    o.setSlotName target = { o with attrs := (o.setSlotName target).attrs } := by
  unfold setSlotName
  split
  · exact renameAttr_eq _ _ o
  · split <;> rfl

theorem kind_setSlotName (target : String) (o : Own) :
    (o.setSlotName target).kind = o.kind := by
  unfold setSlotName
  split
  · exact kind_renameAttr _ _ o
  · split <;> rfl

theorem nodup_names_setSlotName (target : String) (h : o.names.Nodup) :
    (o.setSlotName target).names.Nodup := by
  unfold setSlotName
  split
  · exact nodup_names_renameAttr _ _ h
  · split
    · exact nodup_names_setAttr _ _ h
    · exact h

theorem nodup_names_migrate (h : o.names.Nodup) : o.migrate.names.Nodup := by
  unfold migrate
  split
  · split
    · exact h
    · split
      · exact nodup_names_removeAttr _ h
      · exact nodup_names_setAttr _ _ (nodup_names_renameAttr _ _ h)
  · exact h

/-- A value that is there belongs to one of the attributes. -/
theorem exists_of_attr?_eq_some {value : String} (h : o.attr? name = some value) :
    ∃ pre a post, o.attrs = pre ++ a :: post ∧ a = ⟨name, value⟩ ∧ name ∉ attributeNames pre := by
  unfold attr? at h
  obtain ⟨a, ha, rfl⟩ := Option.map_eq_some_iff.1 h
  obtain ⟨hn, pre, post, hattrs, hpre⟩ := List.find?_eq_some_iff_append.1 ha
  have hn : a.name = name := by simpa using hn
  refine ⟨pre, a, post, hattrs, by rw [← hn], fun hm => ?_⟩
  obtain ⟨b, hb, hbn⟩ := mem_attributeNames.1 hm
  simpa [hbn] using hpre b hb

/-- The value of an attribute with its place in the list. -/
theorem attr?_of_append {pre post : List Attribute} {value : String}
    (ha : o.attrs = pre ++ ⟨name, value⟩ :: post) (hp : name ∉ attributeNames pre) :
    o.attr? name = some value := by
  unfold attr?
  rw [Option.map_eq_some_iff]
  refine ⟨_, List.find?_eq_some_iff_append.2 ⟨by simp, pre, post, ha, fun b hb => ?_⟩, rfl⟩
  have : b.name ≠ name := fun hn => hp (mem_attributeNames.2 ⟨b, hb, hn⟩)
  simpa using this

/-- Erasing what is not looked for. -/
private theorem find?_eraseP {p q : Attribute → Bool} (h : ∀ a, q a = true → p a = false)
    (attrs : List Attribute) : (attrs.eraseP q).find? p = attrs.find? p := by
  induction attrs with
  | nil => rfl
  | cons a attrs ih =>
    by_cases hq : q a = true
    · rw [List.eraseP_cons_of_pos hq, List.find?_cons, h a hq]
    · rw [List.eraseP_cons_of_neg hq, List.find?_cons, List.find?_cons, ih]

/-- Taking off what is no marker leaves the markers. -/
theorem marker?_removeAttr (h : isMarker name = false) :
    (o.removeAttr name).marker? = o.marker? := by
  refine congrArg (Option.map (·.name)) (find?_eraseP (fun a ha => ?_) o.attrs)
  have ha : a.name = name := by simpa using ha
  rw [ha, h]

/-- The first marker is a marker. -/
theorem isMarker_of_marker? (h : o.marker? = some name) : isMarker name = true := by
  obtain ⟨-, -, -, -, -, hm, -⟩ := findMarker_eq_some_iff.1 h
  exact hm

theorem markers_eq_nil_iff : o.markers = [] ↔ o.marker? = none := by
  unfold marker? markers
  rw [findMarker_eq_none_iff, List.filter_eq_nil_iff]
  simp

/-- Taking off the first marker leaves the others. -/
theorem markers_removeAttr (h : o.marker? = some name) :
    (o.removeAttr name).markers = o.markers.tail := by
  obtain ⟨pre, a, post, hattrs, rfl, ha, hpre⟩ := findMarker_eq_some_iff.1 h
  have hnil : pre.filter (fun b => isMarker b.name) = [] :=
    List.filter_eq_nil_iff.2 fun b hb => by simp [hpre b hb]
  rw [markers, markers, attrs_removeAttr_append hattrs (notMem_of_isMarker ha hpre), hattrs,
    List.filter_append, List.filter_append, List.filter_cons, if_pos ha, hnil, List.nil_append,
    List.nil_append, List.tail_cons]

/-- **Without its first marker a node has none if it had only one.** -/
theorem marker?_removeAttr_self_iff (h : o.marker? = some name) :
    (o.removeAttr name).marker? = none ↔ o.markers.length ≤ 1 := by
  rw [← markers_eq_nil_iff, markers_removeAttr h]
  cases o.markers with
  | nil => simp
  | cons a l => simp

/-- Taking off another attribute leaves the value of one. -/
theorem attr?_removeAttr_of_ne (h : name ≠ target) :
    (o.removeAttr name).attr? target = o.attr? target := by
  refine congrArg (Option.map (·.value)) (find?_eraseP (fun a ha => ?_) o.attrs)
  have ha : a.name = name := by simpa using ha
  simp [ha, h]

/-- Setting what is not looked for. -/
private theorem find?_setAttribute {p : Attribute → Bool} {value : String}
    (h : ∀ v, p ⟨name, v⟩ = false) (attrs : List Attribute) :
    (setAttribute name value attrs).find? p = attrs.find? p := by
  induction attrs with
  | nil => rw [setAttribute, List.find?_singleton, h, if_neg Bool.false_ne_true, List.find?_nil]
  | cons a attrs ih =>
    rw [setAttribute]
    by_cases ha : a.name = name
    · rw [if_pos ha, List.find?_cons, List.find?_cons, ha, h value,
        show p a = false by rw [← h a.value, ← ha]]
    · rw [if_neg ha, List.find?_cons, List.find?_cons, ih]

/-- Setting what is no marker leaves the markers. -/
theorem marker?_setAttr (h : isMarker name = false) (value : String) :
    (o.setAttr name value).marker? = o.marker? := by
  refine congrArg (Option.map (·.name)) (find?_setAttribute (fun _ => ?_) o.attrs)
  exact h

/-- Setting another attribute leaves the value of one. -/
theorem attr?_setAttr_of_ne (h : name ≠ target) (value : String) :
    (o.setAttr name value).attr? target = o.attr? target := by
  refine congrArg (Option.map (·.value)) (find?_setAttribute (fun v => ?_) o.attrs)
  exact decide_eq_false h

/-- Renaming what is not looked for to what is not looked for. -/
private theorem find?_renameAttribute {q : Attribute → Bool} {src : String}
    (hs : ∀ v, q ⟨src, v⟩ = false) (ht : ∀ v, q ⟨target, v⟩ = false) (attrs : List Attribute) :
    ∀ seen, (renameAttribute src target seen attrs).find? q = attrs.find? q := by
  induction attrs with
  | nil => exact fun _ => rfl
  | cons a attrs ih =>
    have hskip : ∀ n, a.name = n → (∀ v, q ⟨n, v⟩ = false) →
        (a :: attrs).find? q = attrs.find? q := fun n hn hq => by
      rw [List.find?_cons, show q a = false by rw [← hq a.value, ← hn]]
    intro seen
    rw [renameAttribute]
    split
    · rename_i h
      rw [hskip src (of_decide_eq_true (Bool.and_eq_true_iff.1 h).2) hs, List.find?_cons, ht, ih]
    · split
      · rename_i h
        rw [hskip target h ht, ih]
      · rw [List.find?_cons, List.find?_cons, ih]

/-- Renaming another attribute to another name leaves the value of one. -/
theorem attr?_renameAttr_of_ne {src dst : String} (hs : src ≠ name) (hd : dst ≠ name) :
    (o.renameAttr src dst).attr? name = o.attr? name := by
  unfold renameAttr
  split
  · refine congrArg (Option.map (·.value)) (find?_renameAttribute (fun v => ?_) (fun v => ?_)
      o.attrs false)
    · exact decide_eq_false hs
    · exact decide_eq_false hd
  · rfl

/-- A node has the value that is set. -/
theorem attr?_setAttr_self (name value : String) (o : Own) :
    (o.setAttr name value).attr? name = some value := by
  by_cases hm : name ∈ o.names
  · obtain ⟨pre, a, post, hattrs, rfl, hp⟩ := exists_append_of_mem_attributeNames hm
    have hset : (o.setAttr a.name value).attrs = pre ++ ⟨a.name, value⟩ :: post := by
      rw [setAttr]
      dsimp only
      rw [hattrs, setAttribute_append hp]
    exact attr?_of_append hset hp
  · have hset : (o.setAttr name value).attrs = o.attrs ++ [⟨name, value⟩] :=
      setAttribute_of_notMem hm
    exact attr?_of_append hset hm

/-- A marker that is renamed to a marker stays the first one. -/
theorem marker?_renameAttr (hm : o.marker? = some name) (ht : isMarker target = true) :
    (o.renameAttr name target).marker? = some target := by
  obtain ⟨pre, a, post, hattrs, rfl, hmark, hpre⟩ := findMarker_eq_some_iff.1 hm
  by_cases he : a.name = target
  · rw [renameAttr, if_neg (by simp [he]), hm, he]
  · have hp : a.name ∉ attributeNames pre := notMem_of_isMarker hmark hpre
    rw [renameAttr, if_pos ⟨he, hasAttr_iff.2 (mem_attributeNames_of_findMarker hm)⟩]
    unfold marker?
    dsimp only
    rw [hattrs, renameAttribute_append hp]
    exact findMarker_eq_some_iff.2 ⟨_, _, _, rfl, rfl, ht,
      fun b hb => hpre b (List.mem_filter.1 hb).1⟩

/-- **After a renaming a node fills the slot it was renamed to.** -/
theorem slotName_setSlotName (h : o.slotName = some slot) (ht : target ≠ "") :
    (o.setSlotName target).slotName = some target := by
  have hkind : o.kind = .element := by
    by_contra hk
    rw [slotName, if_neg hk] at h
    cases h
  rw [slotName, if_pos hkind] at h
  rw [slotName, if_pos ((kind_setSlotName target o).trans hkind)]
  unfold setSlotName
  cases hm : o.marker? with
  | some name =>
    dsimp only
    rw [marker?_renameAttr hm (isMarker_marker ht)]
    exact congrArg some (slotOfMarker_marker target)
  | none =>
    rw [hm] at h
    dsimp only at h ⊢
    have hin : o.hasAttr legacyName = true := by
      by_contra hout
      rw [attr?_eq_none_iff.2 fun hmem => hout (hasAttr_iff.2 hmem)] at h
      cases h
    rw [if_pos hin, marker?_setAttr isMarker_legacyName, hm]
    dsimp only
    rw [attr?_setAttr_self, Option.filter_some, if_pos (by simpa using ht)]

/-- **One node is marked as another**: both markers, if there are any, are
the same. -/
structure MarkedAs (o o' : Own) : Prop where
  /-- The kinds are the same. -/
  kind_eq : o'.kind = o.kind
  /-- The shorthand markers are the same. -/
  marker?_eq : o'.marker? = o.marker?
  /-- The older markers are the same. -/
  legacy_eq : o'.attr? legacyName = o.attr? legacyName

namespace MarkedAs

variable {o' o'' : Own}

theorem refl (o : Own) : o.MarkedAs o := ⟨rfl, rfl, rfl⟩

theorem trans (h : o.MarkedAs o') (h' : o'.MarkedAs o'') : o.MarkedAs o'' :=
  ⟨h'.kind_eq.trans h.kind_eq, h'.marker?_eq.trans h.marker?_eq, h'.legacy_eq.trans h.legacy_eq⟩

theorem slotName_eq (h : o.MarkedAs o') : o'.slotName = o.slotName := by
  unfold slotName
  rw [h.kind_eq, h.marker?_eq, h.legacy_eq]

/-- Setting an attribute that is no marker. -/
theorem setAttr (hm : isMarker name = false) (hl : name ≠ legacyName) (value : String) (o : Own) :
    o.MarkedAs (o.setAttr name value) where
  kind_eq := rfl
  marker?_eq := marker?_setAttr hm value
  legacy_eq := attr?_setAttr_of_ne hl value

/-- Taking off an attribute that is no marker. -/
theorem removeAttr (hm : isMarker name = false) (hl : name ≠ legacyName) (o : Own) :
    o.MarkedAs (o.removeAttr name) where
  kind_eq := rfl
  marker?_eq := marker?_removeAttr hm
  legacy_eq := attr?_removeAttr_of_ne hl

end MarkedAs

/-! ## Taking off several attributes -/

/-- Take several attributes off. -/
def removeAttrs (names : List String) (o : Own) : Own :=
  names.foldl (fun o name => o.removeAttr name) o

section RemoveAttrs

variable {ns : List String}

theorem tag_removeAttrs (ns : List String) (o : Own) : (o.removeAttrs ns).tag = o.tag := by
  induction ns generalizing o with
  | nil => rfl
  | cons name ns ih => exact ih (o.removeAttr name)

theorem names_removeAttrs_sublist (ns : List String) (o : Own) :
    (o.removeAttrs ns).names.Sublist o.names := by
  induction ns generalizing o with
  | nil => exact List.Sublist.refl _
  | cons name ns ih =>
    refine (ih (o.removeAttr name)).trans ?_
    rw [names_removeAttr]
    exact List.erase_sublist

/-- **What is taken off is gone.** -/
theorem notMem_names_removeAttrs (hn : o.names.Nodup) (hm : name ∈ ns) :
    name ∉ (o.removeAttrs ns).names := by
  induction ns generalizing o with
  | nil => cases hm
  | cons target ns ih =>
    rcases List.mem_cons.1 hm with rfl | hm
    · exact fun h => notMem_names_removeAttr _ hn ((names_removeAttrs_sublist ns _).subset h)
    · exact ih (nodup_names_removeAttr target hn) hm

/-- Taking off what is no marker leaves the markers. -/
theorem MarkedAs.removeAttrs (h : ∀ name ∈ ns, isMarker name = false ∧ name ≠ legacyName)
    (o : Own) : o.MarkedAs (o.removeAttrs ns) := by
  induction ns generalizing o with
  | nil => exact .refl o
  | cons name ns ih =>
    obtain ⟨hm, hl⟩ := h name List.mem_cons_self
    exact (MarkedAs.removeAttr hm hl o).trans (ih (fun n hn => h n (List.mem_cons_of_mem _ hn)) _)

end RemoveAttrs

/-! ## Migration -/

/-- The older marker of a node without shorthand markers becomes one in its
place. -/
theorem attrs_renameAttr_marker {pre post : List Attribute}
    (hattrs : o.attrs = pre ++ ⟨legacyName, slot⟩ :: post) (hp : legacyName ∉ attributeNames pre)
    (hnone : o.marker? = none) (hne : slot ≠ "") :
    ((o.renameAttr legacyName (marker slot)).setAttr (marker slot) "").attrs
      = pre ++ ⟨marker slot, ""⟩ :: post := by
  have hmark := isMarker_marker hne
  have hall := findMarker_eq_none_iff.1 hnone
  rw [hattrs] at hall
  -- no attribute has the new name, since none is a marker
  have hout : ∀ b ∈ pre ++ ⟨legacyName, slot⟩ :: post, b.name ≠ marker slot := fun b hb he => by
    rw [← he, hall b hb] at hmark
    cases hmark
  have hpre : ∀ b ∈ pre, b.name ≠ marker slot := fun b hb => hout b (List.mem_append_left _ hb)
  have hpost : ∀ b ∈ post, b.name ≠ marker slot := fun b hb =>
    hout b (List.mem_append_right _ (List.mem_cons_of_mem _ hb))
  have hin : o.hasAttr legacyName = true := hasAttr_iff.2 (by
    rw [names, hattrs]
    simp)
  have hdiff : legacyName ≠ marker slot := hout ⟨legacyName, slot⟩ (by simp)
  have hren : (o.renameAttr legacyName (marker slot)).attrs
      = pre ++ ⟨marker slot, slot⟩ :: post := by
    rw [renameAttr, if_pos ⟨hdiff, hin⟩]
    dsimp only
    rw [hattrs, renameAttribute_append (a := ⟨legacyName, slot⟩) hp,
      List.filter_eq_self.2 fun b hb => decide_eq_true (hpre b hb),
      List.filter_eq_self.2 fun b hb => decide_eq_true (hpost b hb)]
  unfold setAttr
  dsimp only
  rw [hren]
  refine setAttribute_append (a := ⟨marker slot, slot⟩) fun hm => ?_
  obtain ⟨b, hb, hbn⟩ := mem_attributeNames.1 hm
  exact hpre b hb hbn

/-- The three things that migration does to the attributes of an element. -/
theorem migrate_cases (hk : o.kind = .element) :
    (o.attr? legacyName = none ∧ o.migrate = o)
      ∨ (∃ slot, o.attr? legacyName = some slot ∧ (slot = "" ∨ o.marker?.isSome = true)
          ∧ o.migrate = o.removeAttr legacyName)
      ∨ ∃ slot pre post, o.attr? legacyName = some slot ∧ slot ≠ "" ∧ o.marker? = none
          ∧ o.attrs = pre ++ ⟨legacyName, slot⟩ :: post
          ∧ o.migrate.attrs = pre ++ ⟨marker slot, ""⟩ :: post ∧ o.migrate.kind = .element
          ∧ o.migrate.tag = o.tag := by
  unfold migrate
  rw [if_pos hk]
  cases hv : o.attr? legacyName with
  | none => exact Or.inl ⟨rfl, rfl⟩
  | some slot =>
    refine Or.inr ?_
    dsimp only
    by_cases hdrop : (slot.isEmpty || o.marker?.isSome) = true
    · rw [if_pos hdrop]
      refine Or.inl ⟨slot, rfl, ?_, rfl⟩
      simpa using hdrop
    · rw [if_neg hdrop]
      simp only [Bool.or_eq_true, not_or, Bool.not_eq_true, Option.isSome_eq_false_iff,
        Option.isNone_iff_eq_none] at hdrop
      obtain ⟨hne, hnone⟩ := hdrop
      have hne : slot ≠ "" := by simpa using hne
      obtain ⟨pre, a, post, hattrs, rfl, hp⟩ := exists_of_attr?_eq_some hv
      exact Or.inr ⟨slot, pre, post, rfl, hne, hnone, hattrs,
        attrs_renameAttr_marker hattrs hp hnone hne, (kind_renameAttr ..).trans hk,
        tag_renameAttr ..⟩

/-- A migration changes attributes only. -/
theorem migrate_eq (o : Own) : o.migrate = { o with attrs := o.migrate.attrs } := by
  unfold migrate
  split
  · split
    · rfl
    · split
      · rfl
      · rename_i slot _ _
        rw [renameAttr_eq legacyName (marker slot) o]
        rfl
  · rfl

theorem kind_migrate (o : Own) : o.migrate.kind = o.kind := by
  by_cases hk : o.kind = .element
  · rcases migrate_cases hk with ⟨-, h⟩ | ⟨_, -, -, h⟩ | ⟨_, _, _, -, -, -, -, -, h, -⟩
    · rw [h]
    · rw [h]
      rfl
    · rw [h, hk]
  · rw [migrate, if_neg hk]

/-- A node without the older marker. -/
theorem migrate_eq_self (h : o.kind = .element → legacyName ∉ o.names) : o.migrate = o := by
  unfold migrate
  split
  · rename_i hk
    rw [attr?_eq_none_iff.2 (h hk)]
  · rfl

/-- **After a migration there is no older marker.** -/
theorem notMem_names_migrate (hk : o.kind = .element) (hn : o.names.Nodup) :
    legacyName ∉ o.migrate.names := by
  rcases migrate_cases hk with ⟨hv, h⟩ | ⟨_, -, -, h⟩
    | ⟨slot, pre, post, -, hne, -, hattrs, hmig, -, -⟩
  · rw [h]
    exact attr?_eq_none_iff.1 hv
  · rw [h]
    exact notMem_names_removeAttr _ hn
  · rw [names, hattrs, attributeNames_append, attributeNames_cons] at hn
    rw [names, hmig, attributeNames_append, attributeNames_cons, List.mem_append, List.mem_cons]
    obtain ⟨-, hpost, hdis⟩ := List.nodup_append.1 hn
    rintro (hm | hm | hm)
    · exact hdis _ hm _ List.mem_cons_self rfl
    · have := isMarker_marker hne
      rw [← show legacyName = marker slot from hm] at this
      exact absurd this (by decide)
    · exact (List.nodup_cons.1 hpost).1 hm

/-- **A migration keeps the slot.** -/
theorem slotName_migrate (hn : o.names.Nodup) : o.migrate.slotName = o.slotName := by
  by_cases hk : o.kind = .element
  · have hlegacy := notMem_names_migrate hk hn
    rw [slotName, slotName, if_pos hk, if_pos ((kind_migrate o).trans hk)]
    rcases migrate_cases hk with ⟨-, h⟩ | ⟨slot, hv, hdrop, h⟩
      | ⟨slot, pre, post, hv, hne, hnone, hattrs, hmig, -, -⟩
    · rw [h]
    · rw [attr?_eq_none_iff.2 hlegacy, h, marker?_removeAttr isMarker_legacyName, hv]
      cases hm : o.marker? with
      | some name => rfl
      | none =>
        rw [hm] at hdrop
        rw [hdrop.resolve_right (by simp)]
        rfl
    · have hall := findMarker_eq_none_iff.1 hnone
      rw [hattrs] at hall
      have hfirst : o.migrate.marker? = some (marker slot) :=
        findMarker_eq_some_iff.2 ⟨pre, _, post, hmig, rfl, isMarker_marker hne,
          fun b hb => hall b (List.mem_append_left _ hb)⟩
      rw [hfirst, hnone, hv]
      dsimp only
      rw [slotOfMarker_marker, Option.filter_some, if_pos (by simpa using hne)]
  · rw [migrate, if_neg hk]

/-! ## Wrappers -/

/-- The own data of a template with a marker. -/
def wrapper (name : String) : Own :=
  { kind := .element, tag := wrapperTag, attrs := [⟨name, ""⟩] }

theorem nodup_names_wrapper (name : String) : (wrapper name).names.Nodup :=
  List.nodup_singleton _

theorem marker?_wrapper (h : isMarker name = true) : (wrapper name).marker? = some name :=
  findMarker_eq_some_iff.2 ⟨[], _, [], rfl, rfl, h, nofun⟩

theorem slotName_wrapper (h : isMarker name = true) :
    (wrapper name).slotName = some (slotOfMarker name) := by
  rw [slotName, if_pos (show (wrapper name).kind = .element from rfl), marker?_wrapper h]

end Own

end PageSlots.Markup
