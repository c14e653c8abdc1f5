import PageSlots.Proofs.Content.Place
import PageSlots.Proofs.Content.TagPlace
import PageSlots.Proofs.Slot.AlikeDraft

/-!
# Markers in the text of a page

A marker is written in a start tag, in one of two spellings: `slot="name"`
or `#name`. A `MarkerPlace` is a page with a place for a marker in one of
its tags, and `MarkerPlace.Marks` says that a spelling there is read as the
only marker of an element outside regions: reading the page comes to the
tag, and reading the attributes of the tag comes to the spelling.

If it comes to the older spelling, it comes to the newer one at the same
place with the same draft and the same attributes (`Holds.respell`), and
what is read then are the two elements of `Own.Respelled`. The name of an
attribute is read in lower case and a value as it is. So the newer spelling
of a name is that of the older one in small letters.
-/

namespace PageSlots.Markup

open PageSlots.Page PageSlots.Slot PageSlots.Text

/-! ## Spellings -/

/-- The older spelling of a marker. -/
def olderSpelling (slot : List Char) : List Char :=
  "slot=".toList ++ '"' :: (slot ++ ['"'])

/-- The newer spelling of a marker. -/
def newerSpelling (slot : List Char) : List Char :=
  '#' :: slot

/-- **The name of a slot as authors write it**: letters, digits and
hyphens. -/
def IsSlotText (slot : List Char) : Prop :=
  slot ≠ [] ∧ ∀ c ∈ slot, c.isAlphanum = true ∨ c = '-'

/-- No key of a list is the name of a slot marker. -/
def NoMarkerKeys (attrs : List (List Char × List Char)) : Prop :=
  ∀ a ∈ attrs, String.ofList (asciiLower a.1) ≠ legacyName
    ∧ isMarker (String.ofList (asciiLower a.1)) = false

instance (slot : List Char) : Decidable (IsSlotText slot) :=
  decidable_of_iff (slot ≠ [] ∧ slot.all (fun c => c.isAlphanum || c = '-') = true)
    (by simp [IsSlotText])

instance (attrs : List (List Char × List Char)) : Decidable (NoMarkerKeys attrs) :=
  inferInstanceAs (Decidable (∀ a ∈ attrs, String.ofList (asciiLower a.1) ≠ legacyName
    ∧ isMarker (String.ofList (asciiLower a.1)) = false))

/-- A character of a slot's name is none of a tag's own. -/
theorem IsSlotText.ne {slot : List Char} (h : IsSlotText slot) {c d : Char} (hc : c ∈ slot)
    (hd : d.isAlphanum = false) (hne : d ≠ '-') : c ≠ d := by
  rintro rfl
  rcases h.2 c hc with ha | rfl
  · rw [hd] at ha
    cases ha
  · exact hne rfl

theorem IsSlotText.isKeyChar {slot : List Char} (h : IsSlotText slot) :
    ∀ c ∈ slot, isKeyChar c = true := fun c hc => by
  simp [Markup.isKeyChar, isTagBlank, h.ne hc (d := ' ') rfl (by decide),
    h.ne hc (d := '\t') rfl (by decide), h.ne hc (d := '\n') rfl (by decide),
    h.ne hc (d := '\r') rfl (by decide), h.ne hc (d := '=') rfl (by decide)]

theorem IsSlotText.notQuote {slot : List Char} (h : IsSlotText slot) :
    ∀ c ∈ slot, c ≠ '>' ∧ c ≠ '"' ∧ c ≠ '\'' := fun _ hc =>
  ⟨h.ne hc rfl (by decide), h.ne hc rfl (by decide), h.ne hc rfl (by decide)⟩

/-- In small letters it is one again. -/
theorem IsSlotText.asciiLower {slot : List Char} (h : IsSlotText slot) :
    IsSlotText (asciiLower slot) := by
  refine ⟨fun he => h.1 (List.map_eq_nil_iff.1 he), fun c hc => ?_⟩
  obtain ⟨d, hd, rfl⟩ := List.mem_map.1 hc
  rcases toLower_cases d with ⟨-, he⟩ | hl
  · rw [he]
    exact h.2 d hd
  · exact .inl (Bool.or_eq_true_iff.2 (.inl (Bool.or_eq_true_iff.2 (.inr hl))))

/-! ## Attributes that are read -/

namespace Own

variable {o o' : Own} {slot : List Char} {a : List Char × List Char}
variable {attrs : List (List Char × List Char)}

/-- An attribute whose name is there changes nothing, and another one is
added at the end. -/
theorem addAttribute_eq (o : Own) (a : List Char × List Char) :
    o.addAttribute a = o ∧ String.ofList (asciiLower a.1) ∈ o.names
      ∨ o.addAttribute a = { o with
          attrs := o.attrs ++ [⟨String.ofList (asciiLower a.1), String.ofList a.2⟩] }
        ∧ String.ofList (asciiLower a.1) ∉ o.names := by
  unfold addAttribute
  dsimp only
  by_cases hm : String.ofList (asciiLower a.1) ∈ o.names
  · exact .inl ⟨if_pos (hasAttr_iff.2 hm), hm⟩
  · refine .inr ⟨?_, hm⟩
    rw [if_neg fun hh => hm (hasAttr_iff.1 hh), setAttr, setAttribute_of_notMem hm]

/-- Attributes that are no markers add none. -/
theorem noMarkers_foldl_addAttribute (ha : NoMarkerKeys attrs) : ∀ {o : Own}, NoMarkers o.attrs →
    ∃ attrs', attrs.foldl addAttribute o = { o with attrs := attrs' } ∧ NoMarkers attrs' := by
  induction attrs with
  | nil => exact fun h => ⟨_, rfl, h⟩
  | cons a attrs ih =>
    intro o h
    obtain ⟨hkey, hrest⟩ := List.forall_mem_cons.1 ha
    rcases o.addAttribute_eq a with ⟨he, -⟩ | ⟨he, -⟩
    · rw [List.foldl_cons, he]
      exact ih hrest h
    · rw [List.foldl_cons, he]
      exact ih hrest (o := { o with attrs := _ })
        (NoMarkers.append_iff.2 ⟨h, List.forall_mem_singleton.2 hkey⟩)

/-- An attribute that is no marker keeps two spellings of one element. -/
theorem Respelled.addAttribute (h : Respelled o o')
    (ha : String.ofList (asciiLower a.1) ≠ legacyName
      ∧ isMarker (String.ofList (asciiLower a.1)) = false) :
    Respelled (o.addAttribute a) (o'.addAttribute a) := by
  have hnames : String.ofList (asciiLower a.1) ∈ o.names
      ↔ String.ofList (asciiLower a.1) ∈ o'.names := by
    cases h with
    | @intro tag text slot pre post hs hn =>
      have hne : String.ofList (asciiLower a.1) ≠ marker slot := fun he => by
        rw [he, isMarker_marker hs] at ha
        cases ha.2
      simp [names, attributeNames_append, attributeNames_cons, ha.1, hne]
  rcases o.addAttribute_eq a with ⟨he, hm⟩ | ⟨he, hm⟩
  · rcases o'.addAttribute_eq a with ⟨he', -⟩ | ⟨-, hm'⟩
    · rwa [he, he']
    · exact absurd (hnames.1 hm) hm'
  · rcases o'.addAttribute_eq a with ⟨-, hm'⟩ | ⟨he', -⟩
    · exact absurd (hnames.2 hm') hm
    · rw [he, he']
      cases h with
      | @intro tag text slot pre post hs hn =>
        let added : Attribute := ⟨String.ofList (asciiLower a.1), String.ofList a.2⟩
        have hnone : NoMarkers (pre ++ (post ++ [added])) := by
          rw [← List.append_assoc]
          exact NoMarkers.append_iff.2 ⟨hn, List.forall_mem_singleton.2 ha⟩
        have hboth : Respelled ⟨.element, tag, pre ++ ⟨legacyName, slot⟩ :: (post ++ [added]), text⟩
            ⟨.element, tag, pre ++ ⟨marker slot, ""⟩ :: (post ++ [added]), text⟩ :=
          .intro tag text hs hnone
        simpa [added] using hboth

theorem Respelled.foldl_addAttribute (ha : NoMarkerKeys attrs) : ∀ {o o' : Own}, Respelled o o' →
    Respelled (attrs.foldl Own.addAttribute o) (attrs.foldl Own.addAttribute o') := by
  induction attrs with
  | nil => exact fun h => h
  | cons a attrs ih =>
    obtain ⟨hkey, hrest⟩ := List.forall_mem_cons.1 ha
    exact fun h => ih hrest (h.addAttribute hkey)

/-- **The two spellings, read as attributes**, after attributes that are no
markers and before such. -/
theorem respelled_of_attributes {later : List (List Char × List Char)} (tag : String)
    (hs : slot ≠ []) (hkeys : NoMarkerKeys (attrs ++ later)) :
    Respelled
      ((attrs ++ ("slot".toList, asciiLower slot) :: later).foldl Own.addAttribute
        { kind := .element, tag })
      ((attrs ++ ('#' :: slot, []) :: later).foldl Own.addAttribute { kind := .element, tag }) := by
  obtain ⟨hattrs, hlater⟩ := List.forall_mem_append.1 hkeys
  obtain ⟨pre, hpre, hn⟩ := noMarkers_foldl_addAttribute hattrs
    (o := { kind := .element, tag }) (List.forall_mem_nil _)
  rw [List.foldl_append, List.foldl_append, hpre, List.foldl_cons, List.foldl_cons]
  refine Respelled.foldl_addAttribute hlater ?_
  have hne : String.ofList (asciiLower slot) ≠ "" := fun he =>
    hs (List.map_eq_nil_iff.1 (String.ofList_eq_empty_iff.1 he))
  have holder : String.ofList (asciiLower "slot".toList) = legacyName := by decide
  have hnewer : String.ofList (asciiLower ('#' :: slot))
      = marker (String.ofList (asciiLower slot)) := by
    rw [asciiLower, List.map_cons, ← List.singleton_append, String.ofList_append]
    rfl
  rcases addAttribute_eq (⟨.element, tag, pre, ""⟩ : Own) ("slot".toList, asciiLower slot)
    with ⟨-, hm⟩ | ⟨ho, -⟩
  · exact absurd (holder ▸ hm) hn.legacy_notMem
  rcases addAttribute_eq (⟨.element, tag, pre, ""⟩ : Own) ('#' :: slot, [])
    with ⟨-, hm⟩ | ⟨ho', -⟩
  · exact absurd (hnewer ▸ hm) (hn.marker_notMem hne)
  rw [ho, ho', holder, hnewer]
  exact .intro tag "" hne (NoMarkers.append_iff.2 ⟨hn, List.forall_mem_nil _⟩)

end Own

/-! ## Reading a spelling -/

section Read

variable {slot later : List Char}

theorem opensKey_olderSpelling (slot later : List Char) :
    OpensKey (olderSpelling slot ++ later) :=
  ⟨'s', _, rfl, by decide⟩

theorem opensKey_newerSpelling (slot later : List Char) :
    OpensKey (newerSpelling slot ++ later) :=
  ⟨'#', _, rfl, by decide⟩

/-- **The older spelling** is an attribute with a value. -/
theorem readAttributes_olderSpelling (h : IsSlotText slot) (later : List Char) :
    readAttributes (olderSpelling slot ++ later)
      = (("slot".toList, slot) :: (readAttributes later).1, (readAttributes later).2) := by
  have hvalue : '"' ∉ slot := fun hm => (h.notQuote _ hm).2.1 rfl
  have hread : readAttribute (olderSpelling slot ++ later)
      = some (.ok (("slot".toList, slot), later)) := by
    show readAttribute ('s' :: ("lot=".toList ++ '"' :: (slot ++ ['"']) ++ later)) = _
    rw [readAttribute_cons (by decide), List.append_assoc, List.cons_append, List.append_assoc,
      List.singleton_append]
    show some ((readValue ('"' :: (slot ++ '"' :: later))).map _) = _
    rw [readValue_quoted hvalue]
    rfl
  rw [readAttributes]
  grind

/-- **The newer spelling** is an attribute without a value if no value
follows. -/
theorem readAttributes_newerSpelling (h : IsSlotText slot)
    (hblank : ∀ c ∈ later.head?, isTagBlank c = true)
    (hvalue : (later.dropWhile isTagBlank).head? ≠ some '=') :
    readAttributes (newerSpelling slot ++ later)
      = (('#' :: slot, []) :: (readAttributes later).1, (readAttributes later).2) := by
  have hout : ∀ c ∈ later.head?, isKeyChar c = false := fun c hc => by
    simp [isKeyChar, hblank c hc]
  have hread : readAttribute (newerSpelling slot ++ later)
      = some (.ok (('#' :: slot, []), later.dropWhile isTagBlank)) := by
    rw [newerSpelling, List.cons_append, readAttribute_cons (by decide),
      takeWhile_append h.isKeyChar hout, dropWhile_append h.isKeyChar hout,
      readBehind_of_head? hvalue]
  rw [readAttributes, ← readAttributes_dropWhile later]
  grind

end Read

/-! ## Places for a marker -/

/-- **A page with a place for a marker** in one of its start tags. -/
structure MarkerPlace where
  /-- The page before the tag. -/
  front : List Char
  /-- The name of the tag. -/
  name : List Char
  /-- What stands between the name and the marker. -/
  earlier : List Char
  /-- What stands between the marker and the end of the tag. -/
  later : List Char
  /-- The page after the tag. -/
  rest : List Char

namespace MarkerPlace

variable {m : MarkerPlace} {spelling slot : List Char} {z : Draft}
variable {attrs : List (List Char × List Char)}

/-- What the tag holds with a spelling of the marker. -/
def content (m : MarkerPlace) (spelling : List Char) : List Char :=
  m.name ++ (m.earlier ++ (spelling ++ m.later))

/-- The page from the tag on. -/
def tail (m : MarkerPlace) (spelling : List Char) : List Char :=
  '<' :: (m.content spelling ++ '>' :: m.rest)

/-- **The page** with a spelling of the marker. -/
def page (m : MarkerPlace) (spelling : List Char) : String :=
  String.ofList (m.front ++ m.tail spelling)

/-- The attributes after the marker. -/
def laterAttributes (m : MarkerPlace) : List (List Char × List Char) :=
  (readAttributes (unslashed m.later)).1

/-- **Reading the page comes to the place**: to the tag with a draft, and in
the tag to the spelling with attributes. -/
structure Holds (m : MarkerPlace) (spelling : List Char) (z : Draft)
    (attrs : List (List Char × List Char)) : Prop where
  /-- The tag is a start tag. -/
  opens : ∃ c cs, m.name = c :: cs ∧ c.isAlpha = true
  /-- Reading comes to it. -/
  comes : Draft.ComesTo {} (m.front ++ m.tail spelling) z (m.tail spelling)
  /-- It ends where it does. -/
  ends : readTag none (m.content spelling ++ '>' :: m.rest) = .ok (m.content spelling, m.rest)
  /-- It has the name. -/
  named : tagName (m.content spelling) = m.name
  /-- Reading its attributes comes to the spelling. -/
  attributes : AttributesTo (m.earlier ++ (spelling ++ unslashed m.later)) attrs
    (spelling ++ unslashed m.later)

/-- **A spelling at the place is the only marker** of an element outside
regions, and no value follows it. -/
structure Marks (m : MarkerPlace) (spelling : List Char) (z : Draft)
    (attrs : List (List Char × List Char)) : Prop extends m.Holds spelling z attrs where
  /-- The element is in no region. -/
  outside : ∀ e ∈ z.outer, regionOf e.1.tag = none
  /-- No other attribute is a marker. -/
  only : NoMarkerKeys (attrs ++ m.laterAttributes)
  /-- The spelling ends at the end of the tag, or at a blank. -/
  blank : ∀ c ∈ (unslashed m.later).head?, isTagBlank c = true
  /-- No value follows. -/
  noValue : ((unslashed m.later).dropWhile isTagBlank).head? ≠ some '='

theorem Holds.opensTag (h : m.Holds spelling z attrs) (spelling' : List Char) :
    OpensTag (m.tail spelling') := by
  obtain ⟨c, cs, hname, hc⟩ := h.opens
  exact ⟨c, cs ++ (m.earlier ++ (spelling' ++ m.later)) ++ '>' :: m.rest,
    by rw [tail, content, hname]; rfl, hc⟩

/-- The name and the attributes of the tag are apart: the name ends at a
blank. -/
theorem Holds.tagName_eq (h : m.Holds spelling z attrs) (hkey : OpensKey (spelling ++ m.later))
    (text : List Char) : tagName (m.name ++ (m.earlier ++ text)) = m.name
      ∧ tagAttributes (m.name ++ (m.earlier ++ text)) = m.earlier ++ text := by
  have hdrop : (m.content spelling).dropWhile (!isTagBlank ·)
      = m.earlier ++ (spelling ++ m.later) := by
    refine (List.append_right_inj m.name).1 ?_
    conv => lhs; rw [← h.named]
    exact List.takeWhile_append_dropWhile
  have hin : ∀ c ∈ m.name, (!isTagBlank c) = true := fun c hc => by
    rw [← h.named] at hc
    exact List.mem_takeWhile_imp (p := fun c => !isTagBlank c) hc
  have hout : ∀ c ∈ (m.earlier ++ text).head?, (!isTagBlank c) = false := by
    cases hearlier : m.earlier with
    | nil =>
      -- the name would go on with the spelling
      obtain ⟨c, rest, hspelling, hc⟩ := hkey
      rw [hearlier, List.nil_append, hspelling] at hdrop
      have := eq_false_of_dropWhile_eq_cons hdrop
      rw [isKeyChar, Bool.and_eq_true, this] at hc
      cases hc.1
    | cons b earlier =>
      rw [hearlier] at hdrop
      intro c hc
      rw [← Option.some.inj hc]
      exact eq_false_of_dropWhile_eq_cons hdrop
  exact ⟨takeWhile_append hin hout, dropWhile_append hin hout⟩

/-- The older spelling closes the quote that it opens, and inside a quote
it opens the one that it closes. -/
theorem foldl_quoteAfter_olderSpelling (hs : IsSlotText slot) {quote : Option Char}
    (hq : ∀ q ∈ quote, q = '"' ∨ q = '\'') :
    (olderSpelling slot).foldl quoteAfter quote = quote := by
  have hslot : ∀ {quote : Option Char}, (∀ q ∈ quote, q = '"' ∨ q = '\'') →
      slot.foldl quoteAfter quote = quote :=
    foldl_quoteAfter_of_notQuote fun c hc => (hs.notQuote c hc).2
  have hkey : "slot=".toList.foldl quoteAfter quote = quote :=
    foldl_quoteAfter_of_notQuote (by simp) hq
  have hopened : ∀ q ∈ quoteAfter quote '"', q = '"' ∨ q = '\'' :=
    eq_quote_of_mem_foldl_quoteAfter (s := ['"']) hq
  rw [olderSpelling, List.foldl_append, hkey, List.foldl_cons, List.foldl_append, hslot hopened]
  match quote with
  | none => rfl
  | some q =>
    rcases hq q rfl with rfl | rfl <;> rfl

/-- **Reading comes to the newer spelling** if it comes to the older one at
the same place, with the same draft and the same attributes. -/
theorem Holds.respell {slot' : List Char} (hs : IsSlotText slot) (hs' : IsSlotText slot')
    (h : m.Holds (olderSpelling slot) z attrs) : m.Holds (newerSpelling slot') z attrs where
  opens := h.opens
  comes := h.comes.replace (h.opensTag _).isStop (h.opensTag _).ne_nil (h.opensTag _).isStop
  ends := by
    have hends := h.ends
    rw [content, ← List.append_assoc, List.append_assoc] at hends
    obtain ⟨htail, happend⟩ := readTag_append_of_ok hends
    rw [List.append_assoc] at htail
    obtain ⟨hlater, -⟩ := readTag_append_of_ok htail
    have hquote : ∀ q ∈ (m.name ++ m.earlier).foldl quoteAfter none, q = '"' ∨ q = '\'' :=
      eq_quote_of_mem_foldl_quoteAfter nofun
    have hnot : ∀ c ∈ newerSpelling slot', c ≠ '>' ∧ c ≠ '"' ∧ c ≠ '\'' := fun c hc => by
      rcases List.mem_cons.1 hc with rfl | hc
      · decide
      · exact hs'.notQuote c hc
    rw [foldl_quoteAfter_olderSpelling hs hquote] at hlater
    rw [content, ← List.append_assoc, List.append_assoc, happend, List.append_assoc,
      readTag_append_of_notQuote hnot hquote, hlater]
    rfl
  named := (h.tagName_eq (opensKey_olderSpelling slot _) _).1
  attributes := h.attributes.replace (opensKey_olderSpelling slot _) (opensKey_newerSpelling slot' _)

/-- The construct that the tag is. -/
theorem Holds.readConstruct_eq (h : m.Holds spelling z attrs) :
    readConstruct (m.content spelling ++ '>' :: m.rest)
      = .ok (startOrEmpty (m.content spelling), m.rest) := by
  have hends := h.ends
  obtain ⟨c, cs, hname, hc⟩ := h.opens
  have hcontent : m.content spelling = c :: (cs ++ (m.earlier ++ (spelling ++ m.later))) := by
    rw [content, hname]
    rfl
  rw [hcontent] at hends ⊢
  exact readConstruct_of_isAlpha hc hends

/-- Reading the page goes on with the tag. -/
theorem Holds.read_eq (h : m.Holds spelling z attrs) (total : Nat) :
    Draft.read {} total (m.front ++ m.tail spelling)
      = match z.add (startOrEmpty (m.content spelling)) m.rest with
        | (.error fault, z') => (some fault, z')
        | (.ok next, z') => z'.read total next := by
  have hnone : z.addText [] = z := if_pos rfl
  have htag := Draft.read_of_ok (h.opensTag spelling).isStop.boundary.breakAtConstruct_eq
    h.readConstruct_eq z total
  rw [hnone] at htag
  exact (h.comes.read_eq total).trans htag

/-- The attributes of the tag: the spelling stands between the others. -/
theorem Holds.readAttributes_eq (h : m.Holds spelling z attrs)
    (hkey : OpensKey (spelling ++ m.later)) {a : List Char × List Char}
    (hread : readAttributes (spelling ++ unslashed m.later)
      = (a :: m.laterAttributes, (readAttributes (unslashed m.later)).2)) :
    readAttributes (tagAttributes (m.name ++ (m.earlier ++ (spelling ++ unslashed m.later))))
      = (attrs ++ a :: m.laterAttributes, (readAttributes (unslashed m.later)).2) := by
  rw [(h.tagName_eq hkey _).2, h.attributes.readAttributes_eq, hread]

/-- The own data of the tag. -/
theorem Holds.ofTag_eq (h : m.Holds spelling z attrs) (hkey : OpensKey (spelling ++ m.later))
    {a : List Char × List Char}
    (hread : readAttributes (spelling ++ unslashed m.later)
      = (a :: m.laterAttributes, (readAttributes (unslashed m.later)).2)) :
    Own.ofTag (m.name ++ (m.earlier ++ (spelling ++ unslashed m.later)))
      = (attrs ++ a :: m.laterAttributes).foldl Own.addAttribute
        { kind := .element, tag := String.ofList (asciiLower m.name) } := by
  rw [Own.ofTag, h.readAttributes_eq hkey hread, (h.tagName_eq hkey _).1]

/-- **The two spellings are read as alike elements.** -/
theorem Marks.tagsAlike (hs : IsSlotText slot)
    (h : m.Marks (olderSpelling (asciiLower slot)) z attrs) :
    Draft.TagsAlike (Draft.InRegion z.outer)
      (Own.ofTag? (m.name ++ (m.earlier ++ (olderSpelling (asciiLower slot) ++ unslashed m.later))))
      (Own.ofTag? (m.name ++ (m.earlier ++ (newerSpelling slot ++ unslashed m.later)))) := by
  have hnewer := h.toHolds.respell hs.asciiLower hs
  have hkey := opensKey_olderSpelling (asciiLower slot) m.later
  have hkey' := opensKey_newerSpelling slot m.later
  have hread := readAttributes_olderSpelling hs.asciiLower (unslashed m.later)
  have hread' := readAttributes_newerSpelling hs h.blank h.noValue
  cases hf : (readAttributes (unslashed m.later)).2 with
  | some fault =>
    rw [Own.ofTag?_of_some (by rw [h.readAttributes_eq hkey hread]; exact hf),
      Own.ofTag?_of_some (by rw [hnewer.readAttributes_eq hkey' hread']; exact hf)]
    exact .error _ _
  | none =>
    rw [Own.ofTag?_of_none (by rw [h.readAttributes_eq hkey hread]; exact hf),
      Own.ofTag?_of_none (by rw [hnewer.readAttributes_eq hkey' hread']; exact hf),
      h.ofTag_eq hkey hread, hnewer.ofTag_eq hkey' hread']
    refine .ok (.inr (Own.respelled_of_attributes _ hs.1 h.only)) fun ⟨e, he, hne⟩ => ?_
    exact absurd (h.outside e he) hne

/-- **The pages with the two spellings are read alike.** -/
theorem Marks.readAlike (hs : IsSlotText slot)
    (h : m.Marks (olderSpelling (asciiLower slot)) z attrs) (total total' : Nat) :
    Draft.ReadAlike (Draft.read {} total (m.front ++ m.tail (olderSpelling (asciiLower slot))))
      (Draft.read {} total' (m.front ++ m.tail (newerSpelling slot))) := by
  have hcontent : ∀ spelling, m.content spelling = m.name ++ m.earlier ++ spelling ++ m.later :=
    fun spelling => by simp only [content, List.append_assoc]
  obtain ⟨c, hlast, hc⟩ : ∃ c, slot.getLast? = some c ∧ c ∈ slot :=
    ⟨slot.getLast hs.1, List.getLast?_eq_some_getLast hs.1, List.getLast_mem hs.1⟩
  have hold : (m.name ++ m.earlier ++ olderSpelling (asciiLower slot)).getLast? = some '"' := by
    rw [olderSpelling, ← List.cons_append, ← List.append_assoc, ← List.append_assoc]
    exact List.getLast?_concat
  have hnew : (m.name ++ m.earlier ++ newerSpelling slot).getLast? = some c := by
    simp [newerSpelling, List.getLast?_append, List.getLast?_cons, hlast]
  have htags := h.tagsAlike hs
  have hadded : Draft.AddedAlike
      (z.add (startOrEmpty (m.content (olderSpelling (asciiLower slot)))) m.rest)
      (z.add (startOrEmpty (m.content (newerSpelling slot))) m.rest) := by
    rw [hcontent, hcontent, startOrEmpty_append hold (by decide),
      startOrEmpty_append hnew (hs.ne hc rfl (by decide))]
    simp only [← List.append_assoc] at htags
    split
    · exact (Draft.Alike.refl z).add_emptyTag htags m.rest
    · exact (Draft.Alike.refl z).add_startTag htags m.rest
  rw [h.read_eq, (h.toHolds.respell hs.asciiLower hs).read_eq]
  generalize z.add (startOrEmpty (m.content (olderSpelling (asciiLower slot)))) m.rest = r at hadded
  generalize z.add (startOrEmpty (m.content (newerSpelling slot))) m.rest = r' at hadded
  cases hadded with
  | error fault fault' w w' => exact .some fault fault' w w'
  | ok next hw => exact hw.read total total' next

/-- **The contents of the two pages are alike**, or neither page can be
read. -/
theorem Marks.parse_alike (hs : IsSlotText slot)
    (h : m.Marks (olderSpelling (asciiLower slot)) z attrs) :
    (∃ cs cs' log, List.Forall₂ Content.Alike cs cs'
      ∧ Content.parse (m.page (olderSpelling (asciiLower slot))) = (.ok cs, log)
      ∧ Content.parse (m.page (newerSpelling slot)) = (.ok cs', log))
    ∨ ∃ fault fault' log log',
      Content.parse (m.page (olderSpelling (asciiLower slot))) = (.error fault, log)
      ∧ Content.parse (m.page (newerSpelling slot)) = (.error fault', log') := by
  unfold Content.parse page
  rw [String.toList_ofList, String.toList_ofList]
  have hread := h.readAlike hs (byteLength (m.front ++ m.tail (olderSpelling (asciiLower slot))))
    (byteLength (m.front ++ m.tail (newerSpelling slot)))
  generalize Draft.read {} _ (m.front ++ m.tail (olderSpelling (asciiLower slot))) = r at hread ⊢
  generalize Draft.read {} _ (m.front ++ m.tail (newerSpelling slot)) = r' at hread ⊢
  cases hread with
  | @none w w' hw => exact .inl ⟨_, _, w.log, hw.contents, rfl, by rw [hw.log_eq]⟩
  | some fault fault' w w' => exact .inr ⟨fault, fault', w.log, w'.log, rfl, rfl⟩

end MarkerPlace

end PageSlots.Markup
