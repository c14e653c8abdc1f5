import Mathlib.Data.List.Infix
import PageSlots.Settings.Expansion

/-!
# What an expansion copies

A setting is written around its references, so it matters which text an
expansion leaves as it stands. A value without `${` is never looked at.
As soon as there is one reference in braces, though, the *whole* value is
scanned, and the scan knows references without braces too: the same text
`$HOME/site` is copied where it stands alone and is a reference where
`${NAME}` follows. So the text before a reference in braces is copied
exactly if it holds no such *bare* reference, a `$` before a second one or
before a character of a name (`expand_append`). What comes of other text
is still told piece by piece: the two sides of a place where no name is
cut in two are expanded on their own.

Text that ends in `$` is a case apart, since the sign may belong to what
follows: `$${NAME}` is a dollar sign and the text `{NAME}`.
-/

namespace PageSlots.Text

/-- **A pattern that occurs is found.** -/
theorem breakOn?_isSome_iff {pattern text : List Char} (hp : pattern ≠ []) :
    (breakOn? pattern text).isSome = true ↔ pattern <:+: text := by
  induction text with
  | nil => simp [breakOn?, hp]
  | cons c text ih =>
    rw [breakOn?, List.infix_cons_iff, ← List.isPrefixOf_iff_prefix]
    split
    · rename_i h
      simp [h]
    · rename_i h
      rw [Option.isSome_map, ih]
      simp [h]

end PageSlots.Text

namespace PageSlots.Settings

open PageSlots.Text

variable {env : Environment} {c : Char} {text u v w : List Char}

theorem hasBraced_iff : hasBraced text = true ↔ ['$', '{'] <:+: text :=
  breakOn?_isSome_iff (List.cons_ne_nil _ _)

/-! ## One reference after the other -/

@[simp] theorem expandReferences_nil (env : Environment) : expandReferences env [] = .ok [] := by
  rw [expandReferences]

/-- What follows a character that begins no reference. -/
theorem expandReferences_cons (h : c = '$' → text = []) :
    expandReferences env (c :: text) = (expandReferences env text).map (c :: ·) := by
  rw [expandReferences]
  · rfl
  · rintro rest rfl rfl
    cases h rfl
  · rintro rest rfl rfl
    cases h rfl
  · rintro d rest rfl rfl
    cases h rfl

theorem expandReferences_dollar (env : Environment) (text : List Char) :
    expandReferences env ('$' :: '$' :: text) = (expandReferences env text).map ('$' :: ·) := by
  rw [expandReferences]
  rfl

theorem isNameChar_dollar : isNameChar '$' = false := by decide +kernel

theorem isNameChar_brace : isNameChar '{' = false := by decide +kernel

/-- A name goes as far as it can. -/
theorem expandReferences_name (h : isNameChar c = true) :
    expandReferences env ('$' :: c :: text) = do
      let value ← requireVariable env (c :: text.takeWhile isNameChar)
      let rest ← expandReferences env (text.dropWhile isNameChar)
      return value ++ rest := by
  rw [expandReferences, if_pos h]
  · rintro rfl
    rw [isNameChar_brace] at h
    cases h
  · rintro rfl
    rw [isNameChar_dollar] at h
    cases h

/-- A `$` before a character of no name begins nothing. -/
theorem expandReferences_lone (hb : c ≠ '{') (hd : c ≠ '$') (h : ¬ isNameChar c = true) :
    expandReferences env ('$' :: c :: text)
      = (expandReferences env (c :: text)).map ('$' :: ·) := by
  rw [expandReferences, if_neg h]
  · rfl
  · exact hb
  · exact hd

/-- The first characters of a kind, where the text behind begins with
another one. -/
theorem takeWhile_append_of_head? {p : Char → Bool} (h : ∀ c ∈ v.head?, p c = false) :
    (u ++ v).takeWhile p = u.takeWhile p ∧ (u ++ v).dropWhile p = u.dropWhile p ++ v := by
  induction u with
  | nil =>
    cases v with
    | nil => exact ⟨rfl, rfl⟩
    | cons c v =>
      have hc : ¬ p c = true := by
        rw [h c rfl]
        exact Bool.false_ne_true
      exact ⟨List.takeWhile_cons_of_neg hc, List.dropWhile_cons_of_neg hc⟩
  | cons c u ih =>
    rw [List.cons_append]
    by_cases hc : p c = true
    · rw [List.takeWhile_cons_of_pos hc, List.takeWhile_cons_of_pos hc,
        List.dropWhile_cons_of_pos hc, List.dropWhile_cons_of_pos hc, ih.1]
      exact ⟨rfl, ih.2⟩
    · rw [List.takeWhile_cons_of_neg hc, List.takeWhile_cons_of_neg hc,
        List.dropWhile_cons_of_neg hc, List.dropWhile_cons_of_neg hc]
      exact ⟨rfl, rfl⟩

/-- A `$` that begins no reference and is no lone one ends the text. -/
theorem eq_nil_of_no_reference (h : ∀ d rest, c = '$' → text = d :: rest → False) :
    c = '$' → text = [] := by
  intro hc
  cases text with
  | nil => rfl
  | cons d rest => exact (h d rest hc rfl).elim

theorem eq_cons_of_map {x : Except UnsetVariable (List Char)} (h : x.map (c :: ·) = .ok w) :
    ∃ w', x = .ok w' ∧ w = c :: w' := by
  cases x with
  | error _ => cases h
  | ok w' =>
    cases h
    exact ⟨w', rfl, rfl⟩

theorem requireVariable_nil (name : List Char) :
    requireVariable [] name = .error ⟨String.ofList name⟩ := by
  unfold requireVariable Environment.get?
  split
  · rename_i h
    split at h <;> cases h
  · rfl

/-- What is expanded in two pieces, with a character before the first. -/
theorem append_map_cons (x y : Except UnsetVariable (List Char)) (c : Char) :
    (do
      let before ← x.map (c :: ·)
      let after ← y
      return before ++ after)
      = (do
          let before ← x
          let after ← y
          return before ++ after).map (c :: ·) := by
  cases x with
  | error _ => rfl
  | ok _ =>
    cases y with
    | error _ => rfl
    | ok _ => rfl

/-! ## Bare references -/

/-- **A text holds a bare reference**: a `$` before a second one or before
a character of a name. -/
def HasBareReference (text : List Char) : Prop :=
  ∃ c, (c = '$' ∨ isNameChar c = true) ∧ ['$', c] <:+: text

theorem HasBareReference.mono (h : HasBareReference u) (hu : u <:+: v) : HasBareReference v := by
  obtain ⟨c, hc, hi⟩ := h
  exact ⟨c, hc, hi.trans hu⟩

theorem HasBareReference.cons (h : HasBareReference text) (c : Char) :
    HasBareReference (c :: text) :=
  h.mono (List.suffix_cons c text).isInfix

theorem hasBareReference_of_cons (hc : c = '$' ∨ isNameChar c = true) :
    HasBareReference ('$' :: c :: text) :=
  ⟨c, hc, (List.prefix_append ['$', c] text).isInfix⟩

/-- A bare reference that begins later. -/
theorem HasBareReference.tail (h : HasBareReference (c :: text))
    (hc : c = '$' → ∀ d ∈ text.head?, ¬ (d = '$' ∨ isNameChar d = true)) :
    HasBareReference text := by
  obtain ⟨d, hd, hi⟩ := h
  rcases List.infix_cons_iff.1 hi with hp | hi
  · obtain ⟨rfl, ht⟩ := List.cons_prefix_cons.1 hp
    obtain ⟨rest, rfl⟩ := ht
    exact absurd hd (hc rfl d rfl)
  · exact ⟨d, hd, hi⟩

/-- **Text that leaves what follows it alone**: it holds no `${`, and no
`$` ends it. -/
structure Unbraced (text : List Char) : Prop where
  /-- There is no reference in braces. -/
  no_braced : ¬ ['$', '{'] <:+: text
  /-- No reference is cut off at the end. -/
  getLast?_ne : text.getLast? ≠ some '$'

namespace Unbraced

theorem of_suffix (h : Unbraced u) (hv : v <:+ u) : Unbraced v where
  no_braced hi := h.no_braced (hi.trans hv.isInfix)
  getLast?_ne he := by
    obtain ⟨before, rfl⟩ := hv
    exact h.getLast?_ne (by rw [List.getLast?_append, he]; rfl)

theorem tail (h : Unbraced (c :: text)) : Unbraced text :=
  h.of_suffix (List.suffix_cons c text)

theorem not_brace (h : Unbraced ('$' :: '{' :: text)) : False :=
  h.no_braced (List.prefix_append ['$', '{'] text).isInfix

/-- **Text and what follows it are expanded on their own**, unless a name
goes on from one to the other. -/
theorem expandReferences_append (hu : Unbraced u)
    (hv : (∀ c ∈ v.head?, isNameChar c = false) ∨ ¬ HasBareReference u) :
    expandReferences env (u ++ v) = do
      let before ← expandReferences env u
      let after ← expandReferences env v
      return before ++ after := by
  induction u using expandReferences.induct with
  | case1 =>
    rw [List.nil_append, expandReferences_nil]
    cases expandReferences env v with
    | error _ => rfl
    | ok _ => rfl
  | case2 => exact hu.not_brace.elim
  | case3 => exact hu.not_brace.elim
  | case4 u ih =>
    rw [List.cons_append, List.cons_append, expandReferences_dollar, expandReferences_dollar,
      ih hu.tail.tail (hv.imp_right (mt fun hb => (hb.cons '$').cons '$')), append_map_cons]
  | case5 c u hb hd hc ih =>
    have hhead : ∀ c ∈ v.head?, isNameChar c = false :=
      hv.resolve_right fun h => h (hasBareReference_of_cons (.inr hc))
    -- the name ends where it ends without the text behind it
    obtain ⟨htake, hdrop⟩ := takeWhile_append_of_head? (u := u) hhead
    have hrest : Unbraced (u.dropWhile isNameChar) :=
      hu.tail.tail.of_suffix (List.dropWhile_suffix isNameChar)
    rw [List.cons_append, List.cons_append, expandReferences_name hc, expandReferences_name hc,
      htake, hdrop, ih hrest (.inl hhead)]
    simp only [bind_assoc, pure_bind, List.append_assoc]
  | case6 c u hb hd hc ih =>
    rw [List.cons_append, List.cons_append, expandReferences_lone hb hd hc,
      expandReferences_lone hb hd hc, ← List.cons_append,
      ih hu.tail (hv.imp_right (mt fun h => h.cons '$')), append_map_cons]
  | case7 c u hb _ hc ih =>
    have hnil := eq_nil_of_no_reference hc
    have hnil' : c = '$' → u ++ v = [] := by
      rintro rfl
      obtain rfl := hnil rfl
      exact (hu.getLast?_ne rfl).elim
    rw [List.cons_append, expandReferences_cons hnil, expandReferences_cons hnil',
      ih hu.tail (hv.imp_right (mt fun h => h.cons c)), append_map_cons]

/-- **Text without a bare reference is copied.** -/
theorem expandReferences_eq_self (hu : Unbraced u) (h : ¬ HasBareReference u) :
    expandReferences env u = .ok u := by
  induction u using expandReferences.induct with
  | case1 => exact expandReferences_nil env
  | case2 => exact hu.not_brace.elim
  | case3 => exact hu.not_brace.elim
  | case4 => exact (h (hasBareReference_of_cons (.inl rfl))).elim
  | case5 c u _ _ hc => exact (h (hasBareReference_of_cons (.inr hc))).elim
  | case6 c u hb hd hc ih =>
    rw [expandReferences_lone hb hd hc, ih hu.tail (mt (fun h => h.cons '$') h)]
    rfl
  | case7 c u hb _ hc ih =>
    have hnil := eq_nil_of_no_reference hc
    rw [expandReferences_cons hnil, ih hu.tail (mt (fun h => h.cons c) h)]
    rfl

/-- Where no variable is set, an expansion that goes through makes text
with a bare reference shorter. -/
theorem length_expandReferences (hu : Unbraced u) (hw : expandReferences [] u = .ok w) :
    w.length ≤ u.length ∧ (HasBareReference u → w.length < u.length) := by
  induction u using expandReferences.induct generalizing w with
  | case1 =>
    rw [expandReferences_nil] at hw
    cases hw
    refine ⟨Nat.le_refl _, ?_⟩
    rintro ⟨c, -, hi⟩
    cases List.eq_nil_of_infix_nil hi
  | case2 => exact hu.not_brace.elim
  | case3 => exact hu.not_brace.elim
  | case4 u ih =>
    rw [expandReferences_dollar] at hw
    obtain ⟨w', hw', rfl⟩ := eq_cons_of_map hw
    have hle := (ih hu.tail.tail hw').1
    simp only [List.length_cons]
    omega
  | case5 c u _ _ hc =>
    rw [expandReferences_name hc, requireVariable_nil] at hw
    cases hw
  | case6 c u hb hd hc ih =>
    rw [expandReferences_lone hb hd hc] at hw
    obtain ⟨w', hw', rfl⟩ := eq_cons_of_map hw
    obtain ⟨hle, hlt⟩ := ih hu.tail hw'
    refine ⟨Nat.succ_le_succ hle, fun h => Nat.succ_lt_succ (hlt (h.tail ?_))⟩
    rintro - d hd'
    cases hd'
    rintro (rfl | h)
    · exact hd rfl
    · exact hc h
  | case7 c u hb _ hc ih =>
    have hnil := eq_nil_of_no_reference hc
    rw [expandReferences_cons hnil] at hw
    obtain ⟨w', hw', rfl⟩ := eq_cons_of_map hw
    obtain ⟨hle, hlt⟩ := ih hu.tail hw'
    refine ⟨Nat.succ_le_succ hle, fun h => Nat.succ_lt_succ (hlt (h.tail ?_))⟩
    intro hc d hd
    rw [hnil hc] at hd
    cases hd

/-- A reference in braces stands behind such text or nowhere. -/
theorem infix_append_iff (hu : Unbraced u) : ['$', '{'] <:+: u ++ v ↔ ['$', '{'] <:+: v := by
  induction u with
  | nil => rfl
  | cons c u ih =>
    rw [List.cons_append, List.infix_cons_iff, ih hu.tail, or_iff_right]
    intro h
    obtain ⟨rfl, ht⟩ := List.cons_prefix_cons.1 h
    cases u with
    | nil => exact hu.getLast?_ne rfl
    | cons d u =>
      obtain ⟨rfl, -⟩ := List.cons_prefix_cons.1 ht
      exact hu.not_brace

end Unbraced

/-! ## Settings -/

theorem expand_of_unbraced {value : String} (h : ¬ ['$', '{'] <:+: value.toList) :
    expand env value = .ok value := by
  rw [expand, if_neg (mt hasBraced_iff.1 h)]

theorem expand_of_braced {value : String} (h : ['$', '{'] <:+: value.toList) :
    expand env value = (expandReferences env value.toList).map String.ofList := by
  rw [expand, if_pos (hasBraced_iff.2 h)]

namespace Unbraced

variable {u v : String}

theorem braced_append_iff (hu : Unbraced u.toList) :
    ['$', '{'] <:+: (u ++ v).toList ↔ ['$', '{'] <:+: v.toList := by
  rw [String.toList_append]
  exact hu.infix_append_iff

/-- Where no reference in braces follows, all of it is copied. -/
theorem expand_append_of_unbraced (hu : Unbraced u.toList) (hv : ¬ ['$', '{'] <:+: v.toList) :
    expand env (u ++ v) = .ok (u ++ v) :=
  expand_of_unbraced (mt hu.braced_append_iff.1 hv)

/-- Where one follows, both sides of the seam are scanned. -/
theorem expand_append_of_braced (hu : Unbraced u.toList) (hv : ['$', '{'] <:+: v.toList)
    (hseam : (∀ c ∈ v.toList.head?, isNameChar c = false) ∨ ¬ HasBareReference u.toList) :
    expand env (u ++ v) = do
      let before ← (expandReferences env u.toList).map String.ofList
      let after ← expand env v
      return before ++ after := by
  rw [expand_of_braced (hu.braced_append_iff.2 hv), expand_of_braced hv, String.toList_append,
    hu.expandReferences_append hseam]
  cases expandReferences env u.toList with
  | error _ => rfl
  | ok before =>
    cases expandReferences env v.toList with
    | error _ => rfl
    | ok after => exact congrArg Except.ok String.ofList_append

/-- **Text without a bare reference** is copied before every text. -/
theorem expand_append_of_no_bare (hu : Unbraced u.toList) (h : ¬ HasBareReference u.toList) :
    expand env (u ++ v) = (expand env v).map (u ++ ·) := by
  by_cases hv : ['$', '{'] <:+: v.toList
  · rw [hu.expand_append_of_braced hv (.inr h), hu.expandReferences_eq_self h]
    cases expand env v with
    | error _ => rfl
    | ok after => exact congrArg (fun before => Except.ok (before ++ after)) String.ofList_toList
  · rw [hu.expand_append_of_unbraced hv, expand_of_unbraced hv]
    rfl

/-- **Text with a bare reference** is not copied before a reference that
expands to nothing, where no variable is set. -/
theorem expand_append_ne (hu : Unbraced u.toList) (h : HasBareReference u.toList) :
    expand [] (u ++ "${X:-}") ≠ (expand [] "${X:-}").map (u ++ ·) := by
  intro hcopied
  have hnone : expand [] "${X:-}" = .ok "" := by decide +kernel
  have hhead : ∀ c ∈ "${X:-}".toList.head?, isNameChar c = false := by
    rintro c ⟨⟩
    exact isNameChar_dollar
  rw [hu.expand_append_of_braced (by decide) (.inl hhead), hnone] at hcopied
  cases hw : expandReferences [] u.toList with
  | error _ =>
    rw [hw] at hcopied
    cases hcopied
  | ok w =>
    rw [hw] at hcopied
    have hsame : String.ofList w ++ "" = u ++ "" := Except.ok.inj hcopied
    rw [String.append_empty, String.append_empty, ← String.toList_inj,
      String.toList_ofList] at hsame
    have hlt := (hu.length_expandReferences hw).2 h
    rw [hsame] at hlt
    exact Nat.lt_irrefl _ hlt

end Unbraced

/-- **What an expansion copies.** Let `u` be text that holds no `${` and
does not end in `$`. It is copied with all that follows it unless a
reference in braces follows; if one does, then the two are expanded on
their own, unless a name goes on from one to the other. So `u` is copied
before *every* text, in every environment, exactly if it holds no bare
reference. -/
theorem expand_append {u : String} (hb : ¬ ['$', '{'] <:+: u.toList)
    (hd : u.toList.getLast? ≠ some '$') :
    (∀ env v, ¬ ['$', '{'] <:+: v.toList → expand env (u ++ v) = .ok (u ++ v))
      ∧ (∀ env v, ['$', '{'] <:+: v.toList → (∀ c ∈ v.toList.head?, isNameChar c = false) →
          expand env (u ++ v) = do
            let before ← (expandReferences env u.toList).map String.ofList
            let after ← expand env v
            return before ++ after)
      ∧ ((∀ env v, expand env (u ++ v) = (expand env v).map (u ++ ·))
          ↔ ¬ HasBareReference u.toList) := by
  have hu : Unbraced u.toList := ⟨hb, hd⟩
  refine ⟨fun env v hv => hu.expand_append_of_unbraced hv,
    fun env v hv hhead => hu.expand_append_of_braced hv (.inl hhead), fun h hbare => ?_,
    fun h env v => hu.expand_append_of_no_bare h⟩
  exact hu.expand_append_ne hbare (h [] "${X:-}")

/-- A `$` before a slash is copied. -/
theorem expand_append_price :
    let env := ["A=alpha"]
    (¬ ['$', '{'] <:+: "5$/".toList ∧ "5$/".toList.getLast? ≠ some '$')
      ∧ ¬ HasBareReference "5$/".toList
      ∧ expand env ("5$/" ++ "A${A}") = (expand env "A${A}").map ("5$/" ++ ·)
      ∧ expand env "A${A}" = .ok "Aalpha" := by
  intro env
  have hb : ¬ ['$', '{'] <:+: "5$/".toList := by decide
  have hd : "5$/".toList.getLast? ≠ some '$' := by decide
  have hbare : ¬ HasBareReference "5$/".toList := by
    rintro ⟨c, hc, hi⟩
    obtain rfl : c = '/' := by simpa [List.infix_cons_iff] using hi
    exact absurd hc (by decide +kernel)
  have hvalue : expand env "A${A}" = .ok "Aalpha" := by decide +kernel
  exact ⟨⟨hb, hd⟩, hbare, (expand_append hb hd).2.2.2 hbare env "A${A}", hvalue⟩

/-- **Bare references are expanded before a reference in braces**, `$NAME`
as well as `$$`, and copied where there is none. One that is unset fails
there. -/
theorem expand_bare_reference :
    (¬ ['$', '{'] <:+: "$A/".toList ∧ "$A/".toList.getLast? ≠ some '$')
      ∧ expand ["A=alpha"] "$A/" = .ok "$A/"
      ∧ expand ["A=alpha"] "${A}" = .ok "alpha"
      ∧ expand ["A=alpha"] ("$A/" ++ "${A}") = .ok "alpha/alpha"
      ∧ expand ["A=alpha"] ("$$/" ++ "${A}") = .ok "$/alpha"
      ∧ expand [] "${A:-}" = .ok ""
      ∧ expand [] ("$A/" ++ "${A:-}") = .error ⟨"A"⟩ := by
  refine ⟨by decide, ?_, ?_, ?_, ?_, ?_, ?_⟩ <;> decide +kernel

end PageSlots.Settings
