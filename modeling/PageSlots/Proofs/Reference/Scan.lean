import PageSlots.Markup.Entity

/-!
# The scan for references

A reference is told here by how it is spelled (`Reference.Spelled`), and
reading one is finding a spelling and a semicolon at the head of a text
(`reference?_eq_some_iff`). Decoding then takes a text apart from left to
right: a reference where one begins, and a single character where none does
(`Scans`). There is one way to do so (`exists_scans`, `Scans.unique`), and
what is decoded are its pieces, each for itself (`decodeChars_eq`). So no
decoded character is looked at again, whatever stands beside it.

What stands behind a piece can change it in one case only, that of an `&`
whose reference is not finished. A spelling has no `&` in it, so a text that
ends in half of a reference keeps its pieces if a reference begins behind it
(`Scans.append`).
-/

namespace PageSlots.Markup

variable {text rest u v body digits : List Char} {r : Reference} {c : Char} {p : Char → Bool}

/-! ## Spelling -/

/-- **What stands between the `&` and the semicolon of a reference**: a name
that begins with a letter, digits behind `#`, or hexadecimal digits behind
`#x` or `#X`. -/
inductive Reference.Spelled : Reference → List Char → Prop
  | named {c : Char} {name : List Char} : c.isAlpha = true →
      (∀ d ∈ name, d.isAlphanum = true) → Spelled (.named (c :: name)) (c :: name)
  | decimal {digits : List Char} : digits ≠ [] → (∀ d ∈ digits, d.isDigit = true) →
      Spelled (.numeric 10 digits) ('#' :: digits)
  | hexadecimal {x : Char} {digits : List Char} : x = 'x' ∨ x = 'X' → digits ≠ [] →
      (∀ d ∈ digits, isHexDigit d = true) → Spelled (.numeric 16 digits) ('#' :: x :: digits)

/-- **No spelling has an `&` in it**, so no reference reaches over the
beginning of another. -/
theorem Reference.Spelled.notMem (h : r.Spelled body) : '&' ∉ body := by
  have hnot : ∀ {p : Char → Bool} {s : List Char}, (∀ d ∈ s, p d = true) → p '&' = false →
      '&' ∉ s := fun hall hp hm => absurd (hall _ hm) (by rw [hp]; decide)
  cases h with
  | @named c name hc hall =>
    rintro (_ | ⟨_, hm⟩)
    · exact absurd hc (by decide)
    · exact hnot hall (by decide) hm
  | decimal _ hall =>
    rintro (_ | ⟨_, hm⟩)
    exact hnot hall (by decide) hm
  | hexadecimal hx _ hall =>
    rintro (_ | ⟨_, _ | ⟨_, hm⟩⟩)
    · exact absurd hx (by decide)
    · exact hnot hall (by decide) hm

/-- **Digits and a semicolon** at the head of a text are what is read. -/
theorem digitsToSemicolon_eq_some_iff (hp : p ';' = false) :
    digitsToSemicolon p text = some (digits, rest)
      ↔ digits ≠ [] ∧ (∀ d ∈ digits, p d = true) ∧ text = digits ++ ';' :: rest := by
  constructor
  · intro h
    unfold digitsToSemicolon at h
    split at h
    · rename_i d ds s htake hdrop
      cases h
      have hall : (text.takeWhile p).all p = true := List.all_takeWhile
      rw [htake] at hall
      refine ⟨List.cons_ne_nil d ds, List.all_eq_true.1 hall, ?_⟩
      rw [← htake, ← hdrop, List.takeWhile_append_dropWhile]
    · cases h
  · rintro ⟨hne, hall, rfl⟩
    obtain ⟨d, ds, rfl⟩ := List.exists_cons_of_ne_nil hne
    have htake : (d :: ds ++ ';' :: rest).takeWhile p = d :: ds := by
      rw [List.takeWhile_append_of_pos hall, List.takeWhile_cons_of_neg (by simp [hp]),
        List.append_nil]
    have hdrop : (d :: ds ++ ';' :: rest).dropWhile p = ';' :: rest := by
      rw [List.dropWhile_append_of_pos hall, List.dropWhile_cons_of_neg (by simp [hp])]
    unfold digitsToSemicolon
    rw [htake, hdrop]
    rfl

/-- The digits, or the name, that a text begins with make the reference. -/
theorem map_digitsToSemicolon_eq_some_iff (hp : p ';' = false) (f : List Char → Reference) :
    (digitsToSemicolon p text).map (fun (digits, rest) => (f digits, rest)) = some (r, rest)
      ↔ ∃ digits, f digits = r ∧ digits ≠ [] ∧ (∀ d ∈ digits, p d = true)
        ∧ text = digits ++ ';' :: rest := by
  rw [Option.map_eq_some_iff]
  constructor
  · rintro ⟨⟨digits, t⟩, hd, he⟩
    obtain ⟨hf, rfl⟩ := Prod.mk.inj he
    exact ⟨digits, hf, (digitsToSemicolon_eq_some_iff hp).1 hd⟩
  · rintro ⟨digits, rfl, hd⟩
    exact ⟨(digits, rest), (digitsToSemicolon_eq_some_iff hp).2 hd, rfl⟩

/-- What begins with `#` and no `x` is read as a number in base ten. -/
theorem reference?_decimal (hx : c ≠ 'x') (hX : c ≠ 'X') (text : List Char) :
    reference? ('#' :: c :: text) = (digitsToSemicolon Char.isDigit (c :: text)).map
      fun (digits, rest) => (.numeric 10 digits, rest) := by
  rw [reference?]
  · exact fun _ he => hx (List.cons.inj he).1
  · exact fun _ he => hX (List.cons.inj he).1

/-- What begins with a letter is read as a name. -/
theorem reference?_named (hc : c.isAlpha = true) (text : List Char) :
    reference? (c :: text) = (digitsToSemicolon Char.isAlphanum (c :: text)).map
      fun (name, rest) => (.named name, rest) := by
  have hne : c ≠ '#' := by
    rintro rfl
    exact absurd hc (by decide)
  rw [reference?, if_pos hc]
  exact hne

/-- **The reference that a text begins with**, behind its `&`, is the one
that is spelled there in front of a semicolon. -/
theorem reference?_eq_some_iff :
    reference? text = some (r, rest) ↔ ∃ body, r.Spelled body ∧ text = body ++ ';' :: rest := by
  constructor
  · intro h
    unfold reference? at h
    split at h
    · cases h
    · split at h
      · obtain ⟨digits, rfl, hne, hall, rfl⟩ :=
          (map_digitsToSemicolon_eq_some_iff (by decide) _).1 h
        exact ⟨_, .hexadecimal (.inl rfl) hne hall, rfl⟩
      · obtain ⟨digits, rfl, hne, hall, rfl⟩ :=
          (map_digitsToSemicolon_eq_some_iff (by decide) _).1 h
        exact ⟨_, .hexadecimal (.inr rfl) hne hall, rfl⟩
      · obtain ⟨digits, rfl, hne, hall, rfl⟩ :=
          (map_digitsToSemicolon_eq_some_iff (by decide) _).1 h
        exact ⟨_, .decimal hne hall, rfl⟩
    · split at h
      · rename_i c s _ halpha
        obtain ⟨name, rfl, hne, hall, hs⟩ := (map_digitsToSemicolon_eq_some_iff (by decide) _).1 h
        obtain ⟨d, ds, rfl⟩ := List.exists_cons_of_ne_nil hne
        obtain ⟨rfl, -⟩ := List.cons.inj hs
        exact ⟨_, .named halpha fun d hd => hall d (List.mem_cons_of_mem c hd), hs⟩
      · cases h
  · rintro ⟨body, hbody, rfl⟩
    cases hbody with
    | @named c name halpha hall =>
      have hname : ∀ d ∈ c :: name, d.isAlphanum = true := by
        refine List.forall_mem_cons.2 ⟨?_, hall⟩
        rw [Char.isAlphanum, halpha, Bool.true_or]
      rw [List.cons_append, reference?_named halpha]
      exact (map_digitsToSemicolon_eq_some_iff (by decide) _).2
        ⟨c :: name, rfl, List.cons_ne_nil c name, hname, rfl⟩
    | @decimal digits hne hall =>
      obtain ⟨d, ds, rfl⟩ := List.exists_cons_of_ne_nil hne
      have hd := hall d List.mem_cons_self
      have hx : d ≠ 'x' ∧ d ≠ 'X' := by
        constructor <;> rintro rfl <;> exact absurd hd (by decide)
      rw [List.cons_append, List.cons_append, reference?_decimal hx.1 hx.2]
      exact (map_digitsToSemicolon_eq_some_iff (by decide) _).2 ⟨d :: ds, rfl, hne, hall, rfl⟩
    | @hexadecimal x digits hx hne hall =>
      rcases hx with rfl | rfl
      · exact (map_digitsToSemicolon_eq_some_iff (by decide) _).2 ⟨digits, rfl, hne, hall, rfl⟩
      · exact (map_digitsToSemicolon_eq_some_iff (by decide) _).2 ⟨digits, rfl, hne, hall, rfl⟩

/-- What is spelled is read, whatever follows. -/
theorem Reference.Spelled.reference?_eq (h : r.Spelled body) (rest : List Char) :
    reference? (body ++ ';' :: rest) = some (r, rest) :=
  reference?_eq_some_iff.2 ⟨body, h, rfl⟩

/-- **No reference begins** at an `&` exactly if none is spelled behind it. -/
theorem reference?_eq_none_iff :
    reference? text = none
      ↔ ∀ (r : Reference) (body rest), r.Spelled body → text ≠ body ++ ';' :: rest := by
  rw [Option.eq_none_iff_forall_ne_some, Prod.forall]
  constructor
  · exact fun h r body rest hbody he => h r rest (reference?_eq_some_iff.2 ⟨body, hbody, he⟩)
  · intro h r rest he
    obtain ⟨body, hbody, htext⟩ := reference?_eq_some_iff.1 he
    exact h r body rest hbody htext

/-! ## Pieces -/

/-- **A piece of a text**, as the scan takes it. -/
inductive Piece where
  /-- A character at which no reference begins. -/
  | char (c : Char)
  /-- A reference, with what stands between its `&` and its semicolon. -/
  | reference (r : Reference) (body : List Char)

/-- How a piece is written. -/
def Piece.written : Piece → List Char
  | .char c => [c]
  | .reference _ body => '&' :: (body ++ [';'])

/-- **What a piece is decoded to**: the character that a reference stands
for, and the piece as it is written if it stands for none. -/
def Piece.decoded : Piece → List Char
  | .char c => [c]
  | .reference r body => r.decodeOr ('&' :: (body ++ [';']))

/-- **The scan of a text**, from left to right: a reference where one
begins, a single character where none does, and on behind it. -/
inductive Scans : List Char → List Piece → Prop
  | nil : Scans [] []
  | reference {r : Reference} {body rest : List Char} {pieces : List Piece} : r.Spelled body →
      Scans rest pieces → Scans ('&' :: (body ++ ';' :: rest)) (.reference r body :: pieces)
  | char {c : Char} {text : List Char} {pieces : List Piece} :
      (∀ (r : Reference) (body rest), r.Spelled body → c :: text ≠ '&' :: (body ++ ';' :: rest)) →
      Scans text pieces → Scans (c :: text) (.char c :: pieces)

variable {pieces before after : List Piece}

/-- No reference begins at any other character than `&`. -/
theorem Scans.other (hc : c ≠ '&') (h : Scans text pieces) :
    Scans (c :: text) (.char c :: pieces) :=
  .char (fun _ _ _ _ he => hc (List.cons.inj he).1) h

/-- **Nothing is lost**: the pieces, as they are written, are the text. -/
theorem Scans.written (h : Scans text pieces) : pieces.flatMap Piece.written = text := by
  induction h with
  | nil => rfl
  | reference _ _ ih =>
    rw [List.flatMap_cons, ih, Piece.written, List.cons_append, List.append_assoc]
    rfl
  | char _ _ ih =>
    rw [List.flatMap_cons, ih]
    rfl

/-- A reference is read over and decoded. -/
theorem decodeChars_reference (h : reference? text = some (r, rest)) :
    decodeChars ('&' :: text)
      = r.decodeOr ('&' :: text.take (text.length - rest.length)) ++ decodeChars rest := by
  rw [decodeChars]
  split
  · rename_i heq
    rw [h] at heq
    cases heq
    rfl
  · rename_i heq
    rw [h] at heq
    cases heq

/-- An `&` at which no reference begins stays. -/
theorem decodeChars_ampersand (h : reference? text = none) :
    decodeChars ('&' :: text) = '&' :: decodeChars text := by
  rw [decodeChars]
  split
  · rename_i heq
    rw [h] at heq
    cases heq
  · rfl

/-- Any other character than `&` stands for itself. -/
theorem decodeChars_cons (hc : c ≠ '&') (text : List Char) :
    decodeChars (c :: text) = c :: decodeChars text := by
  rw [decodeChars]
  exact hc

/-- **Decoding takes each piece for itself.** -/
theorem decodeChars_eq (h : Scans text pieces) :
    decodeChars text = pieces.flatMap Piece.decoded := by
  induction h with
  | nil => exact decodeChars_nil
  | @reference r body rest pieces hbody _ ih =>
    have htake : (body ++ ';' :: rest).take ((body ++ ';' :: rest).length - rest.length)
        = body ++ [';'] := by
      rw [← List.singleton_append, ← List.append_assoc, List.length_append, Nat.add_sub_cancel,
        List.take_left]
    rw [decodeChars_reference (hbody.reference?_eq rest), htake, ih,
      List.flatMap_cons]
    rfl
  | @char c text pieces hnone _ ih =>
    rw [List.flatMap_cons, ← ih]
    by_cases hc : c = '&'
    · subst hc
      refine decodeChars_ampersand (reference?_eq_none_iff.2 fun r body rest hbody he => ?_)
      exact hnone r body rest hbody (congrArg _ he)
    · exact decodeChars_cons hc text

/-- **Every text is scanned.** -/
theorem exists_scans (text : List Char) : ∃ pieces, Scans text pieces := by
  induction text using decodeChars.induct with
  | case1 => exact ⟨[], .nil⟩
  | case2 text r rest h ih =>
    obtain ⟨pieces, hscan⟩ := ih
    obtain ⟨body, hbody, rfl⟩ := reference?_eq_some_iff.1 h
    exact ⟨_, .reference hbody hscan⟩
  | case3 text h ih =>
    obtain ⟨pieces, hscan⟩ := ih
    refine ⟨_, .char (fun r body rest hbody he => ?_) hscan⟩
    exact reference?_eq_none_iff.1 h r body rest hbody (List.cons.inj he).2
  | case4 c text hc ih =>
    obtain ⟨pieces, hscan⟩ := ih
    exact ⟨_, hscan.other hc⟩

/-- **There is one way to scan a text.** -/
theorem Scans.unique (h : Scans text before) (h' : Scans text after) : before = after := by
  induction h generalizing after with
  | nil =>
    cases h'
    rfl
  | @reference r body rest pieces hbody _ ih =>
    generalize htext : '&' :: (body ++ ';' :: rest) = text at h'
    cases h' with
    | nil => cases htext
    | @reference r' body' rest' _ hbody' h' =>
      have hbehind := (List.cons.inj htext).2
      -- what is read at one place is one reference, so the rests and with them the bodies agree
      have hread := hbody.reference?_eq rest
      rw [hbehind, hbody'.reference?_eq rest'] at hread
      obtain ⟨rfl, rfl⟩ := Prod.mk.inj (Option.some.inj hread)
      rw [List.append_cancel_right hbehind, ih h']
    | char hnone _ => exact absurd htext.symm (hnone r body rest hbody)
  | @char c text pieces hnone _ ih =>
    generalize htext : c :: text = whole at h'
    cases h' with
    | nil => cases htext
    | @reference r body rest _ hbody _ => exact absurd htext (hnone r body rest hbody)
    | char _ h' =>
      obtain ⟨rfl, rfl⟩ := List.cons.inj htext
      rw [ih h']

/-- **What begins with an `&` is scanned for itself**, also behind a text
that ends in half of a reference. -/
theorem Scans.append (h : Scans u before) (h' : Scans ('&' :: v) after) :
    Scans (u ++ '&' :: v) (before ++ after) := by
  induction h with
  | nil => exact h'
  | @reference r body rest pieces hbody _ ih =>
    rw [List.cons_append, List.append_assoc]
    exact .reference hbody ih
  | @char c text pieces hnone _ ih =>
    refine .char (fun r body rest hbody he => ?_) ih
    obtain ⟨rfl, hbehind⟩ := List.cons.inj he
    -- a reference that began in the text and ended behind it would have the second `&` in it
    rcases List.append_eq_append_iff.1 hbehind with ⟨s, rfl, hs⟩ | ⟨s, rfl, hs⟩
    · cases s with
      | nil => exact absurd (List.cons.inj hs).1 (by decide)
      | cons d s =>
        obtain ⟨rfl, -⟩ := List.cons.inj hs
        exact hbody.notMem (List.mem_append_right _ List.mem_cons_self)
    · cases s with
      | nil => exact absurd (List.cons.inj hs).1 (by decide)
      | cons d s =>
        obtain ⟨rfl, -⟩ := List.cons.inj hs
        exact hnone r body s hbody rfl

/-- **A reference in the middle of a text** is decoded for itself, and so is
what stands before it and behind it. -/
theorem decodeChars_append_reference (hbody : r.Spelled body) (u v : List Char) :
    decodeChars (u ++ '&' :: (body ++ ';' :: v))
      = decodeChars u ++ r.decodeOr ('&' :: (body ++ [';'])) ++ decodeChars v := by
  obtain ⟨before, hu⟩ := exists_scans u
  obtain ⟨after, hv⟩ := exists_scans v
  rw [decodeChars_eq (hu.append (.reference hbody hv)), decodeChars_eq hu, decodeChars_eq hv,
    List.flatMap_append, List.flatMap_cons, List.append_assoc]
  rfl

end PageSlots.Markup
