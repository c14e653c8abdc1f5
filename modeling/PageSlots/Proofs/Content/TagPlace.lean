import PageSlots.Proofs.Content.Parsed

/-!
# Places in a tag

A tag is read twice: for its end, with an eye on quotes only, and for its
name and its attributes. Both readings come to a place in the tag, and what
they have found before it does not depend on what stands there.

For the end, that is the quote that is open at the place
(`readTag_append_of_ok`). For the attributes it is `AttributesTo`: reading
comes to a place at which an attribute begins. If another attribute stands
there instead, the same ones are read before it (`AttributesTo.replace`).
An attribute that is complete before the place cannot have been cut short
by it, since a key begins with a character that would have continued a key
or a value.
-/

namespace PageSlots.Markup

open PageSlots.Text

/-! ## The end of a tag -/

section TagEnd

variable {quote : Option Char} {s text content rest : List Char}

/-- **A part of a tag is read as it is**, and leaves a quote open or not,
whatever follows. -/
theorem readTag_append_of_ok (h : readTag quote (s ++ text) = .ok (s ++ content, rest)) :
    readTag (s.foldl quoteAfter quote) text = .ok (content, rest)
      ∧ ∀ text', readTag quote (s ++ text')
        = withBefore s (readTag (s.foldl quoteAfter quote) text') := by
  induction s generalizing quote with
  | nil => exact ⟨h, fun text' => (withBefore_nil _).symm⟩
  | cons c s ih =>
    by_cases hend : quote = none ∧ c = '>'
    · rw [List.cons_append, readTag, if_pos hend] at h
      cases h
    · rw [List.cons_append, readTag_cons hend] at h
      obtain ⟨⟨content', rest'⟩, hr, he⟩ := exists_of_map_eq_ok h
      cases he
      obtain ⟨hok, happend⟩ := ih hr
      refine ⟨hok, fun text' => ?_⟩
      rw [List.cons_append, readTag_cons hend, happend, withBefore_withBefore]
      rfl

/-- Characters that are no quotes leave open what is open. -/
theorem foldl_quoteAfter_of_notQuote (hs : ∀ c ∈ s, c ≠ '"' ∧ c ≠ '\'') :
    ∀ {quote : Option Char}, (∀ q ∈ quote, q = '"' ∨ q = '\'') →
      s.foldl quoteAfter quote = quote := by
  induction s with
  | nil => exact fun _ => rfl
  | cons c s ih =>
    intro quote hq
    obtain ⟨hdouble, hsingle⟩ := hs c List.mem_cons_self
    have hsame : quoteAfter quote c = quote := by
      cases quote with
      | none => simp [quoteAfter, hdouble, hsingle]
      | some q =>
        have hne : c ≠ q := by
          rcases hq q rfl with rfl | rfl <;> assumption
        simp [quoteAfter, hne]
    rw [List.foldl_cons, hsame, ih (fun d hd => hs d (List.mem_cons_of_mem c hd)) hq]

/-- Only quotes are open. -/
theorem eq_quote_of_mem_foldl_quoteAfter :
    ∀ {quote : Option Char}, (∀ q ∈ quote, q = '"' ∨ q = '\'') →
      ∀ q ∈ s.foldl quoteAfter quote, q = '"' ∨ q = '\'' := by
  induction s with
  | nil => exact fun h => h
  | cons c s ih =>
    intro quote h
    refine ih fun q hq => ?_
    unfold quoteAfter at hq
    split at hq
    · split at hq
      · rename_i hc
        cases hq
        simpa using hc
      · cases hq
    · rename_i q'
      split at hq
      · cases hq
      · exact h q hq

/-- A part of a tag without quotes and without a `>` is read as it is, also
inside quotes. -/
theorem readTag_append_of_notQuote (hs : ∀ c ∈ s, c ≠ '>' ∧ c ≠ '"' ∧ c ≠ '\'')
    (hq : ∀ q ∈ quote, q = '"' ∨ q = '\'') (text : List Char) :
    readTag quote (s ++ text) = withBefore s (readTag quote text) := by
  induction s with
  | nil => rw [List.nil_append, withBefore_nil]
  | cons c s ih =>
    obtain ⟨hgt, hnot⟩ := hs c List.mem_cons_self
    have hsame : quoteAfter quote c = quote :=
      foldl_quoteAfter_of_notQuote (s := [c]) (List.forall_mem_singleton.2 hnot) hq
    rw [List.cons_append, readTag_cons (by simp [hgt]), hsame,
      ih fun d hd => hs d (List.mem_cons_of_mem c hd), withBefore_withBefore]
    rfl

/-- The content of a tag without the slash that makes it an empty one. -/
def unslashed (content : List Char) : List Char :=
  if content.getLast? = some '/' then content.dropLast else content

/-- Whether a tag is an empty one shows at its end. -/
theorem startOrEmpty_append {c : Char} (hs : s.getLast? = some c) (hc : c ≠ '/') (l : List Char) :
    startOrEmpty (s ++ l) = if l.getLast? = some '/' then .emptyTag (s ++ unslashed l)
      else .startTag (s ++ unslashed l) := by
  unfold startOrEmpty unslashed
  rw [List.getLast?_append]
  cases hl : l.getLast? with
  | none => simp [List.getLast?_eq_none_iff.1 hl, hs, hc]
  | some d =>
    have hne : l ≠ [] := fun he => by
      rw [he] at hl
      cases hl
    rw [Option.some_or, List.dropLast_append_of_ne_nil hne]
    split <;> rfl

end TagEnd

/-! ## Dropping in front of a place -/

section Drop

variable {p : Char → Bool} {x tail : List Char}

/-- What is dropped ends before a text that is not dropped. -/
theorem dropWhile_append_of_head? (h : ∀ c ∈ tail.head?, p c = false) :
    (x ++ tail).dropWhile p = x.dropWhile p ++ tail := by
  rw [List.dropWhile_append]
  split
  · rename_i he
    rw [List.isEmpty_iff.1 he, List.nil_append]
    exact dropWhile_append (s := []) nofun h
  · rfl

/-- What is dropped and what is taken end before a place if they do. -/
theorem dropWhile_append_of_ne_nil (h : x.dropWhile p ≠ []) (tail : List Char) :
    (x ++ tail).dropWhile p = x.dropWhile p ++ tail
      ∧ (x ++ tail).takeWhile p = x.takeWhile p := by
  obtain ⟨d, y, hd⟩ := List.exists_cons_of_ne_nil h
  have hx : x = x.takeWhile p ++ d :: y := by
    rw [← hd, List.takeWhile_append_dropWhile]
  have hin : ∀ c ∈ x.takeWhile p, p c = true := fun c hc => List.mem_takeWhile_imp hc
  have hout : ∀ c ∈ (d :: y ++ tail).head?, p c = false := fun c hc => by
    rw [← Option.some.inj hc]
    exact eq_false_of_dropWhile_eq_cons hd
  rw [hd]
  conv => enter [1, 1]; rw [hx, List.append_assoc]
  conv => enter [2, 1]; rw [hx, List.append_assoc]
  exact ⟨dropWhile_append hin hout, takeWhile_append hin hout⟩

/-- They do if what is left is not shorter than a text that would have
been dropped with them. -/
theorem dropWhile_ne_nil_of_length_le {c : Char} {l : List Char} (hc : p c = true)
    (h : (c :: l).length ≤ ((x ++ c :: l).dropWhile p).length) : x.dropWhile p ≠ [] := by
  intro hx
  rw [List.dropWhile_append, hx, List.isEmpty_nil, if_pos rfl, List.dropWhile_cons_of_pos hc] at h
  exact absurd (Nat.le_trans h (length_dropWhile_le p l)) (Nat.not_succ_le_self _)

end Drop

/-! ## Attributes in front of a place -/

/-- **A text that begins with a key.** -/
def OpensKey (text : List Char) : Prop :=
  ∃ c rest, text = c :: rest ∧ isKeyChar c = true

/-- A value takes at least one character. -/
theorem length_lt_of_readValue {text value after : List Char}
    (h : readValue text = .ok (value, after)) : after.length < text.length := by
  have hblank := length_dropWhile_le isTagBlank text
  unfold readValue at h
  split at h
  · cases h
  · rename_i c rest hd
    rw [hd, List.length_cons] at hblank
    split at h
    · have hvalue := length_dropWhile_le (· != c) rest
      split at h
      · cases h
      · rename_i d after' hq
        cases h
        rw [hq, List.length_cons] at hvalue
        omega
    · have hc := eq_false_of_dropWhile_eq_cons hd
      have hvalue := length_dropWhile_le (!isTagBlank ·) rest
      cases h
      rw [List.dropWhile_cons_of_pos (by simp [hc])]
      omega

/-- Blanks before a value do not count. -/
theorem readValue_dropWhile (text : List Char) :
    readValue (text.dropWhile isTagBlank) = readValue text := by
  unfold readValue
  rw [List.dropWhile_idempotent]

/-- The attribute with a key, read from what stands behind the key and its
blanks: it has a value behind an equals sign, or none. -/
def readBehind (key text : List Char) :
    Option (Except AttributeFault ((List Char × List Char) × List Char)) :=
  match text with
  | '=' :: after => some ((readValue after).map fun (value, after) => ((key, value), after))
  | after => some (.ok ((key, []), after))

theorem readBehind_of_head? {key text : List Char} (h : text.head? ≠ some '=') :
    readBehind key text = some (.ok ((key, []), text)) := by
  unfold readBehind
  split
  · exact absurd rfl h
  · rfl

/-- What is left behind an attribute is no longer than what stands behind
its key. -/
theorem length_le_of_readBehind {key text after : List Char} {a : List Char × List Char}
    (h : readBehind key text = some (.ok (a, after))) : after.length ≤ text.length := by
  unfold readBehind at h
  split at h
  · obtain ⟨r, hr, hra⟩ := exists_of_map_eq_ok (Option.some.inj h)
    cases hra
    exact (length_le_of_readValue hr).trans (Nat.le_succ _)
  · cases h
    exact Nat.le_refl _

section Cons

variable {c : Char} (hc : isTagBlank c = false)
include hc

theorem readValue_cons (rest : List Char) : readValue (c :: rest)
    = if c = '"' || c = '\'' then
        match rest.dropWhile (· != c) with
        | [] => .error (.unclosedQuote c)
        | _ :: after => .ok (rest.takeWhile (· != c), after)
      else .ok ((c :: rest).takeWhile (!isTagBlank ·), (c :: rest).dropWhile (!isTagBlank ·)) := by
  have hdrop : (c :: rest).dropWhile isTagBlank = c :: rest :=
    List.dropWhile_cons_of_neg (by simp [hc])
  unfold readValue
  split
  · rename_i heq
    cases hdrop.symm.trans heq
  · rename_i heq
    cases hdrop.symm.trans heq
    rfl

theorem readAttribute_cons (rest : List Char) : readAttribute (c :: rest)
    = readBehind (c :: rest.takeWhile isKeyChar)
        ((rest.dropWhile isKeyChar).dropWhile isTagBlank) := by
  have hdrop : (c :: rest).dropWhile isTagBlank = c :: rest :=
    List.dropWhile_cons_of_neg (by simp [hc])
  unfold readAttribute
  split
  · rename_i heq
    cases hdrop.symm.trans heq
  · rename_i heq
    cases hdrop.symm.trans heq
    rfl

end Cons

namespace OpensKey

variable {tail tail' x value after : List Char}

theorem head?_isTagBlank (h : OpensKey tail) : ∀ c ∈ tail.head?, isTagBlank c = false := by
  obtain ⟨d, rest, rfl, hd⟩ := h
  intro c hc
  rw [← Option.some.inj hc]
  simpa using (Bool.and_eq_true_iff.1 hd).1

theorem dropWhile_isTagBlank (h : OpensKey tail) (x : List Char) :
    (x ++ tail).dropWhile isTagBlank = x.dropWhile isTagBlank ++ tail :=
  dropWhile_append_of_head? h.head?_isTagBlank

/-- **A value in front of a key** is read alike whatever the key is. -/
theorem exists_of_readValue (h : OpensKey tail) (hv : readValue (x ++ tail) = .ok (value, after))
    (hle : tail.length ≤ after.length) :
    ∃ y, after = y ++ tail ∧ ∀ tail', OpensKey tail' →
      readValue (x ++ tail') = .ok (value, y ++ tail') := by
  have hdropped : ∀ tail', OpensKey tail' →
      readValue (x ++ tail') = readValue (x.dropWhile isTagBlank ++ tail') := fun tail' h' => by
    rw [← readValue_dropWhile, h'.dropWhile_isTagBlank]
  rw [hdropped tail h] at hv
  cases hx : x.dropWhile isTagBlank with
  | nil =>
    rw [hx] at hv
    exact absurd (length_lt_of_readValue hv) (Nat.not_lt.2 hle)
  | cons c w =>
    have hc := eq_false_of_dropWhile_eq_cons hx
    rw [hx, List.cons_append, readValue_cons hc] at hv
    by_cases hq : (decide (c = '"') || decide (c = '\'')) = true
    · rw [if_pos hq] at hv
      -- the quote that ends the value stands before the key
      have hdrop : w.dropWhile (· != c) ≠ [] := fun hnil => by
        rw [List.dropWhile_append, hnil, List.isEmpty_nil, if_pos rfl] at hv
        have hlen := length_dropWhile_le (· != c) tail
        split at hv
        · cases hv
        · rename_i d after' hd
          cases hv
          rw [hd] at hlen
          exact absurd (Nat.le_trans hlen hle) (Nat.not_succ_le_self _)
      obtain ⟨d, y, hd⟩ := List.exists_cons_of_ne_nil hdrop
      rw [(dropWhile_append_of_ne_nil hdrop tail).1, (dropWhile_append_of_ne_nil hdrop tail).2,
        hd] at hv
      cases hv
      refine ⟨y, rfl, fun tail' h' => ?_⟩
      rw [hdropped tail' h', hx, List.cons_append, readValue_cons hc, if_pos hq,
        (dropWhile_append_of_ne_nil hdrop tail').1, (dropWhile_append_of_ne_nil hdrop tail').2, hd]
      rfl
    · rw [if_neg hq, ← List.cons_append] at hv
      obtain ⟨e, rest, rfl, he⟩ := h
      have hblank : (!isTagBlank e) = true := (Bool.and_eq_true_iff.1 he).1
      cases hv
      -- so does the blank that ends one without quotes
      have hdrop : (c :: w).dropWhile (!isTagBlank ·) ≠ [] :=
        dropWhile_ne_nil_of_length_le hblank hle
      refine ⟨(c :: w).dropWhile (!isTagBlank ·), (dropWhile_append_of_ne_nil hdrop _).1,
        fun tail' h' => ?_⟩
      rw [hdropped tail' h', hx, List.cons_append, readValue_cons hc, if_neg hq,
        ← List.cons_append, (dropWhile_append_of_ne_nil hdrop tail').1,
        (dropWhile_append_of_ne_nil hdrop tail').2, (dropWhile_append_of_ne_nil hdrop _).2]

/-- What stands behind a key is read alike in front of any other one. -/
theorem exists_of_readBehind {key : List Char} {a : List Char × List Char} (h : OpensKey tail)
    (ha : readBehind key (x ++ tail) = some (.ok (a, after))) (hle : tail.length ≤ after.length) :
    ∃ y, after = y ++ tail ∧ ∀ tail', OpensKey tail' →
      readBehind key (x ++ tail') = some (.ok (a, y ++ tail')) := by
  have hnone : (∀ tail', OpensKey tail' → (x ++ tail').head? ≠ some '=') →
      ∃ y, after = y ++ tail ∧ ∀ tail', OpensKey tail' →
        readBehind key (x ++ tail') = some (.ok (a, y ++ tail')) := by
    intro hne
    rw [readBehind_of_head? (hne tail h)] at ha
    cases ha
    exact ⟨x, rfl, fun tail' h' => readBehind_of_head? (hne tail' h')⟩
  cases x with
  | nil =>
    refine hnone ?_
    rintro tail' ⟨e, rest, rfl, he⟩ heq
    cases heq
    exact absurd he (by decide)
  | cons d v =>
    by_cases hd : d = '='
    · subst hd
      obtain ⟨⟨value, after'⟩, hr, hra⟩ := exists_of_map_eq_ok (Option.some.inj ha)
      cases hra
      obtain ⟨y, rfl, hvalue⟩ := h.exists_of_readValue hr hle
      refine ⟨y, rfl, fun tail' h' => ?_⟩
      show some ((readValue (v ++ tail')).map _) = _
      rw [hvalue tail' h']
      rfl
    · exact hnone fun tail' _ heq => hd (Option.some.inj heq)

/-- **An attribute in front of a key** is read alike whatever the key is. -/
theorem exists_of_readAttribute {a : List Char × List Char} (h : OpensKey tail)
    (ha : readAttribute (x ++ tail) = some (.ok (a, after))) (hle : tail.length ≤ after.length) :
    ∃ y, after = y ++ tail ∧ ∀ tail', OpensKey tail' →
      readAttribute (x ++ tail') = some (.ok (a, y ++ tail')) := by
  have hdropped : ∀ tail', OpensKey tail' →
      readAttribute (x ++ tail') = readAttribute (x.dropWhile isTagBlank ++ tail') :=
    fun tail' h' => by rw [← readAttribute_dropWhile, h'.dropWhile_isTagBlank]
  rw [hdropped tail h] at ha
  cases hx : x.dropWhile isTagBlank with
  | nil =>
    rw [hx] at ha
    exact absurd (length_lt_of_readAttribute ha) (Nat.not_lt.2 hle)
  | cons c w =>
    have hc := eq_false_of_dropWhile_eq_cons hx
    rw [hx, List.cons_append, readAttribute_cons hc] at ha
    -- the key ends before the place
    have hkeyle : tail.length ≤ ((w ++ tail).dropWhile isKeyChar).length :=
      hle.trans ((length_le_of_readBehind ha).trans (length_dropWhile_le isTagBlank _))
    have hdrop : w.dropWhile isKeyChar ≠ [] := by
      obtain ⟨e, rest, rfl, he⟩ := h
      exact dropWhile_ne_nil_of_length_le he hkeyle
    have hkey : ∀ tail', OpensKey tail' → readAttribute (x ++ tail')
        = readBehind (c :: w.takeWhile isKeyChar)
          ((w.dropWhile isKeyChar).dropWhile isTagBlank ++ tail') := fun tail' h' => by
      rw [hdropped tail' h', hx, List.cons_append, readAttribute_cons hc,
        (dropWhile_append_of_ne_nil hdrop tail').1, (dropWhile_append_of_ne_nil hdrop tail').2,
        h'.dropWhile_isTagBlank]
    rw [← readAttribute_cons hc, ← List.cons_append, ← hx, ← hdropped tail h, hkey tail h] at ha
    obtain ⟨y, hy, hbehind⟩ := h.exists_of_readBehind ha hle
    exact ⟨y, hy, fun tail' h' => (hkey tail' h').trans (hbehind tail' h')⟩

end OpensKey

/-- **Reading an attribute list comes to a place**: it reads attributes, and
then the blanks before the next one. -/
inductive AttributesTo : List Char → List (List Char × List Char) → List Char → Prop where
  /-- It is there once the blanks are read. -/
  | here (text : List Char) : AttributesTo text [] (text.dropWhile isTagBlank)
  /-- It reads an attribute. -/
  | step {text after left : List Char} {a : List Char × List Char}
      {attrs : List (List Char × List Char)} : readAttribute text = some (.ok (a, after)) →
      AttributesTo after attrs left → AttributesTo text (a :: attrs) left

namespace AttributesTo

variable {text left x tail tail' : List Char} {attrs : List (List Char × List Char)}

/-- From where it has come, reading goes on. -/
theorem readAttributes_eq (h : AttributesTo text attrs left) :
    readAttributes text = (attrs ++ (readAttributes left).1, (readAttributes left).2) := by
  induction h with
  | here text => rw [readAttributes_dropWhile, List.nil_append]
  | step ha _ ih =>
    rw [readAttributes]
    grind

theorem length_le (h : AttributesTo text attrs left) : left.length ≤ text.length := by
  induction h with
  | here text => exact length_dropWhile_le isTagBlank text
  | step ha _ ih => exact Nat.le_trans ih (Nat.le_of_lt (length_lt_of_readAttribute ha))

/-- **The same attributes are read in front of any key.** -/
theorem replace (ht : OpensKey tail) (h : AttributesTo (x ++ tail) attrs tail)
    (ht' : OpensKey tail') : AttributesTo (x ++ tail') attrs tail' := by
  generalize htext : x ++ tail = text at h
  generalize hleft : tail = left at h
  induction h generalizing x with
  | here text =>
    subst htext
    rw [ht.dropWhile_isTagBlank] at hleft
    have hx : x.dropWhile isTagBlank = [] := List.append_left_eq_self.1 hleft.symm
    have := AttributesTo.here (x ++ tail')
    rwa [ht'.dropWhile_isTagBlank, hx] at this
  | step ha hnext ih =>
    subst htext hleft
    obtain ⟨y, rfl, hreads⟩ := ht.exists_of_readAttribute ha hnext.length_le
    exact .step (hreads tail' ht') (ih rfl rfl)

end AttributesTo

end PageSlots.Markup
