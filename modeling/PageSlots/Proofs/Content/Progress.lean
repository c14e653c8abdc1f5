import PageSlots.Proofs.Content.RawText

/-!
# Progress, and the place of a fault

Reading goes in rounds. Each takes the text before a construct, and the
construct with all that belongs to it, and leaves an end of the text. So a
run has finitely many rounds, and the bytes at which they end rise from
one to the next and lie between characters (`Builder.Rounds.positions`).

A round that cannot read its construct is the last one. Whatever was read
before it does not depend on the construct, so the markup that ends in
front of it is read without fault (`Draft.ComesTo.replace`). That the
construct is none that ends a raw text, as this needs, follows from its
fault: an end tag of a raw text can always be read
(`isStop_of_readConstruct_error`).
-/

namespace PageSlots.Markup

open PageSlots.Text

/-! ## Rounds -/

/-- **The rounds of a run**, by the bytes at which they end. The total is
the number of bytes of the whole markup. -/
inductive Builder.Rounds (total : Nat) :
    Builder → List Char → List Nat → Option MarkupFault × Builder → Prop where
  /-- No construct is left, and the run ends with the text. -/
  | ended {b : Builder} {text before : List Char} : breakAtConstruct text = (before, []) →
      Rounds total b text [] (none, (b.addText before).finish)
  /-- A construct cannot be read. -/
  | malformed {b : Builder} {text before after : List Char} {c : Char} {offset : Nat}
      {fault : ConstructFault} : breakAtConstruct text = (before, c :: after) →
      readConstruct after = .error (offset, fault) →
      Rounds total b text []
        (some (.malformed (total - byteLength (c :: after) + offset) fault), b.addText before)
  /-- A construct is read, but cannot be added. -/
  | refused {b b' : Builder} {text before after rest : List Char} {c : Char}
      {construct : Construct} {fault : MarkupFault} :
      breakAtConstruct text = (before, c :: after) →
      readConstruct after = .ok (construct, rest) →
      (b.addText before).add construct rest = (.error fault, b') →
      Rounds total b text [] (some fault, b')
  /-- A construct is read and added. -/
  | round {b b' : Builder} {text before after rest next : List Char} {c : Char}
      {construct : Construct} {ends : List Nat} {result : Option MarkupFault × Builder} :
      breakAtConstruct text = (before, c :: after) →
      readConstruct after = .ok (construct, rest) →
      (b.addText before).add construct rest = (.ok next, b') →
      Rounds total b' next ends result →
      Rounds total b text ((total - byteLength next) :: ends) result

/-- **Reading is a run of finitely many rounds.** -/
theorem Builder.exists_rounds (b : Builder) (total : Nat) (text : List Char) :
    ∃ ends, b.Rounds total text ends (b.read total text) := by
  induction b, text using Builder.read.induct with
  | case1 b text before hb =>
    rw [read_of_end hb]
    exact ⟨[], .ended hb⟩
  | case2 b text before c after hb offset fault hr =>
    rw [read_of_error hb hr]
    exact ⟨[], .malformed hb hr⟩
  | case3 b text before c after hb b₁ construct rest hr fault b₂ ha =>
    rw [read_of_ok hb hr, ha]
    exact ⟨[], .refused hb hr ha⟩
  | case4 b text before c after hb b₁ construct rest hr next b₂ ha ih =>
    obtain ⟨ends, hends⟩ := ih
    rw [read_of_ok hb hr, ha]
    exact ⟨_, .round hb hr ha hends⟩

/-- The byte behind the first characters of a text lies between two
characters. -/
theorem isValid_byteLength {markup : String} {before after : List Char}
    (h : markup.toList = before ++ after) :
    (String.Pos.Raw.mk (byteLength before)).IsValid markup := by
  refine String.Pos.Raw.isValid_iff_exists_append.2
    ⟨String.ofList before, String.ofList after, ?_, ?_⟩
  · rw [← String.ofList_append, ← h, String.ofList_toList]
  · refine congrArg String.Pos.Raw.mk ?_
    rw [← byteLength_toList, String.toList_ofList]

/-- **The rounds of a run advance**, from one place between two characters
to the next. -/
theorem Builder.Rounds.positions {markup : String} {b : Builder} {text before : List Char}
    {ends : List Nat} {result : Option MarkupFault × Builder}
    (h : b.Rounds (byteLength markup.toList) text ends result)
    (hm : markup.toList = before ++ text) :
    (byteLength before :: ends).IsChain (· < ·)
      ∧ ∀ p ∈ ends, (String.Pos.Raw.mk p).IsValid markup := by
  generalize htotal : byteLength markup.toList = total at h
  induction h generalizing before with
  | ended _ => exact ⟨.singleton _, nofun⟩
  | malformed _ _ => exact ⟨.singleton _, nofun⟩
  | refused _ _ _ => exact ⟨.singleton _, nofun⟩
  | @round b b' text plain after rest next c construct ends result hb hr ha _ ih =>
    obtain ⟨consumed, hconsumed⟩ : ∃ consumed, text = plain ++ c :: (consumed ++ next) := by
      obtain ⟨d, taken, rfl, -⟩ := exists_of_readConstruct hr
      obtain ⟨body, rfl⟩ := suffix_of_add ha
      have happend := breakAtConstruct_append text
      rw [hb] at happend
      exact ⟨d :: taken ++ body, by simp [← happend]⟩
    have hnext : markup.toList = (before ++ (plain ++ c :: consumed)) ++ next := by
      rw [hm, hconsumed]
      simp
    have hend : total - byteLength next = byteLength (before ++ (plain ++ c :: consumed)) := by
      rw [← htotal, hnext, byteLength_append, Nat.add_sub_cancel]
    have hlt : byteLength before < byteLength (before ++ (plain ++ c :: consumed)) := by
      have := c.utf8Size_pos
      simp only [byteLength_append, byteLength_cons]
      omega
    obtain ⟨hchain, hvalid⟩ := ih hnext
    rw [hend]
    exact ⟨.cons_cons hlt hchain, List.forall_mem_cons.2 ⟨isValid_byteLength hnext, hvalid⟩⟩

/-! ## Faults -/

section Faults

variable {after text content rest : List Char} {offset position : Nat} {fault : ConstructFault}

/-- The content of a document type stands before its `>`. -/
theorem eq_append_of_readDoctype {scan : DoctypeScan}
    (h : readDoctype scan text = some (content, rest)) : text = content ++ '>' :: rest := by
  induction text generalizing scan content with
  | nil => cases h
  | cons c text ih =>
    rw [readDoctype] at h
    split at h
    · rename_i hend
      rw [Bool.and_eq_true, decide_eq_true_iff] at hend
      cases h
      rw [hend.2, List.nil_append]
    · obtain ⟨⟨content', rest'⟩, hr, he⟩ := Option.map_eq_some_iff.1 h
      cases he
      rw [ih hr, List.cons_append]

theorem le_of_readBang_error (h : readBang text = .error (offset, fault)) :
    offset ≤ byteLength ('!' :: text) := by
  unfold readBang at h
  split at h
  · split at h <;> cases h
    exact Nat.zero_le _
  · cases h
    exact Nat.zero_le _
  · split at h
    · split at h <;> cases h
      exact Nat.zero_le _
    · cases h
      exact Nat.zero_le _
  · split at h
    · split at h
      · rename_i hr
        split at h
        · split at h <;> cases h
          -- the one fault that is noticed behind the `<`, at the `>`
          rw [eq_append_of_readDoctype hr, byteLength_cons, byteLength_append, byteLength_cons,
            show '!'.utf8Size = 1 from rfl, show '>'.utf8Size = 1 from rfl]
          omega
        · cases h
          exact Nat.zero_le _
      · cases h
        exact Nat.zero_le _
    · cases h
      exact Nat.zero_le _
  · cases h
    exact Nat.zero_le _

/-- **A fault is noticed inside the text** that stands after the `<`. -/
theorem le_of_readConstruct_error (h : readConstruct after = .error (offset, fault)) :
    offset ≤ byteLength after := by
  unfold readConstruct at h
  split at h
  · exact le_of_readBang_error h
  · unfold readInstruction at h
    split at h
    · cases h
      exact Nat.zero_le _
    · split at h <;> cases h
      exact Nat.zero_le _
  · split at h <;> cases h
    exact Nat.zero_le _
  · split at h <;> cases h
    exact Nat.zero_le _

/-- **No raw text ends at a construct that cannot be read.** -/
theorem isStop_of_readConstruct_error (ho : opensConstruct after = true)
    (hr : readConstruct after = .error (offset, fault)) : IsStop ('<' :: after) := by
  refine ⟨.inr ⟨after, rfl, ho⟩, fun tag ht => Bool.eq_false_iff.2 fun hend => ?_⟩
  obtain ⟨name, blanks, rest, he, hname, hblanks⟩ := exists_of_endsRawText hend
  have hinside : ∀ c ∈ name ++ blanks, c ≠ '>' ∧ c ≠ '"' ∧ c ≠ '\'' := by
    intro c hc
    rcases List.mem_append.1 hc with hc | hc
    · exact (ne_of_asciiLower_eq ht.isClean hname c hc).2
    · exact ne_of_isAsciiBlank (hblanks c hc)
  have hread := readConstruct_slash hinside rest
  rw [List.append_assoc, ← (List.cons.inj he).2, hr] at hread
  cases hread

end Faults

namespace Draft

variable {z z' : Draft} {text after : List Char} {total position : Nat} {fault : ConstructFault}

/-- What cannot be added has an attribute that cannot be read. -/
theorem exists_of_add_error {construct : Construct} {rest : List Char} {error : MarkupFault}
    (h : z.add construct rest = (.error error, z')) :
    ∃ position fault, error = .attribute position fault := by
  have hown : ∀ {content : List Char}, Own.ofTag? content = .error error →
      ∃ position fault, error = .attribute position fault := by
    intro content ho
    unfold Own.ofTag? at ho
    split at ho <;> cases ho
    exact ⟨_, _, rfl⟩
  cases construct with
  | startTag content =>
    unfold add at h
    dsimp only at h
    split at h
    · cases h
      exact hown ‹_›
    · split at h
      · cases h
      · split at h <;> cases h
  | emptyTag content =>
    unfold add at h
    dsimp only at h
    split at h <;> cases h
    exact hown ‹_›
  | endTag name => cases h
  | comment text => cases h
  | characterData text => cases h
  | skipped => cases h

/-- **A construct at fault is one that reading comes to.** -/
theorem exists_of_malformed (h : (z.read total text).1 = some (.malformed position fault)) :
    ∃ z' after offset, z.ComesTo text z' ('<' :: after) ∧ opensConstruct after = true
      ∧ readConstruct after = .error (offset, fault)
      ∧ position = total - byteLength ('<' :: after) + offset := by
  induction z, text using Draft.read.induct with
  | case1 z text before hb =>
    rw [read_of_end hb] at h
    cases h
  | case2 z text before c after hb offset fault' hr =>
    obtain ⟨rfl, ho⟩ := eq_of_breakAtConstruct hb
    rw [read_of_error hb hr] at h
    cases h
    exact ⟨_, after, offset, .here hb, ho, hr, rfl⟩
  | case3 z text before c after hb z₁ construct rest hr error z₂ ha =>
    rw [read_of_ok hb hr, ha] at h
    obtain ⟨_, _, rfl⟩ := exists_of_add_error ha
    cases h
  | case4 z text before c after hb z₁ construct rest hr next z₂ ha ih =>
    rw [read_of_ok hb hr, ha] at h
    obtain ⟨z', after', offset, hcomes, hfault⟩ := ih h
    exact ⟨z', after', offset, .step hb hr ha hcomes, hfault⟩

end Draft

/-- **Markup with a malformed construct can be read up to it.** The fault is
told at a byte of the construct. -/
theorem Content.exists_of_parse_malformed {markup : String} {position : Nat}
    {fault : ConstructFault} (h : (parse markup).1 = .error (.malformed position fault)) :
    ∃ before after, markup.toList = before ++ '<' :: after ∧ opensConstruct after = true
      ∧ byteLength before ≤ position ∧ position ≤ byteLength markup.toList
      ∧ ∃ cs, (parse (String.ofList before)).1 = .ok cs := by
  have hread : (Draft.read {} (byteLength markup.toList) markup.toList).1
      = some (.malformed position fault) := by
    unfold parse at h
    split at h
    · rename_i hz
      rw [hz]
      exact congrArg some (Except.error.inj h)
    · cases h
  obtain ⟨z, after, offset, hcomes, ho, hr, hposition⟩ := Draft.exists_of_malformed hread
  obtain ⟨before, hmarkup⟩ := hcomes.suffix
  have htotal : byteLength markup.toList = byteLength before + byteLength ('<' :: after) := by
    rw [← hmarkup, byteLength_append]
  have hle := le_of_readConstruct_error hr
  refine ⟨before, after, hmarkup.symm, ho, by omega, ?_, ?_⟩
  · rw [hposition, htotal, byteLength_cons]
    omega
  · -- reading comes to the same place if the markup ends there
    have hcut : Draft.ComesTo {} before z [] := by
      rw [← hmarkup] at hcomes
      have := hcomes.replace (isStop_of_readConstruct_error ho hr) (List.cons_ne_nil _ _) isStop_nil
      rwa [List.append_nil] at this
    unfold parse
    rw [String.toList_ofList, hcut.read_eq, Draft.read_of_end rfl]
    exact ⟨_, rfl⟩

/-- **Reading advances, and a fault is told of a construct that follows
readable markup.** Every run goes in rounds, each of which ends at a place
between two characters behind the one where it began. If a construct is
malformed, a `<` that opens one stands at or before the byte at which the
fault is told, and the markup that ends in front of it is read. -/
theorem rounds_advance_to_fault (markup : String) :
    (∀ b : Builder, ∃ ends, b.Rounds (byteLength markup.toList) markup.toList ends
        (b.read (byteLength markup.toList) markup.toList)
      ∧ (0 :: ends).IsChain (· < ·) ∧ ∀ p ∈ ends, (String.Pos.Raw.mk p).IsValid markup)
    ∧ ∀ position fault, (readFragment markup).nodes = .error (.malformed position fault) →
      ∃ before after, markup.toList = before ++ '<' :: after ∧ opensConstruct after = true
        ∧ byteLength before ≤ position ∧ position ≤ byteLength markup.toList
        ∧ ∃ ids, (readFragment (String.ofList before)).nodes = .ok ids := by
  refine ⟨fun b => ?_, fun position fault h => ?_⟩
  · obtain ⟨ends, hrounds⟩ := b.exists_rounds (byteLength markup.toList) markup.toList
    exact ⟨ends, hrounds, hrounds.positions (List.nil_append _).symm⟩
  · have hparse : (Content.parse markup).1 = .error (.malformed position fault) := by
      have hread := readFragment_eq markup
      split at hread
      · rename_i hp
        rw [hread] at h
        rw [hp, Except.error.inj h]
      · rw [hread.1.choose_spec] at h
        cases h
    obtain ⟨before, after, hmarkup, ho, hle, hle', cs, hcs⟩ :=
      Content.exists_of_parse_malformed hparse
    refine ⟨before, after, hmarkup, ho, hle, hle', ?_⟩
    have hread := readFragment_eq (String.ofList before)
    rw [hcs] at hread
    exact hread.1

/-- An element, a text of three bytes and a tag that does not end: the fault
is told at the tag, and what stands before it is read. -/
theorem rounds_advance_to_fault_tag :
    (readFragment "<p>a</p>\u20ac<i").nodes = .error (.malformed 11 .unclosedTag)
      ∧ ∃ before after, "<p>a</p>\u20ac<i".toList = before ++ '<' :: after
        ∧ opensConstruct after = true ∧ byteLength before ≤ 11
        ∧ 11 ≤ byteLength "<p>a</p>\u20ac<i".toList
        ∧ ∃ ids, (readFragment (String.ofList before)).nodes = .ok ids := by
  have h : (readFragment "<p>a</p>\u20ac<i").nodes = .error (.malformed 11 .unclosedTag) := by
    decide +kernel
  exact ⟨h, (rounds_advance_to_fault "<p>a</p>\u20ac<i").2 11 .unclosedTag h⟩

end PageSlots.Markup
