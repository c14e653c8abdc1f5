import PageSlots.Proofs.Content.Token

/-!
# What tokens are read as

Two things can be told of what is read from tokens in any order. Nothing
comes of them but texts and the elements of their start tags
(`Draft.Only.foldl_take`): no comment, and no element that no token names.
And the character data of what is read are the texts of the tokens one
after the other (`Draft.characters_foldl_take`), because opening and
closing elements moves the place where the next text goes but never a text
that is there.
-/

namespace PageSlots.Markup

open PageSlots.Text

/-! ## Texts and elements of a kind -/

variable {P : Own → Prop}

/-- **Texts and elements of a kind**, and nothing else. -/
def Content.Only (P : Own → Prop) (c : Content) : Prop :=
  c.Everywhere fun o cs => o.kind = .text ∧ cs = [] ∨ o.kind = .element ∧ P o

/-- What has been read are texts and elements of a kind. -/
structure Draft.Only (P : Own → Prop) (z : Draft) : Prop where
  /-- So is what is finished in the innermost element. -/
  done : ∀ c ∈ z.done, c.Only P
  /-- Each open element is of the kind, and so is what stands before it. -/
  outer : ∀ e ∈ z.outer, (e.1.kind = .element ∧ P e.1) ∧ ∀ c ∈ e.2, c.Only P

/-- **A token of a kind**: its element is, if it opens one. -/
def Token.Only (P : Own → Prop) : Token → Prop
  | .text _ | .closing _ => True
  | .opening tag attrs flags =>
    P { kind := .element, tag, attrs := attrs ++ flagAttributes flags }

namespace Draft.Only

variable {z : Draft} {c : Content} {o : Own}

theorem each_iff : z.Only P ↔ z.Each (Content.Only P) fun o => o.kind = .element ∧ P o :=
  ⟨fun h => ⟨h.done, h.outer⟩, fun h => ⟨h.done, h.outer⟩⟩

theorem push (h : z.Only P) (hc : c.Only P) : (z.push c).Only P :=
  each_iff.2 ((each_iff.1 h).push hc)

theorem enter (h : z.Only P) (hk : o.kind = .element) (ho : P o) : (z.enter o).Only P :=
  each_iff.2 ((each_iff.1 h).enter ⟨hk, ho⟩)

theorem addText (h : z.Only P) (s : List Char) : (z.addText s).Only P := by
  refine each_iff.2 ((each_iff.1 h).addText (fun text => .node (.inl ⟨rfl, rfl⟩) nofun) ?_ s)
  intro o cs text ho hc
  obtain ⟨⟨-, rfl⟩ | ⟨he, -⟩, -⟩ := Content.everywhere_node.1 hc
  · exact .node (.inl ⟨ho, rfl⟩) nofun
  · rw [ho] at he
    cases he

theorem close (h : z.Only P) (tag : String) : (z.close tag).Only P :=
  each_iff.2 ((each_iff.1 h).close (fun ho hcs => .node (.inr ho) hcs) tag)

/-- What is open at the end is closed there. -/
theorem contents (h : z.Only P) : ∀ c ∈ z.contents, c.Only P :=
  (each_iff.1 h).contents fun ho hcs => .node (.inr ho) hcs

/-- **A token of a kind** keeps what is read to the kind. -/
theorem take (h : z.Only P) {k : Token} (hk : k.Only P) : (z.take k).Only P := by
  cases k with
  | text s => exact h.addText _
  | opening tag attrs flags =>
    unfold Draft.take
    dsimp only
    split
    · exact h.push (.node (.inr ⟨rfl, hk⟩) nofun)
    · exact h.enter rfl hk
  | closing tag => exact h.close tag

/-- **Tokens of a kind** are read as texts and elements of the kind. -/
theorem foldl_take (h : z.Only P) {tokens : List Token} (hk : ∀ k ∈ tokens, k.Only P) :
    (tokens.foldl Draft.take z).Only P := by
  induction tokens generalizing z with
  | nil => exact h
  | cons k tokens ih =>
    exact ih (h.take (hk k List.mem_cons_self)) fun k' hk' => hk k' (List.mem_cons_of_mem k hk')

end Draft.Only

/-! ## Character data -/

/-- The character data of a node itself. -/
def Own.characters (o : Own) : List Char :=
  if o.kind = .text then o.text.toList else []

/-- **The character data of a content**, in document order. -/
def Content.characters (c : Content) : List Char :=
  c.inOrder.flatMap Own.characters

theorem Content.characters_node (o : Own) (cs : List Content) :
    (node o cs).characters = o.characters ++ cs.flatMap characters := by
  rw [characters, inOrder_node, List.flatMap_cons, List.flatMap_assoc]
  rfl

theorem Content.toList_textContent (c : Content) : c.textContent.toList = c.characters := by
  have hall : ∀ l : List Own, ((l.filter (·.kind = .text)).map (·.text)).flatMap String.toList
      = l.flatMap Own.characters := by
    intro l
    induction l with
    | nil => rfl
    | cons o l ih =>
      rw [List.flatMap_cons, ← ih, Own.characters]
      by_cases ho : o.kind = .text
      · rw [if_pos ho, List.filter_cons_of_pos (by simpa using ho)]
        rfl
      · rw [if_neg ho, List.filter_cons_of_neg (by simpa using ho)]
        rfl
  rw [textContent, String.toList_join]
  exact hall c.inOrder

namespace Draft

variable {z : Draft}

/-- **The character data of what has been read.** -/
def characters (z : Draft) : List Char :=
  z.contents.flatMap Content.characters

/-- The character data before what is finished in the innermost element. -/
def charactersBefore : List (Own × List Content) → List Char
  | [] => []
  | (o, before) :: outer =>
    charactersBefore outer ++ before.flatMap Content.characters ++ o.characters

theorem characters_eq (z : Draft) :
    z.characters = charactersBefore z.outer ++ z.done.flatMap Content.characters := by
  obtain ⟨done, outer, log⟩ := z
  unfold characters contents
  dsimp only
  induction outer generalizing done with
  | nil => rfl
  | cons e outer ih =>
    obtain ⟨o, before⟩ := e
    rw [closeAll, ih, charactersBefore, List.flatMap_append, List.flatMap_cons,
      Content.characters_node]
    simp

/-- What is put last adds its character data. -/
theorem characters_push (z : Draft) (c : Content) :
    (z.push c).characters = z.characters ++ c.characters := by
  rw [characters_eq, characters_eq, push, List.flatMap_append]
  simp

/-- An element that is entered has no character data yet. -/
theorem characters_enter (z : Draft) {o : Own} (ho : o.kind = .element) :
    (z.enter o).characters = z.characters := by
  have hpush : (z.enter o).characters = (z.push (.node o [])).characters := rfl
  rw [hpush, characters_push, Content.characters_node, Own.characters, if_neg (by simp [ho])]
  simp

/-- Closing elements moves nothing. -/
theorem contents_close (z : Draft) (tag : String) : (z.close tag).contents = z.contents := by
  unfold close
  split
  · rename_i done outer hc
    exact closeIn_induct (motive := fun done outer => closeAll done outer = z.contents)
      id rfl hc
  · rfl

/-- **Text that is added comes last.** -/
theorem characters_addText (h : z.Only P) (s : List Char) :
    (z.addText s).characters = z.characters ++ s := by
  have htext : ∀ o : Own, o.kind = .text → (Content.node o []).characters = o.text.toList := by
    intro o ho
    rw [Content.characters_node, Own.characters, if_pos ho]
    simp
  have hnew : (z.push (.ofText s)).characters = z.characters ++ s := by
    rw [characters_push, Content.ofText, htext _ rfl, String.toList_ofList]
  unfold addText
  split
  · rename_i hs
    rw [List.isEmpty_iff.1 hs, List.append_nil]
  · split
    · rename_i o cs hlast
      split
      · rename_i ho
        -- the text before has no children, so its end is the end of what is read
        have hcs : cs = [] := by
          rcases (Content.everywhere_node.1 (h.done _ (List.mem_of_getLast? hlast))).1 with
            ⟨-, hcs⟩ | ⟨he, -⟩
          · exact hcs
          · rw [ho] at he
            cases he
        obtain ⟨before, hdone⟩ := List.getLast?_eq_some_iff.1 hlast
        have hjoin : (Content.node { o with text := o.text ++ String.ofList s } []).characters
            = (Content.node o []).characters ++ s := by
          rw [htext o ho]
          exact (htext { o with text := o.text ++ String.ofList s } ho).trans
            (by rw [String.toList_append, String.toList_ofList])
        rw [characters_eq, characters_eq, hdone, hcs, List.dropLast_concat, List.flatMap_append,
          List.flatMap_append, List.flatMap_singleton, List.flatMap_singleton, hjoin]
        simp
      · exact hnew
    · exact hnew

/-- **A token adds its text**, as it is written. -/
theorem characters_take (h : z.Only P) (k : Token) :
    (z.take k).characters = z.characters ++ escapeChars k.payload := by
  cases k with
  | text s => exact characters_addText h _
  | opening tag attrs flags =>
    rw [Token.payload_opening, escapeChars_nil, List.append_nil, take]
    split
    · rw [characters_push, Content.characters_node, Own.characters, if_neg nofun]
      simp
    · exact characters_enter z rfl
  | closing tag =>
    rw [Token.payload_closing, escapeChars_nil, List.append_nil]
    exact congrArg (List.flatMap Content.characters) (contents_close z tag)

/-- **Tokens add their texts one after the other.** -/
theorem characters_foldl_take {tokens : List Token} (h : z.Only P)
    (hk : ∀ k ∈ tokens, k.Only P) :
    (tokens.foldl take z).characters
      = z.characters ++ escapeChars (tokens.flatMap Token.payload) := by
  induction tokens generalizing z with
  | nil => simp
  | cons k tokens ih =>
    rw [List.foldl_cons, ih (h.take (hk k List.mem_cons_self)) fun k' hk' =>
      hk k' (List.mem_cons_of_mem k hk'), characters_take h, List.flatMap_cons,
      escapeChars_append, List.append_assoc]

end Draft

end PageSlots.Markup
