import PageSlots.Proofs.Content.Place

/-!
# The bodies of raw text elements

Two readers decide about the end of a raw text. The search for its end
tag cuts the text off, and the reader of constructs then reads the tag and
closes the element of that name. They agree as long as the blanks before
the `>` are those of a tag (`ClosesRawText`): then the element holds its
body, as one text or none, and what stands behind the end tag is read as
if the element had been there from the start (`add_closing`). So every raw
text element of a fragment holds what stands between its start tag and its
first end tag, and nothing else (`holdsBody_of_readFragment`).

The form feed is where they differ. The search takes it for a blank and
the reader for a character of the name, so that the tag closes nothing and
what follows it lands in the element
(`exists_rawText_holding_what_follows`).
-/

namespace PageSlots.Markup

open PageSlots.Text

/-! ## End tags of raw texts -/

/-- **A text that begins with an end tag that closes**: the name in either
case, and nothing but blanks of a tag before the `>`. -/
def ClosesRawText (tag : String) (text : List Char) : Prop :=
  ∃ name blanks rest, text = '<' :: '/' :: (name ++ (blanks ++ '>' :: rest))
    ∧ asciiLower name = tag.toList ∧ ∀ c ∈ blanks, isTagBlank c = true

/-- **The end of a raw text, taken apart.** -/
theorem exists_of_endsRawText {tag text : List Char} (h : endsRawText tag text = true) :
    ∃ name blanks rest, text = '<' :: '/' :: (name ++ (blanks ++ '>' :: rest))
      ∧ asciiLower name = tag ∧ ∀ c ∈ blanks, isAsciiBlank c = true := by
  unfold endsRawText at h
  split at h
  · rename_i after
    rw [Bool.and_eq_true, decide_eq_true_iff, decide_eq_true_iff] at h
    obtain ⟨hname, hend⟩ := h
    obtain ⟨rest, hrest⟩ := List.head?_eq_some_iff.1 hend
    refine ⟨after.take tag.length, (after.drop tag.length).takeWhile isAsciiBlank, rest, ?_, hname,
      fun c hc => List.mem_takeWhile_imp hc⟩
    rw [← hrest, List.takeWhile_append_dropWhile, List.take_append_drop]
  · cases h

/-- **The body of a raw text element, as contents.** -/
def Content.ofBody (body : List Char) : List Content :=
  if body = [] then [] else [.ofText body]

/-- A body is a text without children. -/
theorem Content.everywhere_ofBody {P : Own → List Content → Prop} {body : List Char}
    (h : ∀ o : Own, o.kind = .text → P o []) : ∀ c ∈ ofBody body, c.Everywhere P := by
  unfold ofBody
  split
  · exact nofun
  · exact List.forall_mem_singleton.2 (.node (h _ rfl) nofun)

/-- The body is what is finished in an element that is entered. -/
theorem Draft.addText_enter (z : Draft) (o : Own) (body : List Char) :
    (z.enter o).addText body = { z.enter o with done := Content.ofBody body } := by
  cases body <;> rfl

/-- **Reading comes to the start tag of a raw text element** with some own
data, and the text behind the tag is left. -/
def Draft.ComesToRaw (z : Draft) (text : List Char) (o : Own) (rest : List Char) : Prop :=
  ∃ z' after content, z.ComesTo text z' ('<' :: after)
    ∧ readConstruct after = .ok (.startTag content, rest)
    ∧ Own.ofTag? content = .ok o ∧ isRawTextTag o.tag = true

/-- **A raw text element holds nothing, or the body that stands behind its
start tag.** The texts that stand behind start tags are given. -/
def Content.HoldsBody (R : Own → List Char → Prop) (o : Own) (cs : List Content) : Prop :=
  o.kind = .element → isRawTextTag o.tag = true →
    cs = [] ∨ ∃ rest, R o rest ∧ cs = ofBody (breakRawText o.tag.toList rest).1

/-- **Every finished raw text element of a draft holds its body**, and none
is open. -/
def Draft.HoldsBodies (R : Own → List Char → Prop) (z : Draft) : Prop :=
  z.Each (Content.Everywhere (Content.HoldsBody R)) fun o => isRawTextTag o.tag = false

namespace Draft.HoldsBodies

variable {R : Own → List Char → Prop} {z z' : Draft} {o : Own} {rest next : List Char}

/-- An element that is no raw text element may hold anything. -/
theorem node {cs : List Content} (ho : isRawTextTag o.tag = false)
    (hcs : ∀ c ∈ cs, c.Everywhere (Content.HoldsBody R)) :
    (Content.node o cs).Everywhere (Content.HoldsBody R) :=
  .node (fun _ hraw => absurd (hraw.symm.trans ho) nofun) hcs

theorem push (h : z.HoldsBodies R) {c : Content} (hc : c.Everywhere (Content.HoldsBody R)) :
    (z.push c).HoldsBodies R :=
  Each.push h hc

theorem addText (h : z.HoldsBodies R) (s : List Char) : (z.addText s).HoldsBodies R := by
  refine Each.addText h (fun _ => .node nofun nofun) (fun text ho hc => ?_) s
  refine .node (fun he => ?_) (Content.everywhere_node.1 hc).2
  rw [show _ = NodeKind.text from ho] at he
  cases he

theorem contents (h : z.HoldsBodies R) :
    ∀ c ∈ z.contents, c.Everywhere (Content.HoldsBody R) :=
  Each.contents node h

/-- **What adding a construct does**: it keeps that bodies are held, or a
raw text element is entered and given its body. -/
theorem add {construct : Construct} (h : z.HoldsBodies R)
    (ha : z.add construct rest = (.ok next, z')) :
    z'.HoldsBodies R ∨ ∃ content o, construct = .startTag content ∧ Own.ofTag? content = .ok o
      ∧ isRawTextTag o.tag = true ∧ next = (breakRawText o.tag.toList rest).2
      ∧ z' = { z.enter o with done := Content.ofBody (breakRawText o.tag.toList rest).1 } := by
  cases construct with
  | startTag content =>
    unfold Draft.add at ha
    dsimp only at ha
    split at ha
    · cases ha
    · rename_i o ho
      split at ha
      · rename_i hraw
        cases ha
        exact .inr ⟨content, o, rfl, ho, hraw, rfl, addText_enter z o _⟩
      · rename_i hraw
        have hnot : isRawTextTag o.tag = false := Bool.eq_false_iff.2 hraw
        split at ha <;> cases ha
        · exact .inl (h.push (node hnot nofun))
        · exact .inl (Each.enter h hnot)
  | emptyTag content =>
    unfold Draft.add at ha
    dsimp only at ha
    split at ha <;> cases ha
    exact .inl (h.push (.node (fun _ _ => .inl rfl) nofun))
  | endTag name =>
    cases ha
    exact .inl (Each.close node h _)
  | comment text =>
    cases ha
    exact .inl (h.push (.node nofun nofun))
  | characterData text =>
    cases ha
    exact .inl (h.addText _)
  | skipped =>
    cases ha
    exact .inl h

end Draft.HoldsBodies

/-! ## The run -/

namespace Draft

variable {R : Own → List Char → Prop} {z z' : Draft} {o : Own} {cs : List Content}
variable {text name blanks behind left : List Char}

/-- **Reading comes over the end tag of the innermost element**, and has
then finished it. -/
theorem ComesTo.of_closing (ht : IsCleanTag o.tag) (hname : asciiLower name = o.tag.toList)
    (hblanks : ∀ c ∈ blanks, isTagBlank c = true)
    (h : (z.push (.node o cs)).ComesTo behind z' left) :
    ComesTo { z.enter o with done := cs } ('<' :: '/' :: (name ++ (blanks ++ '>' :: behind)))
      z' left := by
  have hbreak := IsBoundary.breakAtConstruct_eq
    (.inr ⟨_, rfl, Content.opensConstruct_closing ht hname (blanks ++ '>' :: behind)⟩)
  exact .step hbreak (readConstruct_closing ht hname hblanks behind)
    (Content.add_closing hname z cs behind) h

theorem read_closing (ht : IsCleanTag o.tag) (hname : asciiLower name = o.tag.toList)
    (hblanks : ∀ c ∈ blanks, isTagBlank c = true) (z : Draft) (cs : List Content) (total : Nat) :
    Draft.read { z.enter o with done := cs } total
        ('<' :: '/' :: (name ++ (blanks ++ '>' :: behind)))
      = (z.push (.node o cs)).read total behind := by
  have hhere : (z.push (.node o cs)).ComesTo behind
      ((z.push (.node o cs)).addText (breakAtConstruct behind).1) (breakAtConstruct behind).2 :=
    .here rfl
  exact ((ComesTo.of_closing ht hname hblanks hhere).read_eq total).trans
    (hhere.read_eq total).symm

/-- **Reading keeps that bodies are held**, if every raw text that reading
comes to is given and closes. The induction is on the length of what is
left; the end tag of a raw text is read together with its start tag, so
that no raw text element is ever found open. -/
theorem HoldsBodies.read (h : z.HoldsBodies R) (hR : ∀ o rest, z.ComesToRaw text o rest → R o rest)
    (hclose : ∀ o rest, R o rest → (breakRawText o.tag.toList rest).2 = []
      ∨ ClosesRawText o.tag (breakRawText o.tag.toList rest).2) {total : Nat}
    (hok : (z.read total text).1 = none) :
    ∀ c ∈ (z.read total text).2.contents, c.Everywhere (Content.HoldsBody R) := by
  induction hn : text.length using Nat.strongRecOn generalizing z text with
  | _ n ih =>
    rcases hbreak : breakAtConstruct text with ⟨before, _ | ⟨c, after⟩⟩
    · rw [read_of_end hbreak, contents_finish]
      exact (h.addText before).contents
    · cases hr : readConstruct after with
      | error e =>
        rw [read_of_error hbreak hr] at hok
        cases hok
      | ok r =>
        obtain ⟨construct, rest⟩ := r
        rcases ha : (z.addText before).add construct rest with ⟨fault | next, z'⟩
        · rw [read_of_ok hbreak hr, ha] at hok
          cases hok
        · have hlt := length_lt_of_add hbreak hr ha
          have hlater : ∀ o rest', z'.ComesToRaw next o rest' → R o rest' :=
            fun o rest' ⟨w, after', content, hcomes, hrest⟩ =>
              hR o rest' ⟨w, after', content, .step hbreak hr ha hcomes, hrest⟩
          rw [read_of_ok hbreak hr, ha] at hok ⊢
          dsimp only at hok ⊢
          rcases (h.addText before).add ha with hz | ⟨content, o, rfl, ho, hraw, rfl, rfl⟩
          · exact ih next.length (hn ▸ hlt) hz hlater hok rfl
          · obtain ⟨rfl, -⟩ := eq_of_breakAtConstruct hbreak
            have hplace : R o rest :=
              hR o rest ⟨_, after, content, .here hbreak, hr, ho, hraw⟩
            have hheld : ((z.addText before).push
                (.node o (Content.ofBody (breakRawText o.tag.toList rest).1))).HoldsBodies R :=
              (h.addText before).push (.node (fun _ _ => .inr ⟨rest, hplace, rfl⟩)
                (Content.everywhere_ofBody fun _ ho he => absurd (ho.symm.trans he) nofun))
            rcases hclose o rest hplace with hnil | ⟨name, blanks, behind, hend, hname, hblanks⟩
            · rw [hnil, read_of_end rfl, contents_finish]
              exact hheld.contents
            · have ht := (isPlainTag_of_isRawTextTag hraw).isClean
              rw [hend] at hlt hlater hok ⊢
              rw [read_closing ht hname hblanks] at hok ⊢
              refine ih behind.length ?_ hheld ?_ hok rfl
              · simp only [List.length_cons, List.length_append] at hlt
                omega
              · exact fun o' rest' ⟨w, after', content', hcomes, hrest⟩ =>
                  hlater o' rest' ⟨w, after', content', .of_closing ht hname hblanks hcomes, hrest⟩

end Draft

end PageSlots.Markup
