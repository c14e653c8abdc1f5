import PageSlots.Markup.Fragment
import PageSlots.Proofs.Content.Basic

/-!
# Reading a fragment as a value

A fragment can be read without a pool. What has been read is then a
`Draft`: the contents that stand finished in the innermost open element,
and for each open element its own data together with what stands finished
before it. Each step of reading has its counterpart here, with the same
conditions, and `Content.parse` is the whole.

That the reader of the pool builds what the draft says is the subject of
`PageSlots.Proofs.Content.Reading`. Here are only the definitions, what
they give for the text of a draft's last content, and what it takes for a
kind of contents to be kept by reading (`Draft.Each`).
-/

namespace PageSlots.Markup

open PageSlots.Text

/-- A text as a content. -/
def Content.ofText (text : List Char) : Content :=
  .node { kind := .text, text := String.ofList text } []

/-- A comment as a content. -/
def Content.ofComment (text : List Char) : Content :=
  .node { kind := .comment, text := String.ofList text } []

/-- Give own data an attribute that was read. Of two with one name the
first one counts. -/
def Own.addAttribute (o : Own) (attr : List Char × List Char) : Own :=
  let name := String.ofList (asciiLower attr.1)
  if o.hasAttr name then o else o.setAttr name (String.ofList attr.2)

/-- The own data of the element of a tag, as far as its attributes can be
read. -/
def Own.ofTag (content : List Char) : Own :=
  (readAttributes (tagAttributes content)).1.foldl Own.addAttribute
    { kind := .element, tag := String.ofList (asciiLower (tagName content)) }

/-- The own data of the element of a tag, or what is wrong with its
attributes. -/
def Own.ofTag? (content : List Char) : Except MarkupFault Own :=
  match (readAttributes (tagAttributes content)).2 with
  | some fault => .error (.attribute (byteLength content) fault)
  | none => .ok (Own.ofTag content)

section OfTag

variable {content : List Char} {fault : AttributeFault}

theorem Own.ofTag?_of_some (h : (readAttributes (tagAttributes content)).2 = some fault) :
    Own.ofTag? content = .error (.attribute (byteLength content) fault) := by
  simp only [Own.ofTag?, h]

theorem Own.ofTag?_of_none (h : (readAttributes (tagAttributes content)).2 = none) :
    Own.ofTag? content = .ok (Own.ofTag content) := by
  simp only [Own.ofTag?, h]

end OfTag

/-- **A fragment that is being read, as a value.** -/
structure Draft where
  /-- What stands finished in the innermost open element. -/
  done : List Content := []
  /-- The open elements, innermost first, each with what stands finished
  before it. -/
  outer : List (Own × List Content) := []
  /-- What there is to tell. -/
  log : Log := []

namespace Draft

/-- Put a finished content under the innermost open element. -/
def push (z : Draft) (c : Content) : Draft :=
  { z with done := z.done ++ [c] }

/-- Enter an element. -/
def enter (z : Draft) (o : Own) : Draft :=
  { z with done := [], outer := (o, z.done) :: z.outer }

/-- Add character data, joined to the text before it if there is one. -/
def addText (z : Draft) (text : List Char) : Draft :=
  if text.isEmpty then z
  else
    match z.done.getLast? with
    | some (.node o cs) =>
      if o.kind = .text then
        { z with done := z.done.dropLast ++
            [.node { o with text := o.text ++ String.ofList text } cs] }
      else z.push (.ofText text)
    | none => z.push (.ofText text)

/-- What stands finished once the nearest open element with a tag is
closed, and what is open then. -/
def closeIn (tag : String) : List Content → List (Own × List Content) →
    Option (List Content × List (Own × List Content))
  | _, [] => none
  | done, (o, before) :: outer =>
    if o.tag = tag then some (before ++ [.node o done], outer)
    else closeIn tag (before ++ [.node o done]) outer

/-- Close the nearest element with a tag. -/
def close (z : Draft) (tag : String) : Draft :=
  match closeIn tag z.done z.outer with
  | some (done, outer) => { z with done, outer }
  | none =>
    { z with log := z.log ++
        [⟨.debug, .fragment, "ignoring unmatched end tag", [("tag", .shown tag)]⟩] }

/-- Tell of what is open at the end. -/
def finish (z : Draft) : Draft :=
  match z.outer with
  | [] => z
  | (o, _) :: _ =>
    { z with log := z.log ++
        [⟨.trace, .fragment, "closing elements at end of input", [("tag", .shown o.tag)]⟩] }

/-- What there is once every open element is closed. -/
def closeAll : List Content → List (Own × List Content) → List Content
  | done, [] => done
  | done, (o, before) :: outer => closeAll (before ++ [.node o done]) outer

/-- **The fragment that has been read**, with every element closed. -/
def contents (z : Draft) : List Content :=
  closeAll z.done z.outer

/-- Add a construct, given the text after it. -/
def add (z : Draft) (construct : Construct) (rest : List Char) :
    Except MarkupFault (List Char) × Draft :=
  match construct with
  | .startTag content =>
    match Own.ofTag? content with
    | .error fault => (.error fault, z)
    | .ok o =>
      if isRawTextTag o.tag then
        let (body, rest) := breakRawText o.tag.toList rest
        (.ok rest, (z.enter o).addText body)
      else if isVoidTag o.tag then (.ok rest, z.push (.node o []))
      else (.ok rest, z.enter o)
  | .emptyTag content =>
    match Own.ofTag? content with
    | .error fault => (.error fault, z)
    | .ok o => (.ok rest, z.push (.node o []))
  | .endTag name => (.ok rest, z.close (String.ofList (asciiLower name)))
  | .comment text => (.ok rest, z.push (.ofComment text))
  | .characterData text =>
    (.ok rest, z.addText ("<![CDATA[".toList ++ text ++ "]]>".toList))
  | .skipped => (.ok rest, z)

/-- **Adding a construct** takes nothing of the text behind it, or the body
of the raw text element that it starts. -/
theorem add_cases {z z' : Draft} {construct : Construct} {rest next : List Char}
    (h : z.add construct rest = (.ok next, z')) :
    (next = rest ∧ ∀ rest', z.add construct rest' = (.ok rest', z'))
      ∨ ∃ content o, construct = .startTag content ∧ Own.ofTag? content = .ok o
        ∧ isRawTextTag o.tag = true ∧ next = (breakRawText o.tag.toList rest).2
        ∧ z' = (z.enter o).addText (breakRawText o.tag.toList rest).1 := by
  cases construct with
  | startTag content =>
    rw [add] at h
    cases ho : Own.ofTag? content with
    | error fault =>
      rw [ho] at h
      cases h
    | ok o =>
      rw [ho] at h
      dsimp only at h
      split at h
      · rename_i hraw
        cases h
        exact .inr ⟨content, o, rfl, ho, hraw, rfl, rfl⟩
      · rename_i hraw
        split at h
        · rename_i hvoid
          cases h
          exact .inl ⟨rfl, fun rest' => by rw [add, ho]; dsimp only; rw [if_neg hraw, if_pos hvoid]⟩
        · rename_i hvoid
          cases h
          exact .inl ⟨rfl, fun rest' => by rw [add, ho]; dsimp only; rw [if_neg hraw, if_neg hvoid]⟩
  | emptyTag content =>
    rw [add] at h
    cases ho : Own.ofTag? content with
    | error fault =>
      rw [ho] at h
      cases h
    | ok o =>
      rw [ho] at h
      cases h
      exact .inl ⟨rfl, fun rest' => by rw [add, ho]⟩
  | endTag _ | comment _ | characterData _ | skipped =>
    cases h
    exact .inl ⟨rfl, fun _ => rfl⟩

/-- **Reading goes on from an end of the text after the construct.** -/
theorem suffix_of_add {z z' : Draft} {construct : Construct} {rest next : List Char}
    (h : z.add construct rest = (.ok next, z')) : next <:+ rest := by
  obtain ⟨rfl, -⟩ | ⟨content, o, -, -, -, rfl, -⟩ := add_cases h
  · exact List.suffix_rfl
  · exact ⟨_, breakRawText_append o.tag.toList rest⟩

theorem length_le_of_add {z z' : Draft} {construct : Construct} {rest next : List Char}
    (h : z.add construct rest = (.ok next, z')) : next.length ≤ rest.length :=
  (suffix_of_add h).length_le

/-- **Read a text** to its end or to its first fault. -/
def read (z : Draft) (total : Nat) (text : List Char) : Option MarkupFault × Draft :=
  match _ht : breakAtConstruct text with
  | (before, []) => (none, (z.addText before).finish)
  | (before, c :: text') =>
    let z := z.addText before
    match _hr : readConstruct text' with
    | .error (offset, fault) =>
      (some (.malformed (total - byteLength (c :: text') + offset) fault), z)
    | .ok (construct, rest) =>
      match _ha : z.add construct rest with
      | (.error fault, z) => (some fault, z)
      | (.ok next, z) => z.read total next
termination_by text.length
decreasing_by
  have h₁ := length_le_of_add _ha
  have h₂ := length_le_of_readConstruct _hr
  have h₃ := length_breakAtConstruct_le text
  rw [_ht] at h₃
  simp only [List.length_cons] at h₃
  omega

section Read

variable {text before text' rest : List Char} {c : Char} {construct : Construct}

theorem read_of_end (h : breakAtConstruct text = (before, [])) (z : Draft) (total : Nat) :
    z.read total text = (none, (z.addText before).finish) := by
  rw [read]
  grind

theorem read_of_error {offset : Nat} {fault : ConstructFault}
    (h : breakAtConstruct text = (before, c :: text'))
    (hr : readConstruct text' = .error (offset, fault)) (z : Draft) (total : Nat) :
    z.read total text
      = (some (.malformed (total - byteLength (c :: text') + offset) fault),
          z.addText before) := by
  rw [read]
  grind

theorem read_of_ok (h : breakAtConstruct text = (before, c :: text'))
    (hr : readConstruct text' = .ok (construct, rest)) (z : Draft) (total : Nat) :
    z.read total text
      = match (z.addText before).add construct rest with
        | (.error fault, z') => (some fault, z')
        | (.ok next, z') => z'.read total next := by
  rw [read]
  grind

/-- **Each construct that is added shortens the text.** -/
theorem length_lt_of_add {z z' : Draft} {next : List Char}
    (h : breakAtConstruct text = (before, c :: text'))
    (hr : readConstruct text' = .ok (construct, rest))
    (ha : z.add construct rest = (.ok next, z')) : next.length < text.length := by
  have h₁ := length_le_of_add ha
  have h₂ := length_le_of_readConstruct hr
  have h₃ := length_breakAtConstruct_le text
  rw [h, List.length_cons] at h₃
  omega

end Read

/-- Telling of what is open changes nothing of what has been read. -/
@[simp] theorem contents_finish (z : Draft) : z.finish.contents = z.contents := by
  unfold finish
  split <;> rfl

/-! ## What reading keeps -/

/-- **What each step of reading keeps, a run keeps.** -/
theorem read_keeps {P : Draft → Prop} {z : Draft} (htext : ∀ {z} s, P z → P (z.addText s))
    (hadd : ∀ {z text before c text' construct rest},
      breakAtConstruct text = (before, c :: text') →
      readConstruct text' = .ok (construct, rest) → P z → P (z.add construct rest).2)
    (hfinish : ∀ {z}, P z → P z.finish) (h : P z) (total : Nat) (text : List Char) :
    P (z.read total text).2 := by
  induction z, text using Draft.read.induct with
  | case1 z text before hb =>
    rw [read_of_end hb]
    exact hfinish (htext before h)
  | case2 z text before c after hb offset fault hr =>
    rw [read_of_error hb hr]
    exact htext before h
  | case3 z text before c after hb z₁ construct rest hr fault z₂ ha =>
    have hadded := hadd hb hr (htext before h)
    rw [ha] at hadded
    rw [read_of_ok hb hr, ha]
    exact hadded
  | case4 z text before c after hb z₁ construct rest hr next z₂ ha ih =>
    have hadded := hadd hb hr (htext before h)
    rw [ha] at hadded
    rw [read_of_ok hb hr, ha]
    exact ih hadded

/-- **Closing elements keeps what finishing the innermost one keeps.** -/
theorem closeIn_induct {motive : List Content → List (Own × List Content) → Prop} {tag : String}
    {done done' : List Content} {outer outer' : List (Own × List Content)}
    (hleave : ∀ {done before o outer}, motive done ((o, before) :: outer) →
      motive (before ++ [.node o done]) outer)
    (h : motive done outer) (hc : closeIn tag done outer = some (done', outer')) :
    motive done' outer' := by
  induction outer generalizing done with
  | nil => cases hc
  | cons e outer ih =>
    rw [closeIn] at hc
    split at hc
    · cases hc
      exact hleave h
    · exact ih (hleave h) hc

/-- **All contents of a draft are of a kind, and so are the elements that
are open.** -/
structure Each (P : Content → Prop) (Q : Own → Prop) (z : Draft) : Prop where
  /-- What is finished in the innermost element is of the kind. -/
  done : ∀ c ∈ z.done, P c
  /-- So is what stands before an open element, which is of its own kind. -/
  outer : ∀ e ∈ z.outer, Q e.1 ∧ ∀ c ∈ e.2, P c

namespace Each

variable {P : Content → Prop} {Q : Own → Prop} {z : Draft} {c : Content} {o : Own}

theorem push (h : z.Each P Q) (hc : P c) : (z.push c).Each P Q where
  done d hd := by
    rcases List.mem_append.1 hd with hd | hd
    · exact h.done d hd
    · exact List.mem_singleton.1 hd ▸ hc
  outer := h.outer

theorem enter (h : z.Each P Q) (ho : Q o) : (z.enter o).Each P Q where
  done := nofun
  outer e he := by
    rcases List.mem_cons.1 he with rfl | he
    · exact ⟨ho, h.done⟩
    · exact h.outer e he

/-- Character data keeps a kind that texts are of, whatever they say. -/
theorem addText (h : z.Each P Q) (htext : ∀ text, P (.ofText text))
    (hjoin : ∀ {o cs} text, o.kind = .text → P (.node o cs) → P (.node { o with text } cs))
    (s : List Char) : (z.addText s).Each P Q := by
  unfold Draft.addText
  split
  · exact h
  · split
    · rename_i o cs hlast
      split
      · rename_i ho
        have hbefore : Each P Q { z with done := z.done.dropLast } :=
          ⟨fun d hd => h.done d (List.dropLast_subset _ hd), h.outer⟩
        exact hbefore.push (hjoin _ ho (h.done _ (List.mem_of_getLast? hlast)))
      · exact h.push (htext s)
    · exact h.push (htext s)

section Leave

variable (hnode : ∀ {o cs}, Q o → (∀ c ∈ cs, P c) → P (.node o cs))
include hnode

/-- The innermost element is finished. -/
theorem leave {done before : List Content} {outer : List (Own × List Content)} {log : Log}
    (h : Each P Q ⟨done, (o, before) :: outer, log⟩) :
    Each P Q ⟨before ++ [.node o done], outer, log⟩ := by
  obtain ⟨ho, hbefore⟩ := h.outer _ List.mem_cons_self
  exact push (z := ⟨before, outer, log⟩)
    ⟨hbefore, fun e he => h.outer e (List.mem_cons_of_mem _ he)⟩ (hnode ho h.done)

theorem close (h : z.Each P Q) (tag : String) : (z.close tag).Each P Q := by
  unfold Draft.close
  split
  · rename_i done outer hc
    exact closeIn_induct (motive := fun done outer => Each P Q ⟨done, outer, z.log⟩)
      (leave hnode) h hc
  · exact ⟨h.done, h.outer⟩

/-- What is open at the end is finished there. -/
theorem contents (h : z.Each P Q) : ∀ c ∈ z.contents, P c := by
  obtain ⟨done, outer, log⟩ := z
  unfold Draft.contents
  induction outer generalizing done with
  | nil => exact h.done
  | cons e outer ih => exact ih _ (h.leave hnode)

end Leave

end Each

end Draft

/-- **The contents of a fragment**, or what is wrong with it, and what
there is to tell. -/
def Content.parse (markup : String) : Except MarkupFault (List Content) × Log :=
  match Draft.read {} (byteLength markup.toList) markup.toList with
  | (some fault, z) => (.error fault, z.log)
  | (none, z) => (.ok z.contents, z.log)

end PageSlots.Markup
