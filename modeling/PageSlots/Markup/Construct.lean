import PageSlots.Markup.Fault
import PageSlots.Text.Blank
import PageSlots.Text.Search

/-!
# Constructs of markup

A construct is what a `<` opens: a tag, a comment, a section of character
data, a document type or a processing instruction. `readConstruct` reads
one from the text after its `<`, and returns it with the text that
follows.

Whether a `<` opens a construct at all depends on what stands right after
it (`opensConstruct`); any other `<` is text.
-/

namespace PageSlots.Markup

open PageSlots.Text

/-- **A construct.** -/
inductive Construct where
  /-- A start tag; the content is the name and the attributes. -/
  | startTag (content : List Char)
  /-- A start tag that ends with a slash and has no content. -/
  | emptyTag (content : List Char)
  /-- An end tag with what stands in it. -/
  | endTag (name : List Char)
  /-- A comment. -/
  | comment (text : List Char)
  /-- A section of character data. -/
  | characterData (text : List Char)
  /-- A document type, a declaration or a processing instruction. None of
  them is kept. -/
  | skipped
  deriving DecidableEq, Repr

/-- **Whether a `<` opens a construct**, by what follows it: a letter, a
`!`, a `?`, or a slash and a letter. -/
def opensConstruct : List Char → Bool
  | '/' :: c :: _ => c.isAlpha
  | c :: _ => c.isAlpha || c == '!' || c == '?'
  | [] => false

/-- The text before the first `<` that opens a construct, and the text
from there on. -/
def breakAtConstruct : List Char → List Char × List Char
  | [] => ([], [])
  | c :: text =>
    if c == '<' && opensConstruct text then ([], c :: text)
    else
      let (before, rest) := breakAtConstruct text
      (c :: before, rest)

/-! ## Tags -/

/-- The quote that is open after a character of a tag. -/
def quoteAfter (quote : Option Char) (c : Char) : Option Char :=
  match quote with
  | none => if c = '"' || c = '\'' then some c else none
  | some q => if c = q then none else some q

/-- **The content of a tag**, up to the first `>` that stands outside
quotes, and what follows the `>`. -/
def readTag (quote : Option Char) : List Char → Except ConstructFault (List Char × List Char)
  | [] =>
    match quote with
    | none => .error .unclosedTag
    | some q => .error (.unclosedValue q)
  | c :: text =>
    if quote = none ∧ c = '>' then .ok ([], text)
    else (readTag (quoteAfter quote c) text).map fun (content, rest) => (c :: content, rest)

/-- A start tag by its content: a slash at the end makes it an empty
one. -/
def startOrEmpty (content : List Char) : Construct :=
  if content.getLast? = some '/' then .emptyTag content.dropLast else .startTag content

/-- The name in a tag: what stands before the first blank. -/
def tagName (content : List Char) : List Char :=
  content.takeWhile (!isTagBlank ·)

/-- The attribute list of a tag: what stands after its name. -/
def tagAttributes (content : List Char) : List Char :=
  content.dropWhile (!isTagBlank ·)

/-! ## Document types -/

/-- Where a scan of a document type stands. -/
inductive DoctypeScan where
  /-- Before the internal subset, perhaps inside quotes. -/
  | outside (quote : Option Char)
  /-- Between the declarations of the internal subset. -/
  | subset
  /-- Right after a `<` in the internal subset; the text so far tells what
  it opens. -/
  | opened
  /-- Right after `<!` in the internal subset. -/
  | openedBang
  /-- Right after `<!-` in the internal subset. -/
  | openedDash
  /-- Inside a declaration, perhaps inside quotes. -/
  | declaration (quote : Option Char)
  /-- Inside a processing instruction; whether a `?` came just before. -/
  | instruction (mark : Bool)
  /-- Inside a comment, with the number of dashes just before. -/
  | comment (dashes : Nat)
  /-- After the internal subset. -/
  | closing
  deriving DecidableEq, Repr

/-- The scan of a declaration after a character. -/
def DoctypeScan.inDeclaration (quote : Option Char) (c : Char) : DoctypeScan :=
  if quote = none ∧ c = '>' then .subset else .declaration (quoteAfter quote c)

/-- The scan after a character. -/
def DoctypeScan.next (c : Char) : DoctypeScan → DoctypeScan
  | .outside none => if c = '[' then .subset else .outside (quoteAfter none c)
  | .outside quote => .outside (quoteAfter quote c)
  | .subset => if c = ']' then .closing else if c = '<' then .opened else .subset
  | .opened =>
    if c = '?' then .instruction false
    else if c = '!' then .openedBang
    else inDeclaration none c
  | .openedBang => if c = '-' then .openedDash else inDeclaration none c
  | .openedDash => if c = '-' then .comment 0 else inDeclaration none c
  | .declaration quote => inDeclaration quote c
  | .instruction mark => if mark && c = '>' then .subset else .instruction (c = '?')
  | .comment dashes =>
    if 2 ≤ dashes && c = '>' then .subset
    else .comment (if c = '-' then dashes + 1 else 0)
  | .closing => .closing

/-- Whether a `>` ends the document type. -/
def DoctypeScan.mayEnd : DoctypeScan → Bool
  | .outside none => true
  | .closing => true
  | _ => false

/-- The text of a document type up to its `>`, and what follows. -/
def readDoctype (scan : DoctypeScan) : List Char → Option (List Char × List Char)
  | [] => none
  | c :: text =>
    if scan.mayEnd && c = '>' then some ([], text)
    else (readDoctype (scan.next c) text).map fun (content, rest) => (c :: content, rest)

/-! ## Constructs -/

/-- A fault of a construct, and how many bytes after its `<` it is
noticed. -/
abbrev FaultAt := Nat × ConstructFault

/-- The construct that `<!` opens; the text is what follows the `!`. -/
def readBang (text : List Char) : Except FaultAt (Construct × List Char) :=
  match text with
  | '-' :: '-' :: text =>
    match breakOn? ['-', '-', '>'] text with
    | some (comment, rest) => .ok (.comment comment, rest)
    | none => .error (0, .unclosedComment)
  | '-' :: _ => .error (0, .unclosedComment)
  | '[' :: text =>
    if "CDATA[".toList.isPrefixOf text then
      match breakOn? [']', ']', '>'] (text.drop 6) with
      | some (data, rest) => .ok (.characterData data, rest)
      | none => .error (0, .unclosedCharacterData)
    else .error (0, .unclosedCharacterData)
  | c :: _ =>
    if c = 'd' || c = 'D' then
      match readDoctype (.outside none) text with
      | some (content, rest) =>
        if asciiLower (content.take 7) = "doctype".toList then
          if (content.drop 7).all isTagBlank then
            .error (2 + byteLength content, .namelessDoctype)
          else .ok (.skipped, rest)
        else .error (0, .unclosedDoctype)
      | none => .error (0, .unclosedDoctype)
    else .error (0, .unknownMarkup)
  | [] => .error (0, .unknownMarkup)

/-- Whether an unfinished instruction would be the declaration of the
version of the markup. -/
def isDeclarationStart (text : List Char) : Bool :=
  match text with
  | 'x' :: 'm' :: 'l' :: rest =>
    match rest with
    | [] => true
    | c :: _ => isTagBlank c || c == '?'
  | _ => false

/-- The construct that `<?` opens; the text is what follows the `?`. -/
def readInstruction (text : List Char) : Except FaultAt (Construct × List Char) :=
  match text with
  | '>' :: _ => .error (0, .unclosedInstruction)
  | _ =>
    match breakOn? ['?', '>'] text with
    | some (_, rest) => .ok (.skipped, rest)
    | none =>
      .error (0, if isDeclarationStart text then .unclosedDeclaration else .unclosedInstruction)

/-- **Read a construct** from the text after its `<`. A fault comes with
the number of bytes after the `<` at which it is noticed. -/
def readConstruct (text : List Char) : Except FaultAt (Construct × List Char) :=
  match text with
  | '!' :: text => readBang text
  | '?' :: text => readInstruction text
  | '/' :: text =>
    match readTag none text with
    | .ok (content, rest) => .ok (.endTag (dropRightWhile isTagBlank content), rest)
    | .error fault => .error (0, fault)
  | text =>
    match readTag none text with
    | .ok (content, rest) => .ok (startOrEmpty content, rest)
    | .error fault => .error (0, fault)

/-! ## Progress -/

/-- **The text before a construct and the rest make up the text.** -/
theorem breakAtConstruct_append :
    ∀ text : List Char, (breakAtConstruct text).1 ++ (breakAtConstruct text).2 = text
  | [] => rfl
  | c :: text => by
    unfold breakAtConstruct
    split
    · rfl
    · simp [breakAtConstruct_append text]

theorem length_breakAtConstruct_le (text : List Char) :
    (breakAtConstruct text).2.length ≤ text.length := by
  conv => rhs; rw [← breakAtConstruct_append text]
  simp

theorem length_lt_of_readTag {quote : Option Char} :
    ∀ {text content rest : List Char}, readTag quote text = .ok (content, rest) →
      rest.length < text.length := by
  intro text
  induction text generalizing quote with
  | nil =>
    intro content rest h
    unfold readTag at h
    split at h <;> simp at h
  | cons c text ih =>
    intro content rest h
    unfold readTag at h
    split at h
    · simp only [Except.ok.injEq, Prod.mk.injEq] at h
      rw [← h.2]
      simp
    · cases hr : readTag (quoteAfter quote c) text with
      | error e => simp [hr, Except.map] at h
      | ok p =>
        have := @ih _ p.1 p.2 hr
        simp only [hr, Except.map, Except.ok.injEq, Prod.mk.injEq] at h
        rw [← h.2, List.length_cons]
        omega

theorem length_lt_of_readDoctype {scan : DoctypeScan} :
    ∀ {text content rest : List Char}, readDoctype scan text = some (content, rest) →
      rest.length < text.length := by
  intro text
  induction text generalizing scan with
  | nil => intro content rest h; simp [readDoctype] at h
  | cons c text ih =>
    intro content rest h
    unfold readDoctype at h
    split at h
    · simp only [Option.some.injEq, Prod.mk.injEq] at h
      rw [← h.2]
      simp
    · obtain ⟨⟨a, b⟩, hr, he⟩ := Option.map_eq_some_iff.1 h
      have := ih hr
      simp only [Prod.mk.injEq] at he
      rw [← he.2, List.length_cons]
      omega

theorem length_le_of_breakOn? {pattern text before after : List Char}
    (h : breakOn? pattern text = some (before, after)) : after.length ≤ text.length := by
  rw [eq_append_of_breakOn? h]
  simp
  omega

theorem length_le_of_readBang {text rest : List Char} {c : Construct}
    (h : readBang text = .ok (c, rest)) : rest.length ≤ text.length := by
  unfold readBang at h
  split at h
  · split at h
    · rename_i heq
      have := length_le_of_breakOn? heq
      simp only [Except.ok.injEq, Prod.mk.injEq] at h
      rw [← h.2]
      simp only [List.length_cons]
      omega
    · simp at h
  · simp at h
  · split at h
    · split at h
      · rename_i heq
        have := length_le_of_breakOn? heq
        simp only [Except.ok.injEq, Prod.mk.injEq] at h
        rw [← h.2]
        simp only [List.length_cons, List.length_drop] at *
        omega
      · simp at h
    · simp at h
  · split at h
    · split at h
      · rename_i heq
        have := length_lt_of_readDoctype heq
        split at h
        · split at h
          · simp at h
          · simp only [Except.ok.injEq, Prod.mk.injEq] at h
            rw [← h.2]
            omega
        · simp at h
      · simp at h
    · simp at h
  · simp at h

theorem length_le_of_readInstruction {text rest : List Char} {c : Construct}
    (h : readInstruction text = .ok (c, rest)) : rest.length ≤ text.length := by
  unfold readInstruction at h
  split at h
  · simp at h
  · split at h
    · rename_i heq
      have := length_le_of_breakOn? heq
      simp only [Except.ok.injEq, Prod.mk.injEq] at h
      rw [← h.2]
      exact this
    · simp at h

/-- **A construct leaves a text that is no longer** than the one after its
`<`, so a reader that goes on from there ends. -/
theorem length_le_of_readConstruct {text rest : List Char} {c : Construct}
    (h : readConstruct text = .ok (c, rest)) : rest.length ≤ text.length := by
  unfold readConstruct at h
  split at h
  · have := length_le_of_readBang h
    simp only [List.length_cons]
    omega
  · have := length_le_of_readInstruction h
    simp only [List.length_cons]
    omega
  · split at h
    · rename_i heq
      have := length_lt_of_readTag heq
      simp only [Except.ok.injEq, Prod.mk.injEq] at h
      rw [← h.2]
      simp only [List.length_cons]
      omega
    · simp at h
  · split at h
    · rename_i heq
      have := length_lt_of_readTag heq
      simp only [Except.ok.injEq, Prod.mk.injEq] at h
      rw [← h.2]
      omega
    · simp at h

end PageSlots.Markup
