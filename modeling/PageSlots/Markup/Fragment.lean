import PageSlots.Log
import PageSlots.Markup.AttributeList
import PageSlots.Markup.Construct
import PageSlots.Markup.Element
import PageSlots.Markup.Tree.Edit

/-!
# Reading a fragment

A fragment is read construct by construct. A `Builder` holds the tree
that grows, the document from which the fragment hangs until it is
complete, and the elements that are still open. What is read becomes a
child of the innermost open element.

Reading is lenient about structure. An end tag closes the nearest open
element with its name together with everything opened after it; one that
closes nothing is ignored; elements that are open at the end are closed
there. A void element is never open. The content of a raw text element
is taken as it stands, up to its own end tag.

A fragment that cannot be read leaves its parent untouched. The nodes it
has created so far stay in the pool.
-/

namespace PageSlots.Markup

open PageSlots.Text

/-- **A fragment that is being read.** -/
structure Builder where
  /-- The tree that grows. -/
  tree : Tree
  /-- The document from which the fragment hangs. -/
  holder : NodeId
  /-- The elements that are open, innermost first. -/
  opened : List NodeId := []
  /-- What there is to tell. -/
  log : Log := []

/-! ## Raw text -/

/-- Whether a text begins with the end tag of a raw text element: the name
in either case, and nothing but blanks before the `>`. -/
def endsRawText (tag : List Char) : List Char → Bool
  | '<' :: '/' :: text =>
    asciiLower (text.take tag.length) = tag &&
      ((text.drop tag.length).dropWhile isAsciiBlank).head? = some '>'
  | _ => false

/-- The content of a raw text element, and what follows from its end tag
on. -/
def breakRawText (tag : List Char) : List Char → List Char × List Char
  | [] => ([], [])
  | c :: text =>
    if endsRawText tag (c :: text) then ([], c :: text)
    else
      let (body, rest) := breakRawText tag text
      (c :: body, rest)

/-- **The pieces of a raw text make up the text.** -/
theorem breakRawText_append (tag : List Char) :
    ∀ text : List Char, (breakRawText tag text).1 ++ (breakRawText tag text).2 = text
  | [] => rfl
  | c :: text => by
    unfold breakRawText
    split
    · rfl
    · simp [breakRawText_append tag text]

theorem length_breakRawText_le (tag text : List Char) :
    (breakRawText tag text).2.length ≤ text.length :=
  List.IsSuffix.length_le ⟨_, breakRawText_append tag text⟩

namespace Builder

/-! ## Growing the tree -/

/-- The node that takes what is read next. -/
def current (b : Builder) : NodeId :=
  b.opened.head?.getD b.holder

/-- Put a node under the current one. -/
def attach (b : Builder) (id : NodeId) : Builder :=
  { b with tree := b.tree.appendChild b.current id }

/-- **Add character data.** It joins the text before it, if there is
one. -/
def addText (b : Builder) (text : List Char) : Builder :=
  if text.isEmpty then b
  else
    let text := String.ofList text
    match (b.tree.children b.current).getLast? with
    | some last =>
      if b.tree.kind last = .text then { b with tree := b.tree.pushText last text }
      else
        let (id, tree) := b.tree.createText text
        attach { b with tree } id
    | none =>
      let (id, tree) := b.tree.createText text
      attach { b with tree } id

/-- Add a comment. -/
def addComment (b : Builder) (text : List Char) : Builder :=
  let (id, tree) := b.tree.createComment (String.ofList text)
  attach { b with tree } id

/-- Give an element an attribute that was read. Of two with one name the
first one counts. -/
def addAttribute (id : NodeId) (tree : Tree) (attr : List Char × List Char) : Tree :=
  let name := String.ofList (asciiLower attr.1)
  if tree.hasAttr id name then tree
  else tree.setAttr id name (String.ofList attr.2)

/-- **Add the element of a tag.** It is attached once its attributes have
been read; a fault among them leaves it detached. -/
def addElement (b : Builder) (content : List Char) : Except MarkupFault NodeId × Builder :=
  let (id, tree) := b.tree.createElement (String.ofList (asciiLower (tagName content)))
  let (attrs, fault) := readAttributes (tagAttributes content)
  let b := { b with tree := attrs.foldl (addAttribute id) tree }
  match fault with
  | some fault => (.error (.attribute (byteLength content) fault), b)
  | none => (.ok id, b.attach id)

/-- Whether an open element has a tag. -/
def isOpened (b : Builder) (tag : String) (id : NodeId) : Bool :=
  b.tree.tag id = tag

/-- **Close the nearest element with a tag**, and what was opened after
it. -/
def close (b : Builder) (tag : String) : Builder :=
  match b.opened.dropWhile (!b.isOpened tag ·) with
  | _ :: outer => { b with opened := outer }
  | [] =>
    { b with log := b.log ++
        [⟨.debug, .fragment, "ignoring unmatched end tag", [("tag", .shown tag)]⟩] }

/-- Close what is open at the end. -/
def finish (b : Builder) : Builder :=
  match b.opened with
  | [] => b
  | id :: _ =>
    { b with log := b.log ++
        [⟨.trace, .fragment, "closing elements at end of input",
          [("tag", .shown (b.tree.tag id))]⟩] }

/-- Add a construct, given the text after it, and return the text from
which to read on. -/
def add (b : Builder) (construct : Construct) (rest : List Char) :
    Except MarkupFault (List Char) × Builder :=
  match construct with
  | .startTag content =>
    match b.addElement content with
    | (.error fault, b) => (.error fault, b)
    | (.ok id, b) =>
      let tag := b.tree.tag id
      if isRawTextTag tag then
        let (body, rest) := breakRawText tag.toList rest
        (.ok rest, addText { b with opened := id :: b.opened } body)
      else if isVoidTag tag then (.ok rest, b)
      else (.ok rest, { b with opened := id :: b.opened })
  | .emptyTag content =>
    match b.addElement content with
    | (.error fault, b) => (.error fault, b)
    | (.ok _, b) => (.ok rest, b)
  | .endTag name => (.ok rest, b.close (String.ofList (asciiLower name)))
  | .comment text => (.ok rest, b.addComment text)
  | .characterData text =>
    (.ok rest, b.addText ("<![CDATA[".toList ++ text ++ "]]>".toList))
  | .skipped => (.ok rest, b)

/-- **Reading goes on from an end of the text after the construct.** -/
theorem suffix_of_add {b b' : Builder} {construct : Construct} {rest next : List Char}
    (h : b.add construct rest = (.ok next, b')) : next <:+ rest := by
  unfold add at h
  split at h
  · split at h
    · simp at h
    · dsimp only at h
      split at h
      · simp only [Prod.mk.injEq, Except.ok.injEq] at h
        rw [← h.1]
        exact ⟨_, breakRawText_append _ rest⟩
      · split at h <;> simp only [Prod.mk.injEq, Except.ok.injEq] at h <;> simp [← h.1]
  · split at h
    · simp at h
    · simp only [Prod.mk.injEq, Except.ok.injEq] at h
      simp [← h.1]
  all_goals
    simp only [Prod.mk.injEq, Except.ok.injEq] at h
    simp [← h.1]

theorem length_le_of_add {b b' : Builder} {construct : Construct} {rest next : List Char}
    (h : b.add construct rest = (.ok next, b')) : next.length ≤ rest.length :=
  (suffix_of_add h).length_le

/-- **Read a text** to its end or to its first fault. Positions are told
by what is left of a fragment with a total number of bytes. -/
def read (b : Builder) (total : Nat) (text : List Char) : Option MarkupFault × Builder :=
  match _ht : breakAtConstruct text with
  | (before, []) => (none, (b.addText before).finish)
  | (before, c :: text') =>
    let b := b.addText before
    match _hr : readConstruct text' with
    | .error (offset, fault) =>
      (some (.malformed (total - byteLength (c :: text') + offset) fault), b)
    | .ok (construct, rest) =>
      match _ha : b.add construct rest with
      | (.error fault, b) => (some fault, b)
      | (.ok next, b) => b.read total next
termination_by text.length
decreasing_by
  have h₁ := length_le_of_add _ha
  have h₂ := length_le_of_readConstruct _hr
  have h₃ := length_breakAtConstruct_le text
  rw [_ht] at h₃
  simp only [List.length_cons] at h₃
  omega

end Builder

/-! ## Fragments -/

/-- What reading a fragment into a tree gives: the new nodes under the
parent or a fault, the tree, and what there is to tell. -/
structure FragmentResult where
  /-- The top-level nodes, or why there are none. -/
  nodes : Except MarkupFault (List NodeId)
  /-- The tree with the nodes that were created. -/
  tree : Tree
  /-- What there is to tell. -/
  log : Log

/-- **Read a fragment and append its top-level nodes to a parent.** On a
fault the parent is left untouched. -/
def Tree.readInto (t : Tree) (parent : NodeId) (markup : String) : FragmentResult :=
  let (holder, tree) := t.createDocument
  let text := markup.toList
  match Builder.read { tree, holder } (byteLength text) text with
  | (some fault, b) => ⟨.error fault, b.tree, b.log⟩
  | (none, b) =>
    let nodes := b.tree.children holder
    ⟨.ok nodes, b.tree.appendChildren parent nodes, b.log⟩

/-- **Read a fragment into a tree of its own.** Its document is node
zero. -/
def readFragment (markup : String) : FragmentResult :=
  let (root, tree) := Tree.empty.createDocument
  tree.readInto root markup

end PageSlots.Markup
