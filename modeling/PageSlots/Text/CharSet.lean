/-!
# Sets of characters and case mappings

Whether a character is a letter, a blank or a punctuation mark, and what
its lower-case form is, are properties of the character that a table
decides. This module holds the two shapes of table: `CharSet`, a set of
characters given by ranges of code points, and `CaseMap`, a mapping of
characters to texts given by runs of code points that move by the same
distance, together with the few characters that map to more than one.

The tables themselves stand in modules of their own, one property each.
-/

namespace PageSlots.Text

/-- **A set of characters**, as ranges of code points with both ends
included, in increasing order and apart from each other. -/
structure CharSet where
  /-- The ranges. -/
  ranges : List (Nat × Nat)

namespace CharSet

/-- Whether a code point lies in one of the ranges. They increase, so the
search ends at the first one that starts beyond the code point. -/
def holds (code : Nat) : List (Nat × Nat) → Bool
  | [] => false
  | (first, last) :: ranges =>
    if code < first then false
    else if code ≤ last then true
    else holds code ranges

/-- Whether a character belongs to the set. -/
def contains (s : CharSet) (c : Char) : Bool :=
  holds c.toNat s.ranges

@[simp] theorem holds_nil (code : Nat) : holds code [] = false := rfl

/-- **A code point that is held lies in a range of the list.** -/
theorem exists_range_of_holds {code : Nat} :
    ∀ {ranges : List (Nat × Nat)}, holds code ranges = true →
      ∃ r ∈ ranges, r.1 ≤ code ∧ code ≤ r.2
  | [], h => by simp at h
  | (first, last) :: ranges, h => by
    unfold holds at h
    split at h
    · simp at h
    · split at h
      · exact ⟨_, List.mem_cons_self, by omega, by omega⟩
      · obtain ⟨r, hr, hc⟩ := exists_range_of_holds h
        exact ⟨r, List.mem_cons_of_mem _ hr, hc⟩

end CharSet

/-- **A run of code points that move by the same distance.** The run has
the code points `first`, `first + step`, … up to `last`. -/
structure CaseRun where
  /-- The first code point of the run. -/
  first : Nat
  /-- The last code point of the run. -/
  last : Nat
  /-- The distance between neighbours in the run. -/
  step : Nat
  /-- How far each code point moves. -/
  shift : Int

/-- Whether a code point belongs to the run. -/
def CaseRun.covers (r : CaseRun) (code : Nat) : Bool :=
  r.first ≤ code && code ≤ r.last && (code - r.first) % r.step == 0

/-- Where the run takes a code point of its own. -/
def CaseRun.move (r : CaseRun) (code : Nat) : Char :=
  Char.ofNat (code + r.shift).toNat

/-- **A case mapping**: the characters that map to one character, in
runs, and those that map to several. -/
structure CaseMap where
  /-- The runs of characters that map to one character each. -/
  runs : List CaseRun
  /-- The characters that map to several, with what they map to. -/
  expansions : List (Nat × List Nat)

/-- The text a character maps to. A character the mapping does not
mention maps to itself. -/
def CaseMap.apply (m : CaseMap) (c : Char) : List Char :=
  match m.expansions.find? (·.1 == c.toNat) with
  | some (_, codes) => codes.map Char.ofNat
  | none =>
    match m.runs.find? (·.covers c.toNat) with
    | some run => [run.move c.toNat]
    | none => [c]

end PageSlots.Text
