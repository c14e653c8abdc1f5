import Mathlib.Data.List.Basic
import PageSlots.Markup.Escape
import PageSlots.Proofs.Reference.Scan

/-!
# Decoding what was escaped

Escaping knows five characters and decoding some forty references, and
neither knows of the other: the scan takes any reference that it comes to.
What it comes to in an escaped text is nevertheless nothing but what escaping
has written there. An `&` of the text is itself written as a reference, so
whatever the text looks like – a reference, half of one, or two halves at the
seam of two texts – every `&` that the scan meets begins a reference that
escaping has finished. The pieces of an escaped text are the characters of
the text, one piece for each (`scans_escapeChars`), and each piece is decoded
to its character.
-/

namespace PageSlots.Markup

variable {pieces : List Piece}

/-- **A piece that is taken wherever it stands**, whatever follows it. -/
def Piece.Stands : Piece → Prop
  | .char c => c ≠ '&'
  | .reference r body => r.Spelled body

/-- **Pieces that stand are the scan of what they are written as.** -/
theorem Scans.flatMap_written (h : ∀ piece ∈ pieces, piece.Stands) :
    Scans (pieces.flatMap Piece.written) pieces := by
  induction pieces with
  | nil => exact .nil
  | cons piece pieces ih =>
    obtain ⟨hpiece, hpieces⟩ := List.forall_mem_cons.1 h
    rw [List.flatMap_cons]
    cases piece with
    | char c => exact (ih hpieces).other hpiece
    | reference r body =>
      rw [Piece.written, List.cons_append, List.append_assoc]
      exact .reference hpiece (ih hpieces)

/-- **The piece that a character is written as** when it is escaped. -/
def escapedPiece (c : Char) : Piece :=
  if c = '&' then .reference (.named "amp".toList) "amp".toList
  else if c = '<' then .reference (.named "lt".toList) "lt".toList
  else if c = '>' then .reference (.named "gt".toList) "gt".toList
  else if c = '"' then .reference (.named "quot".toList) "quot".toList
  else if c = '\'' then .reference (.numeric 10 "39".toList) "#39".toList
  else .char c

/-- **An escaped character is one piece**, and is decoded to itself. -/
theorem escapedPiece_stands (c : Char) :
    (escapedPiece c).Stands ∧ (escapedPiece c).written = escapeChar c
      ∧ (escapedPiece c).decoded = [c] := by
  have hnamed : ∀ {d : Char} {name : List Char}, d.isAlpha = true →
      name.all Char.isAlphanum = true →
      (Piece.reference (.named (d :: name)) (d :: name)).Stands :=
    fun hd hall => .named hd (List.all_eq_true.1 hall)
  unfold escapedPiece escapeChar
  split
  · rename_i hc
    exact ⟨hnamed (by decide) (by decide), rfl, hc ▸ rfl⟩
  split
  · rename_i hc
    exact ⟨hnamed (by decide) (by decide), rfl, hc ▸ rfl⟩
  split
  · rename_i hc
    exact ⟨hnamed (by decide) (by decide), rfl, hc ▸ rfl⟩
  split
  · rename_i hc
    exact ⟨hnamed (by decide) (by decide), rfl, hc ▸ rfl⟩
  split
  · rename_i hc
    exact ⟨.decimal (by decide) (List.all_eq_true.1 (by decide)), rfl, hc ▸ rfl⟩
  · rename_i hc _ _ _ _
    exact ⟨hc, rfl, rfl⟩

/-- An escaped text is written piece by piece. -/
theorem escapeChars_eq (text : List Char) :
    escapeChars text = (text.map escapedPiece).flatMap Piece.written := by
  rw [escapeChars, List.flatMap_map]
  exact List.flatMap_congr fun c _ => (escapedPiece_stands c).2.1.symm

/-- **The pieces of an escaped text** are its characters, each for itself. -/
theorem scans_escapeChars (text : List Char) :
    Scans (escapeChars text) (text.map escapedPiece) := by
  rw [escapeChars_eq]
  refine .flatMap_written fun piece hpiece => ?_
  obtain ⟨c, -, rfl⟩ := List.mem_map.1 hpiece
  exact (escapedPiece_stands c).1

/-- **Decoding undoes escaping.** -/
theorem decodeChars_escapeChars (text : List Char) : decodeChars (escapeChars text) = text := by
  rw [decodeChars_eq (scans_escapeChars text), List.flatMap_map,
    List.flatMap_congr fun c _ => (escapedPiece_stands c).2.2, List.flatMap_singleton']

/-! ## Texts one after the other -/

/-- **What escaping writes is what decoding finds.** A text that is escaped
and decoded is the text again, and so are texts that are escaped one by one,
put one after the other and decoded together – whatever references or halves
of references the texts hold. The scan of the whole takes one piece for each
character, so no reference reaches over a seam. -/
theorem decodeReferences_join_escape :
    (∀ text : String, decodeReferences (escape text) = text)
    ∧ ∀ texts : List String,
      decodeReferences (String.join (texts.map escape)) = String.join texts
      ∧ Scans (String.join (texts.map escape)).toList
        (texts.flatMap fun text => text.toList.map escapedPiece) := by
  have hjoin : ∀ texts : List String,
      (String.join (texts.map escape)).toList = escapeChars (String.join texts).toList := by
    intro texts
    rw [String.toList_join, String.toList_join, List.flatMap_map, escapeChars, List.flatMap_assoc]
    exact List.flatMap_congr fun text _ => toList_escape text
  refine ⟨fun text => String.toList_injective ?_, fun texts => ⟨String.toList_injective ?_, ?_⟩⟩
  · rw [toList_decodeReferences, toList_escape, decodeChars_escapeChars]
  · rw [toList_decodeReferences, hjoin, decodeChars_escapeChars]
  · rw [hjoin, ← List.map_flatMap, ← String.toList_join]
    exact scans_escapeChars _

end PageSlots.Markup
