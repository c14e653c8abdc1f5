import Mathlib.Data.List.Induction
import Mathlib.Data.Nat.Digits.Defs
import PageSlots.Proofs.Reference.Scan

/-!
# Numeric references

A numeric reference has any number of digits, and what they denote is told
here by their places (`denoted`), without a bound. Read into a word of 32
bits they overflow sooner or later. That is no loss: a number that does not
fit once does not fit with more digits behind it, so a reading that fails
when a step overflows fails for just the numbers that are too large for a
word (`readWord_eq`), and no such number is the code of a character.

A numeric reference is decoded for itself, whatever stands around it
(`decodeReferences_numeric`). The text before it may even end in half of a
reference, since its own `&` puts an end to that one.
-/

namespace PageSlots.Markup

variable {digits : List Char} {c : Char}

/-! ## What digits denote -/

/-- The value of a digit: its place among the sixteen digits, where the case
of a letter does not matter. -/
def digitPlace (c : Char) : Nat :=
  "0123456789abcdef".toList.idxOf c.toLower

/-- **The number that digits denote** in a base, the last digit having the
lowest place. -/
def denoted (base : Nat) (digits : List Char) : Nat :=
  Nat.ofDigits base (digits.reverse.map digitPlace)

/-- A hexadecimal digit has the value of its place. -/
theorem digitValue_eq (h : isHexDigit c = true) : digitValue c = digitPlace c := by
  have hsmall : c.toNat < 128 := by
    simp only [isHexDigit, Char.isDigit, Bool.or_eq_true, Bool.and_eq_true, decide_eq_true_eq,
      Char.le_def, UInt32.le_iff_toNat_le, Char.toNat_val] at h
    rcases h with (⟨-, h⟩ | ⟨-, h⟩) | ⟨-, h⟩ <;> exact Nat.lt_of_le_of_lt h (by decide)
  have hall : ∀ k < 128, isHexDigit (Char.ofNat k) = true →
      digitValue (Char.ofNat k) = digitPlace (Char.ofNat k) := by decide +kernel
  rw [← Char.ofNat_toNat c] at h ⊢
  exact hall c.toNat hsmall h

theorem numeral_concat (base : Nat) (digits : List Char) (d : Char) :
    numeral base (digits ++ [d]) = numeral base digits * base + digitValue d := by
  rw [numeral, List.foldl_append]
  rfl

/-- **What is read digit by digit is what the places say.** -/
theorem numeral_eq (base : Nat) (h : ∀ d ∈ digits, isHexDigit d = true) :
    numeral base digits = denoted base digits := by
  induction digits using List.reverseRecOn with
  | nil => rfl
  | append_singleton digits d ih =>
    rw [numeral_concat, ih fun e he => h e (List.mem_append_left _ he),
      digitValue_eq (h d (List.mem_append_right _ List.mem_cons_self)), denoted, denoted,
      List.reverse_append, List.reverse_singleton, List.singleton_append, List.map_cons,
      Nat.ofDigits_cons, Nat.mul_comm, Nat.add_comm]

example : denoted 16 "0001f600".toList = 0x1F600 := by decide

/-! ## Reading into a word -/

/-- A number, if a word of 32 bits holds it. -/
def word? (n : Nat) : Option Nat :=
  if n < 2 ^ 32 then some n else none

/-- **Digits read into a word of 32 bits**, one by one: the reading fails as
soon as a multiplication or an addition overflows. -/
def readWord (base : Nat) (digits : List Char) : Option Nat :=
  digits.foldlM (fun n d => (word? (n * base)).bind fun m => word? (m + digitValue d)) 0

/-- One step fails exactly if its result does not fit. -/
theorem bind_word? (n k : Nat) : ((word? n).bind fun m => word? (m + k)) = word? (n + k) := by
  unfold word?
  by_cases hn : n < 2 ^ 32
  · rw [if_pos hn]
    rfl
  · rw [if_neg hn, if_neg fun h => hn (Nat.lt_of_le_of_lt (Nat.le_add_right n k) h)]
    rfl

/-- More digits make no smaller number. -/
theorem le_foldl_numeral {base : Nat} (hbase : 0 < base) (n : Nat) (digits : List Char) :
    n ≤ digits.foldl (fun n d => n * base + digitValue d) n := by
  induction digits generalizing n with
  | nil => exact Nat.le_refl n
  | cons d digits ih =>
    exact Nat.le_trans (Nat.le_trans (Nat.le_mul_of_pos_right n hbase) (Nat.le_add_right _ _))
      (ih _)

/-- **The reading fails exactly if the number does not fit**, however many
digits stand behind the one that overflows. -/
theorem readWord_eq {base : Nat} (hbase : 0 < base) (digits : List Char) :
    readWord base digits = word? (numeral base digits) := by
  have hfrom : ∀ n < 2 ^ 32,
      digits.foldlM (fun n d => (word? (n * base)).bind fun m => word? (m + digitValue d)) n
        = word? (digits.foldl (fun n d => n * base + digitValue d) n) := by
    induction digits with
    | nil => exact fun n hn => (if_pos hn).symm
    | cons d digits ih =>
      intro n _
      rw [List.foldlM_cons, bind_word?, List.foldl_cons]
      by_cases hstep : n * base + digitValue d < 2 ^ 32
      · rw [word?, if_pos hstep]
        exact ih _ hstep
      · have hlarge := le_foldl_numeral hbase (n * base + digitValue d) digits
        rw [word?, if_neg hstep, word?,
          if_neg fun h => hstep (Nat.lt_of_le_of_lt hlarge h)]
        rfl
  exact hfrom 0 (by decide)

/-- No number beyond a word is the code of a character. -/
theorem bind_scalar? (n : Nat) : (word? n).bind scalar? = scalar? n := by
  unfold word?
  by_cases hn : n < 2 ^ 32
  · rw [if_pos hn]
    rfl
  · have hnot : ¬ n.isValidChar := by
      rintro (h | ⟨-, h⟩) <;> exact hn (Nat.lt_trans h (by decide))
    rw [if_neg hn, scalar?, if_neg hnot]
    rfl

/-! ## References -/

/-- **The ways to write a number**: in base ten, or in base sixteen behind an
`x` of either case. -/
inductive NumberForm where
  /-- Decimal digits behind `#`. -/
  | decimal
  /-- Hexadecimal digits behind `#x`. -/
  | lowerHex
  /-- Hexadecimal digits behind `#X`. -/
  | upperHex

namespace NumberForm

/-- What stands between the `&` and the digits. -/
def mark : NumberForm → String
  | decimal => "#"
  | lowerHex => "#x"
  | upperHex => "#X"

/-- The base of the digits. -/
def base : NumberForm → Nat
  | decimal => 10
  | lowerHex | upperHex => 16

/-- Whether a character is one of the digits. -/
def isDigit : NumberForm → Char → Bool
  | decimal => Char.isDigit
  | lowerHex | upperHex => isHexDigit

/-- A number is spelled with its mark and its digits. -/
theorem spelled (form : NumberForm) (hne : digits ≠ [])
    (hall : ∀ d ∈ digits, form.isDigit d = true) :
    (Reference.numeric form.base digits).Spelled (form.mark.toList ++ digits) := by
  cases form with
  | decimal => exact .decimal hne hall
  | lowerHex => exact .hexadecimal (.inl rfl) hne hall
  | upperHex => exact .hexadecimal (.inr rfl) hne hall

/-- A digit of either base is a hexadecimal digit. -/
theorem isHexDigit_of_isDigit (form : NumberForm) (h : form.isDigit c = true) :
    isHexDigit c = true := by
  cases form with
  | decimal =>
    have hdigit : c.isDigit = true := h
    rw [isHexDigit, hdigit]
    rfl
  | lowerHex => exact h
  | upperHex => exact h

end NumberForm

/-- **A numeric reference is decoded to the character it denotes.** Behind
any text and in front of any text, with digits of any number and letters of
either case, it becomes the character whose code the digits denote, if the
code is that of a Unicode scalar value, and stays as it is written if not.
What the digits denote is what they give when they are read into a word of
32 bits, with a failure for what overflows. The texts around it are decoded
as if they stood alone: the scan of the whole is the scan of the one, the
reference, and the scan of the other, so what is decoded is not scanned
again. -/
theorem decodeReferences_numeric (form : NumberForm) {digits : String} (hne : digits ≠ "")
    (hall : ∀ d ∈ digits.toList, form.isDigit d = true) (u v : String) :
    let written := "&" ++ form.mark ++ digits ++ ";"
    let code := denoted form.base digits.toList
    decodeReferences (u ++ written ++ v) = decodeReferences u
        ++ (if code.isValidChar then String.singleton (Char.ofNat code) else written)
        ++ decodeReferences v
    ∧ (readWord form.base digits.toList).bind scalar? = scalar? code
    ∧ ∃ before after, Scans u.toList before ∧ Scans v.toList after
      ∧ Scans (u ++ written ++ v).toList (before
        ++ .reference (.numeric form.base digits.toList) (form.mark.toList ++ digits.toList)
          :: after) := by
  intro written code
  have hspelled := form.spelled (fun h => hne (String.toList_eq_nil_iff.1 h)) hall
  have hcode : numeral form.base digits.toList = code :=
    numeral_eq _ fun d hd => form.isHexDigit_of_isDigit (hall d hd)
  have hwritten : written.toList = '&' :: (form.mark.toList ++ digits.toList ++ [';']) := by
    simp [written]
  have hwhole : (u ++ written ++ v).toList
      = u.toList ++ '&' :: (form.mark.toList ++ digits.toList ++ ';' :: v.toList) := by
    simp [hwritten]
  have hdecoded : (if code.isValidChar then String.singleton (Char.ofNat code)
      else written).toList
        = (Reference.numeric form.base digits.toList).decodeOr written.toList := by
    rw [Reference.decodeOr, Reference.decode, hcode, scalar?]
    split
    · exact String.toList_singleton _
    · rfl
  refine ⟨String.toList_injective ?_, ?_, ?_⟩
  · rw [toList_decodeReferences, hwhole, decodeChars_append_reference hspelled, ← hwritten,
      ← hdecoded, String.toList_append, String.toList_append, toList_decodeReferences,
      toList_decodeReferences]
  · have hbase : 0 < form.base := by cases form <;> decide
    rw [readWord_eq hbase, bind_scalar?, hcode]
  · obtain ⟨before, hu⟩ := exists_scans u.toList
    obtain ⟨after, hv⟩ := exists_scans v.toList
    refine ⟨before, after, hu, hv, ?_⟩
    rw [hwhole]
    exact hu.append (.reference hspelled hv)

/-- The text before ends in half of a reference, and what is decoded, an `&`,
stands in front of the other half of one. -/
theorem decodeReferences_numeric_ampersand :
    "0026" ≠ "" ∧ (∀ d ∈ "0026".toList, NumberForm.upperHex.isDigit d = true)
    ∧ decodeReferences ("&am" ++ ("&" ++ "#X" ++ "0026" ++ ";") ++ "lt;") = "&am&lt;" := by
  have hne : "0026" ≠ "" := by decide
  have hall : ∀ d ∈ "0026".toList, NumberForm.upperHex.isDigit d = true :=
    List.all_eq_true.1 (by decide)
  refine ⟨hne, hall, (decodeReferences_numeric .upperHex hne hall "&am" "lt;").1.trans ?_⟩
  decide +kernel

end PageSlots.Markup
