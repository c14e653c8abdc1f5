import PageSlots.Text.Alphanumeric
import PageSlots.Text.Blank
import PageSlots.Text.LowerCase

/-!
# Lower case among letters and numbers

Two facts about all characters are needed where texts are lower-cased. A
blank is no letter and no number (`isAlphanumeric_of_isBlank`), so the two
tables do not compete for a character. And the lower-case form of a letter or
number is a single letter or number again, which has no other lower-case form
than itself – except for `İ`, which becomes an `i` and a combining dot
(`toLower_cases`).

The second fact is about some fourteen hundred characters that change, and it
is read off the tables without a look at each of them. A run of the mapping
goes to code points with the same step between them. That these lie in the
ranges of a set is told in one pass over the ranges (`CharSet.holdsRun`). That
they keep out of another run is told by the ends of the two, and by a
remainder where they run through each other, as capitals and small letters do
that take turns (`CaseRun.avoids`).
-/

namespace PageSlots.Text

variable {code k : Nat} {c : Char}

/-! ## Runs in a set -/

/-- Whether the code points `low`, `low + step`, … up to `high` all lie in
ranges. A range that does not hold them all is left behind with the last code
point that it holds. -/
def CharSet.holdsRun (high step : Nat) : Nat → List (Nat × Nat) → Bool
  | _, [] => false
  | low, (first, last) :: ranges =>
    Nat.ble first low &&
      bif Nat.ble high last then true
      else bif Nat.blt last low then holdsRun high step low ranges
      else holdsRun high step (low + ((last - low) / step + 1) * step) ranges

/-- **Each code point of such a run is held.** -/
theorem CharSet.holds_of_holdsRun {low high step : Nat} {ranges : List (Nat × Nat)}
    (h : holdsRun high step low ranges = true)
    (hk : low + k * step ≤ high) : holds (low + k * step) ranges = true := by
  induction ranges generalizing low k with
  | nil => cases h
  | cons range ranges ih =>
    obtain ⟨first, last⟩ := range
    simp only [holdsRun, Bool.and_eq_true, Bool.cond_eq_ite, Nat.ble_eq, Nat.blt_eq] at h
    obtain ⟨hfirst, h⟩ := h
    rw [holds, if_neg (Nat.not_lt_of_le (Nat.le_trans hfirst (Nat.le_add_right low _)))]
    by_cases hlast : low + k * step ≤ last
    · rw [if_pos hlast]
    · rw [if_neg hlast]
      rw [if_neg fun hhigh => hlast (Nat.le_trans hk hhigh)] at h
      by_cases hlow : last < low
      · rw [if_pos hlow] at h
        exact ih h hk
      · rw [if_neg hlow] at h
        -- the code point lies beyond the range, so it belongs to what is left of the run
        have hsteps : (last - low) / step < k := Nat.div_lt_of_lt_mul (by rw [Nat.mul_comm]; omega)
        obtain ⟨j, rfl⟩ := Nat.exists_eq_add_of_lt hsteps
        have hrest : low + ((last - low) / step + j + 1) * step
            = low + ((last - low) / step + 1) * step + j * step := by
          rw [Nat.add_right_comm, Nat.add_mul _ j, Nat.add_assoc]
        rw [hrest] at hk ⊢
        exact ih h hk

/-- A blank is no letter and no number. -/
theorem isAlphanumeric_of_isBlank (h : isBlank c = true) : isAlphanumeric c = false := by
  obtain ⟨range, hrange, hfirst, hlast⟩ := CharSet.exists_range_of_holds h
  have hall : ∀ range ∈ blanks.ranges, ∀ k ∈ List.range' range.1 (range.2 + 1 - range.1),
      CharSet.holds k alphanumerics.ranges = false := by decide +kernel
  exact hall range hrange c.toNat (List.mem_range'_1.2 ⟨hfirst, by omega⟩)

/-! ## Where a run goes -/

namespace CaseRun

variable {r s : CaseRun}

/-- The code point that the first of the run goes to. -/
def low (r : CaseRun) : Nat := (r.first + r.shift).toNat

/-- The code point that the last of the run goes to. -/
def high (r : CaseRun) : Nat := (r.last + r.shift).toNat

/-- **A run goes to a run**, with the same step. -/
theorem exists_target (h : r.covers code = true) (hshift : 0 ≤ r.first + r.shift) :
    ∃ k, (code + r.shift).toNat = r.low + k * r.step ∧ r.low + k * r.step ≤ r.high := by
  simp only [covers, Bool.and_eq_true, decide_eq_true_eq, beq_iff_eq] at h
  obtain ⟨⟨hfirst, hlast⟩, hstep⟩ := h
  have hk : (code - r.first) / r.step * r.step = code - r.first :=
    Nat.div_mul_cancel (Nat.dvd_of_mod_eq_zero hstep)
  refine ⟨(code - r.first) / r.step, ?_⟩
  rw [hk, low, high]
  omega

/-- Whether the code points that a run goes to keep out of another run: they
stand before it or behind it, or they have another remainder. -/
def avoids (r s : CaseRun) : Bool :=
  Nat.blt s.last r.low || Nat.blt r.high s.first
    || Nat.ble s.first r.low && (r.low - s.first) % s.step != 0
      && (r.step % s.step == 0 || Nat.beq r.low r.high)

theorem covers_of_avoids (h : r.avoids s = true) (hk : r.low + k * r.step ≤ r.high) :
    s.covers (r.low + k * r.step) = false := by
  simp only [avoids, Bool.or_eq_true, Bool.and_eq_true, Nat.blt_eq, Nat.ble_eq, bne_iff_ne,
    beq_iff_eq, Nat.beq_eq] at h
  rw [covers, Bool.and_eq_false_iff, Bool.and_eq_false_iff]
  rcases h with (hbehind | hbefore) | ⟨⟨hfirst, hrest⟩, hstep⟩
  · exact .inl (.inr (decide_eq_false (by omega)))
  · exact .inl (.inl (decide_eq_false (by omega)))
  · refine .inr (beq_eq_false_iff_ne.2 ?_)
    -- going on by whole steps does not change the remainder
    have hdvd : s.step ∣ k * r.step := by
      rcases hstep with hstep | hone
      · exact Nat.dvd_mul_left_of_dvd (Nat.dvd_of_mod_eq_zero hstep) k
      · rw [show k * r.step = 0 by omega]
        exact Nat.dvd_zero _
    obtain ⟨j, hj⟩ := hdvd
    rw [hj, Nat.sub_add_comm hfirst, Nat.add_mul_mod_self_left]
    exact hrest

/-- **A run that settles in a set**: it goes to members of the set that the
mapping leaves alone. -/
structure Settles (r : CaseRun) (m : CaseMap) (s : CharSet) : Prop where
  /-- The run does not reach below zero. -/
  shift : 0 ≤ r.first + r.shift
  /-- It goes to characters, and not to surrogates. -/
  valid : r.high < 0xD800 ∨ 0xDFFF < r.low ∧ r.high < 0x110000
  /-- They belong to the set. -/
  inside : CharSet.holdsRun r.high r.step r.low s.ranges = true
  /-- No run covers them. -/
  avoids : ∀ other ∈ m.runs, r.avoids other = true
  /-- None maps to several characters. -/
  single : ∀ e ∈ m.expansions, e.1 < r.low ∨ r.high < e.1

/-- **What a settled run moves** stays where it is moved to. -/
theorem Settles.apply_move {m : CaseMap} {s : CharSet} (h : r.Settles m s)
    (hc : r.covers code = true) :
    s.contains (r.move code) = true ∧ m.apply (r.move code) = [r.move code] := by
  obtain ⟨k, hcode, hk⟩ := exists_target hc h.shift
  have htarget : (r.move code).toNat = r.low + k * r.step := by
    have hvalid : (r.low + k * r.step).isValidChar := by
      rcases h.valid with hlow | ⟨hlow, hhigh⟩
      · exact .inl (by omega)
      · exact .inr ⟨by omega, by omega⟩
    rw [move, hcode, Char.ofNat, dif_pos hvalid]
    rfl
  refine ⟨?_, ?_⟩
  · rw [CharSet.contains, htarget]
    exact CharSet.holds_of_holdsRun h.inside hk
  · have hexpansions : m.expansions.find? (·.1 == (r.move code).toNat) = none := by
      refine List.find?_eq_none.2 fun e he => ?_
      have := h.single e he
      rw [beq_iff_eq, htarget]
      omega
    have hruns : m.runs.find? (·.covers (r.move code).toNat) = none := by
      refine List.find?_eq_none.2 fun other hother => ?_
      rw [htarget, covers_of_avoids (h.avoids other hother) hk]
      exact Bool.false_ne_true
    rw [CaseMap.apply, hexpansions, hruns]

end CaseRun

/-- **Every run of the lower-case mapping settles** among the letters and
numbers. -/
theorem settles_of_mem_lowerCase {r : CaseRun} (hr : r ∈ lowerCase.runs) :
    r.Settles lowerCase alphanumerics := by
  have hshift : ∀ r ∈ lowerCase.runs, 0 ≤ r.first + r.shift := by decide +kernel
  have hvalid : ∀ r ∈ lowerCase.runs, r.high < 0xD800 ∨ 0xDFFF < r.low ∧ r.high < 0x110000 := by
    decide +kernel
  have hinside : lowerCase.runs.all
      (fun r => CharSet.holdsRun r.high r.step r.low alphanumerics.ranges) = true := by
    decide +kernel
  have havoids : lowerCase.runs.all (fun r => lowerCase.runs.all r.avoids) = true := by
    decide +kernel
  have hsingle : ∀ r ∈ lowerCase.runs, ∀ e ∈ lowerCase.expansions, e.1 < r.low ∨ r.high < e.1 := by
    decide +kernel
  exact ⟨hshift r hr, hvalid r hr, List.all_eq_true.1 hinside r hr,
    List.all_eq_true.1 (List.all_eq_true.1 havoids r hr), hsingle r hr⟩

/-! ## Letters and numbers in lower case -/

/-- **A letter or number that lower-casing leaves alone.** -/
def IsLowered (c : Char) : Prop :=
  isAlphanumeric c = true ∧ toLower c = [c]

/-- The one character with a lower-case form of two characters. -/
theorem toLower_dotted : toLower 'İ' = ['i', '\u0307'] := by decide +kernel

/-- The dot that it leaves is neither a letter nor a number. -/
theorem isAlphanumeric_dot : isAlphanumeric '\u0307' = false := by decide +kernel

theorem not_isLowered_dot : ¬ IsLowered '\u0307' := fun h =>
  Bool.false_ne_true (isAlphanumeric_dot.symm.trans h.1)

/-- **The lower-case form of a letter or number** is one that lower-casing
leaves alone, unless it is `İ`. -/
theorem toLower_cases (h : isAlphanumeric c = true) :
    c = 'İ' ∨ ∃ d, toLower c = [d] ∧ IsLowered d := by
  have happly : toLower c = lowerCase.apply c := rfl
  rw [CaseMap.apply] at happly
  split at happly
  · rename_i hfind
    refine .inl (Char.toNat_inj.1 ?_)
    have hcode := List.mem_of_find?_eq_some hfind
    have heq := List.find?_some hfind
    rw [List.mem_singleton.1 hcode] at heq
    exact (beq_iff_eq.1 heq).symm
  · right
    split at happly
    · rename_i r hfind
      have hcovers := List.find?_some hfind
      exact ⟨_, happly,
        (settles_of_mem_lowerCase (List.mem_of_find?_eq_some hfind)).apply_move hcovers⟩
    · exact ⟨c, happly, h, happly⟩

end PageSlots.Text
