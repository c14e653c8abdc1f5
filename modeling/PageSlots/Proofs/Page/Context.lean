import Mathlib.Data.List.Nodup
import PageSlots.Page.Context

/-!
# New ids

The candidates of a slug are pairwise different, so among one more
candidates than there are used ids one is unused. The search for a suffix
looks at as many, so the id it ends with is new
(`exists_uniqueHeadingId`), whatever ids there are – also ids that look
like a slug with a suffix.
-/

namespace PageSlots.Page

variable {base text id : String} {used : List String} {ctx : Context}

/-- Different suffixes make different candidates. -/
theorem candidate_injective (base : String) : Function.Injective (candidate base) := by
  have hsuffix : ∀ k, candidate base (k + 1) ≠ base := fun k he => by
    have hlen := congrArg String.length he
    rw [candidate, String.length_append, String.length_append] at hlen
    have : "-".length = 1 := rfl
    omega
  intro i j he
  match i, j with
  | 0, 0 => rfl
  | 0, j + 1 => exact absurd he.symm (hsuffix j)
  | i + 1, 0 => exact absurd he (hsuffix i)
  | i + 1, j + 1 =>
    have hlist := congrArg String.toList he
    simp only [candidate, String.toList_append] at hlist
    have hdigits : Nat.toDigits 10 (i + 1) = Nat.toDigits 10 (j + 1) := by
      have hsuffix := List.append_cancel_left hlist
      rwa [Nat.toString_eq_repr, Nat.toString_eq_repr, Nat.toList_repr, Nat.toList_repr] at hsuffix
    have hread := congrArg (Nat.ofDigitChars 10 · 0) hdigits
    rwa [Nat.ofDigitChars_toDigits (by decide) (by decide),
      Nat.ofDigitChars_toDigits (by decide) (by decide)] at hread

/-- The search ends with a used candidate only if all it has looked at are
used. -/
theorem mem_of_firstFree_mem {attempts : Nat} :
    ∀ {k : Nat}, candidate base (firstFree used base k attempts) ∈ used →
      ∀ i < attempts, candidate base (k + i) ∈ used := by
  induction attempts with
  | zero => exact fun _ i hi => absurd hi (Nat.not_lt_zero i)
  | succ attempts ih =>
    intro k h i hi
    rw [firstFree] at h
    by_cases hk : candidate base k ∈ used
    · rw [if_pos (List.contains_iff_mem.2 hk)] at h
      cases i with
      | zero => exact hk
      | succ i =>
        rw [Nat.add_comm i 1, ← Nat.add_assoc]
        exact ih h i (Nat.lt_of_succ_lt_succ hi)
    · rw [if_neg fun hc => hk (List.contains_iff_mem.1 hc)] at h
      exact absurd h hk

/-- **The search ends with an unused candidate** after one attempt more
than there are used ids. -/
theorem candidate_firstFree_notMem (used : List String) (base : String) (k : Nat) :
    candidate base (firstFree used base k (used.length + 1)) ∉ used := by
  intro h
  have hall := mem_of_firstFree_mem h
  have hnodup : ((List.range (used.length + 1)).map fun i => candidate base (k + i)).Nodup :=
    List.Nodup.map (fun i j he => Nat.add_left_cancel (candidate_injective base he))
      List.nodup_range
  have hsub : ((List.range (used.length + 1)).map fun i => candidate base (k + i)) ⊆ used := by
    intro c hc
    obtain ⟨i, hi, rfl⟩ := List.mem_map.1 hc
    exact hall i (List.mem_range.1 hi)
  have hlen := List.Nodup.length_le_of_subset hnodup hsub
  rw [List.length_map, List.length_range] at hlen
  exact Nat.not_succ_le_self _ hlen

namespace Context

/-- A text without a slug gives no id. -/
theorem uniqueHeadingId_of_slug_eq (h : slug text = "") :
    ctx.uniqueHeadingId text = (none, ctx) := by
  unfold uniqueHeadingId
  rw [h]
  rfl

/-- **A text with a slug gives a new candidate of the slug**, which is
remembered. -/
theorem exists_uniqueHeadingId (ctx : Context) (h : slug text ≠ "") :
    ∃ k context, ctx.uniqueHeadingId text = (some (candidate (slug text) k), context)
      ∧ candidate (slug text) k ∉ ctx.usedIds
      ∧ context.usedIds = candidate (slug text) k :: ctx.usedIds := by
  unfold uniqueHeadingId
  dsimp only
  rw [if_neg (by rwa [String.isEmpty_iff])]
  exact ⟨_, _, rfl, candidate_firstFree_notMem _ _ _, rfl⟩

/-- An id that is registered is remembered, with the others. -/
theorem usedIds_registerHeadingId (ctx : Context) (id : String) :
    id ∈ (ctx.registerHeadingId id).2.usedIds
      ∧ ctx.usedIds ⊆ (ctx.registerHeadingId id).2.usedIds := by
  unfold registerHeadingId
  by_cases h : id ∈ ctx.usedIds
  · rw [if_pos (List.contains_iff_mem.2 h)]
    exact ⟨h, List.Subset.refl _⟩
  · rw [if_neg fun hc => h (List.contains_iff_mem.1 hc)]
    exact ⟨List.mem_cons_self, List.subset_cons_self _ _⟩

end Context

end PageSlots.Page
