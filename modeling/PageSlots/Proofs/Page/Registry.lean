import PageSlots.Proofs.Page.Context

/-!
# The registry of ids

A slug that has been given an id is not tried from the start again: the
context remembers the number after the one it was given. That this is no
shortcut past a free id is an invariant of the registry – every candidate
of a slug below the remembered number is taken (`Registry.taken_of_lt`) –
and it survives because ids are never given back, so a candidate that was
taken stays so.

The search itself knows no bound: it tries the candidates one after the
other until one is unused (`Finds`), and there is one since different
numbers make different candidates. With the invariant the search from the
remembered number and the search from the slug itself end at the same
candidate (`uniqueHeadingId_eq_naive`), for every sequence of requests and
also where one slug looks like another with a suffix.
-/

namespace PageSlots.Page

variable {used taken : List String} {base : String} {i j k : Nat} {ctx : Context}

/-! ## The search -/

/-- **The search for an unused candidate** from a number on: it ends there
if the candidate is unused, and goes on with the next number if not. -/
inductive Finds (used : List String) (base : String) : Nat → Nat → Prop
  | here {k : Nat} : candidate base k ∉ used → Finds used base k k
  | next {k j : Nat} : candidate base k ∈ used → Finds used base (k + 1) j → Finds used base k j

theorem Finds.notMem (h : Finds used base k j) : candidate base j ∉ used := by
  induction h with
  | here hfree => exact hfree
  | next _ _ ih => exact ih

/-- **What the search passes is used.** -/
theorem Finds.mem (h : Finds used base k j) (hk : k ≤ i) (hi : i < j) :
    candidate base i ∈ used := by
  induction h with
  | here => exact absurd hi (Nat.not_lt_of_le hk)
  | next hused _ ih =>
    rcases Nat.eq_or_lt_of_le hk with rfl | hlt
    · exact hused
    · exact ih hlt hi

/-- Attempts that end with an unused candidate are the search. -/
theorem finds_firstFree {attempts : Nat}
    (h : candidate base (firstFree used base k attempts) ∉ used) :
    Finds used base k (firstFree used base k attempts) := by
  induction attempts generalizing k with
  | zero => exact .here h
  | succ attempts ih =>
    rw [firstFree] at h ⊢
    by_cases hk : candidate base k ∈ used
    · rw [if_pos (List.contains_iff_mem.2 hk)] at h ⊢
      exact .next hk (ih h)
    · rw [if_neg fun hc => hk (List.contains_iff_mem.1 hc)]
      exact .here hk

/-! ## Requests -/

/-- **What the registry is asked for.** -/
inductive IdRequest where
  /-- A new id for a heading with a text. -/
  | generate (text : String)
  /-- An id that the author wrote. -/
  | register (id : String)

namespace Context

/-- The context after a request. -/
def serve (ctx : Context) : IdRequest → Context
  | .generate text => (ctx.uniqueHeadingId text).2
  | .register id => (ctx.registerHeadingId id).2

/-- The id that a request returns or registers. -/
def idOf? (ctx : Context) : IdRequest → Option String
  | .generate text => (ctx.uniqueHeadingId text).1
  | .register id => some id

/-- The context after requests, one after the other. -/
def serveAll (ctx : Context) (requests : List IdRequest) : Context :=
  requests.foldl serve ctx

/-- **The ids that requests return or register**, in order. -/
def idsOf (ctx : Context) : List IdRequest → List String
  | [] => []
  | request :: requests => (ctx.idOf? request).toList ++ (ctx.serve request).idsOf requests

/-- What is remembered for other slugs stays. -/
theorem lookup_filter_ne {other : String} (h : other ≠ base) (counts : List (String × Nat)) :
    (counts.filter (·.1 ≠ base)).lookup other = counts.lookup other := by
  induction counts with
  | nil => rfl
  | cons entry counts ih =>
    obtain ⟨key, n⟩ := entry
    by_cases hkey : key = base
    · rw [List.filter_cons_of_neg (by simpa using hkey), ih, List.lookup_cons,
        beq_eq_false_iff_ne.2 fun he => h (he.trans hkey)]
    · rw [List.filter_cons_of_pos (by simpa using hkey), List.lookup_cons, List.lookup_cons, ih]

/-- **What is remembered for a slug is read back**, and no other slug is
touched. -/
theorem count_remember {counts : List (String × Nat)}
    (h : ctx.counts = (base, k) :: counts.filter (·.1 ≠ base)) (other : String) :
    ctx.count other = if other = base then k else (counts.lookup other).getD 0 := by
  rw [count, h]
  by_cases hother : other = base
  · rw [if_pos hother, List.lookup_cons, beq_iff_eq.2 hother]
    rfl
  · rw [if_neg hother, List.lookup_cons, beq_eq_false_iff_ne.2 hother, lookup_filter_ne hother]

/-- **A text with a slug is given the candidate that the search finds**,
and the next search starts after it. -/
theorem exists_finds_uniqueHeadingId (ctx : Context) {text : String} (h : slug text ≠ "") :
    ∃ k, Finds ctx.usedIds (slug text) (ctx.count (slug text)) k
      ∧ ctx.uniqueHeadingId text = (some (candidate (slug text) k), { ctx with
          usedIds := candidate (slug text) k :: ctx.usedIds
          counts := (slug text, k + 1) :: ctx.counts.filter (·.1 ≠ slug text) }) := by
  unfold uniqueHeadingId
  dsimp only
  rw [if_neg (by rwa [String.isEmpty_iff])]
  exact ⟨_, finds_firstFree (candidate_firstFree_notMem _ _ _), rfl⟩

/-! ## The invariant -/

/-- **The registry is in order**: the used ids are those that are taken,
and a slug has no free candidate below the number remembered for it. -/
structure Registry (taken : List String) (ctx : Context) : Prop where
  mem_usedIds_iff : ∀ id, id ∈ ctx.usedIds ↔ id ∈ taken
  taken_of_lt : ∀ base, ∀ k < ctx.count base, candidate base k ∈ taken

/-- In a new context no id is taken. -/
theorem registry_new (file : String) : Registry [] { file } :=
  ⟨fun _ => .rfl, fun _ _ hk => absurd hk (Nat.not_lt_zero _)⟩

/-- **The search from the remembered number passes no free candidate.** -/
theorem Registry.mem_of_finds (h : Registry taken ctx)
    (hk : Finds ctx.usedIds base (ctx.count base) k) (hj : j < k) : candidate base j ∈ taken := by
  by_cases hc : j < ctx.count base
  · exact h.taken_of_lt base j hc
  · exact (h.mem_usedIds_iff _).1 (hk.mem (Nat.le_of_not_lt hc) hj)

/-- **A request keeps the registry in order.** -/
theorem Registry.serve (h : Registry taken ctx) (request : IdRequest) :
    Registry (taken ++ (ctx.idOf? request).toList) (ctx.serve request) := by
  cases request with
  | generate text =>
    rw [Context.serve, idOf?]
    by_cases hs : slug text = ""
    · rw [uniqueHeadingId_of_slug_eq hs, Option.toList_none, List.append_nil]
      exact h
    · obtain ⟨k, hk, hgiven⟩ := exists_finds_uniqueHeadingId ctx hs
      rw [hgiven, Option.toList_some]
      refine ⟨fun id => ?_, fun base j hj => ?_⟩
      · rw [List.mem_cons, h.mem_usedIds_iff, List.mem_append, List.mem_singleton, or_comm]
      · rw [count_remember rfl] at hj
        split at hj
        · -- below the new number stands the given candidate, with those the search has passed
          rename_i hbase
          rw [hbase]
          rcases Nat.eq_or_lt_of_le (Nat.le_of_lt_succ hj) with rfl | hlt
          · exact List.mem_append_right _ List.mem_cons_self
          · exact List.mem_append_left _ (h.mem_of_finds hk hlt)
        · exact List.mem_append_left _ (h.taken_of_lt base j hj)
  | register id =>
    rw [Context.serve, idOf?, Option.toList_some]
    have hcount : ∀ base, (ctx.registerHeadingId id).2.count base = ctx.count base := by
      intro base
      unfold registerHeadingId
      split <;> rfl
    refine ⟨fun other => ?_, fun base j hj => ?_⟩
    · rw [List.mem_append, List.mem_singleton, ← h.mem_usedIds_iff]
      unfold registerHeadingId
      split
      · rename_i hused
        refine ⟨.inl, ?_⟩
        rintro (hother | rfl)
        · exact hother
        · exact List.contains_iff_mem.1 hused
      · rw [List.mem_cons, or_comm]
    · rw [hcount] at hj
      exact List.mem_append_left _ (h.taken_of_lt base j hj)

/-- **Requests keep the registry in order.** -/
theorem Registry.serveAll (h : Registry taken ctx) (requests : List IdRequest) :
    Registry (taken ++ ctx.idsOf requests) (ctx.serveAll requests) := by
  induction requests generalizing taken ctx with
  | nil =>
    rw [idsOf, List.append_nil]
    exact h
  | cons request requests ih =>
    rw [idsOf, ← List.append_assoc]
    exact ih (h.serve request)

/-- **The registry answers as if it searched from the start.** After any
requests to a new context, with the ids that these have returned or
registered: a text without a slug gets no id and changes nothing; any other
text gets the first of the slug and the slug with `-1`, `-2`, … that is not
among the ids, and the search from the remembered number ends there; and an
id is registered as new exactly if it is not among them. -/
theorem uniqueHeadingId_eq_naive (file : String) (requests : List IdRequest) :
    let ctx := ({ file } : Context).serveAll requests
    let taken := ({ file } : Context).idsOf requests
    (∀ text, slug text = "" → ctx.uniqueHeadingId text = (none, ctx))
    ∧ (∀ text, slug text ≠ "" → ∃ k,
        (ctx.uniqueHeadingId text).1 = some (candidate (slug text) k)
        ∧ candidate (slug text) k ∉ taken
        ∧ (∀ j < k, candidate (slug text) j ∈ taken)
        ∧ Finds ctx.usedIds (slug text) (ctx.count (slug text)) k)
    ∧ ∀ id, (ctx.registerHeadingId id).1 = true ↔ id ∉ taken := by
  intro ctx taken
  have hregistry : Registry taken ctx := (registry_new file).serveAll requests
  refine ⟨fun text hs => uniqueHeadingId_of_slug_eq hs, fun text hs => ?_, fun id => ?_⟩
  · obtain ⟨k, hk, hgiven⟩ := exists_finds_uniqueHeadingId ctx hs
    have hfree : candidate (slug text) k ∉ taken := fun hm =>
      hk.notMem ((hregistry.mem_usedIds_iff _).2 hm)
    exact ⟨k, congrArg Prod.fst hgiven, hfree, fun j hj => hregistry.mem_of_finds hk hj, hk⟩
  · rw [← hregistry.mem_usedIds_iff]
    unfold registerHeadingId
    split
    · rename_i hused
      exact ⟨nofun, fun hfree => absurd (List.contains_iff_mem.1 hused) hfree⟩
    · rename_i hfree
      exact ⟨fun _ hm => hfree (List.contains_iff_mem.2 hm), fun _ => rfl⟩

/-- A heading whose slug looks like another with a suffix, and an id by the
author that looks like the next one. -/
theorem uniqueHeadingId_eq_naive_suffixed :
    let requests := [.generate "A", .generate "A 1", .register "a-2"]
    let ctx := ({ file := "page.md" } : Context).serveAll requests
    slug "A" ≠ "" ∧ ({ file := "page.md" } : Context).idsOf requests = ["a", "a-1", "a-2"]
    ∧ (ctx.uniqueHeadingId "A").1 = some "a-3" := by
  intro requests ctx
  have hslug : slug "A" = "a" := by decide +kernel
  have hne : slug "A" ≠ "" := by
    rw [hslug]
    decide
  have htaken : ({ file := "page.md" } : Context).idsOf requests = ["a", "a-1", "a-2"] := by
    decide +kernel
  obtain ⟨-, hgenerate, -⟩ := uniqueHeadingId_eq_naive "page.md" requests
  obtain ⟨k, hgiven, hfree, hbelow, -⟩ := hgenerate "A" hne
  rw [htaken, hslug] at hfree hbelow
  -- the candidates 0, 1 and 2 are taken, and candidate 3 is not
  have hk : k = 3 := by
    have hthree : candidate "a" 3 ∉ ["a", "a-1", "a-2"] := by decide +kernel
    have hsmall : ∀ j < 3, candidate "a" j ∈ ["a", "a-1", "a-2"] := by decide +kernel
    rcases Nat.lt_trichotomy k 3 with hlt | heq | hgt
    · exact absurd (hsmall k hlt) hfree
    · exact heq
    · exact absurd (hbelow 3 hgt) hthree
  refine ⟨hne, htaken, ?_⟩
  rw [hgiven, hslug, hk]
  decide +kernel

end Context

end PageSlots.Page
