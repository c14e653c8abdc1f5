import PageSlots.Proofs.Command.Destinations

/-!
# Stems and destinations

A page is named for the stem of the file it comes from. The name is made in
two steps – the stem is joined to the directory, and what results gets the
extension for pages – and the second step takes off an extension that the
stem has itself: `v1.2.md` has the stem `v1.2`, and its page is `v1.html`.
So a destination is told by the stem of the stem (`pageStem?`), and two
files share one exactly if they share that (`samePath_destination_iff`).

With a stem that has no extension both are the same, and these are the only
stems with which the page is the stem with `.html` behind it
(`destination_eq_join_iff`). The stems `.` and `..` are no names at all.
What is joined with them is a path to the directory or to the one around
it, and `withExtension` exchanges the extension of *that* name, if there is
one. And of a stem like `..b` the second step leaves `..`, so its page has
no name either (`pageFile`).
-/

namespace PageSlots.Command

open PageSlots.Files

variable {dir file a b name stem s r : String} {files : List String}

/-- **The stem of the page that a file gets**: what is left of the stem of
the file without an extension of its own. -/
def pageStem? (file : String) : Option String :=
  (fileStem? file).bind fileStem?

/-! ## Where a page is -/

theorem destination_of_stem (h : fileStem? file = some stem) (dir : String) :
    destination dir file = withExtension (join dir stem) "html" := by
  unfold destination
  rw [h]
  rfl

/-- What has a stem is not the directory itself. -/
theorem ne_dot_of_fileStem? (h : fileStem? name = some stem) : name ≠ "." := by
  rintro rfl
  have hnone : fileStem? "." = none := by decide +kernel
  cases hnone.symm.trans h

/-- **The name of a page**: its stem with the extension for pages. A stem `.`
is left of a name that goes up without its extension, and gets no other. -/
def pageFile (stem : String) : String :=
  if stem = "." then ".." else stem ++ "." ++ "html"

theorem dotted_html (stem : String) : stem ++ ".html" = stem ++ "." ++ "html" := by
  rw [String.append_assoc]
  rfl

theorem pageFile_of_ne (h : stem ≠ ".") : pageFile stem = stem ++ ".html" := by
  rw [pageFile, if_neg h, dotted_html]

/-- The name of a page can be joined, if the stem can. -/
theorem joinable_pageFile (h : '/' ∉ stem.toList) :
    pageFile stem ≠ "" ∧ '/' ∉ (pageFile stem).toList := by
  unfold pageFile
  split
  · exact ⟨by decide, by decide⟩
  · exact ⟨mt String.toList_eq_nil_iff.2 (dotted_ne stem "html"),
      slash_notMem_dotted_iff.2 ⟨h, by decide⟩⟩

/-- A page counts. -/
theorem isIdle_pageFile (stem : String) : isIdle (pageFile stem).toList = false := by
  refine isIdle_of_one_lt_length ?_
  unfold pageFile
  split
  · decide
  · rw [toList_dotted, List.length_append]
    exact Nat.lt_add_left _ (by decide)

theorem pageFile_ne_up (h : stem ≠ ".") : (pageFile stem).toList ≠ ['.', '.'] := by
  intro he
  have hlength := congrArg List.length he
  rw [pageFile, if_neg h, toList_dotted, List.length_append] at hlength
  exact absurd hlength (by simp)

theorem pageFile_inj (h : pageFile s = pageFile r) : s = r := by
  by_cases hs : s = "."
  · by_contra hr
    rw [hs] at h hr
    exact pageFile_ne_up (Ne.symm hr) (congrArg String.toList h.symm)
  · by_cases hr : r = "."
    · rw [hr] at h
      exact absurd (congrArg String.toList h) (pageFile_ne_up hs)
    · rw [pageFile, pageFile, if_neg hs, if_neg hr, ← String.toList_inj, toList_dotted,
        toList_dotted] at h
      exact String.toList_inj.1 (List.append_cancel_right h)

/-- **The page of a file** is in the directory, under the name for its
stem. -/
theorem destination_of_pageStem (h : pageStem? file = some stem) (dir : String) :
    destination dir file = join dir (pageFile stem) := by
  obtain ⟨whole, hwhole, hstem⟩ := Option.bind_eq_some_iff.1 h
  obtain ⟨-, hslash⟩ := stem_of_fileStem? hwhole
  rw [destination_of_stem hwhole, pageFile]
  split
  · rename_i hdot
    exact withExtension_join_up hslash (hdot ▸ hstem) "html"
  · rename_i hdot
    exact withExtension_join hslash hstem hdot (by decide)

/-- **A segment that is no name does not get the extension.** Joined to a
directory it leaves the path as it is, or the name of the directory gets
the extension, one level above. -/
theorem withExtension_join_ne (hne : name ≠ "") (hslash : '/' ∉ name.toList)
    (h : fileStem? name = none) (dir : String) :
    withExtension (join dir name) "html" ≠ join dir (name ++ ".html") := by
  rw [dotted_html name]
  have hpage := mt String.toList_eq_nil_iff.2 (dotted_ne name "html")
  have hpageSlash : '/' ∉ (name ++ "." ++ "html").toList :=
    slash_notMem_dotted_iff.2 ⟨hslash, by decide⟩
  obtain ⟨rooted, outer, hjoin⟩ := exists_reversedSegments_join dir
  obtain ⟨-, -, hsegments⟩ := hjoin name hne hslash
  intro he
  cases hname : fileName? (join dir name) with
  | none =>
    rw [withExtension_of_none hname] at he
    have hlength := congrArg (fun text : String => text.toList.length)
      (join_inj hne hpage hslash hpageSlash he)
    rw [toList_dotted, List.length_append] at hlength
    exact absurd hlength (Nat.ne_of_lt (Nat.lt_add_of_pos_right (by decide)))
  | some n =>
    obtain ⟨⟨outer', hcounted⟩, hdot, hup⟩ := fileName?_eq_some_iff.1 hname
    obtain ⟨hidle, idle, -, hsplit⟩ := exists_of_countedSegments hcounted hdot
    -- the name of the path is not the segment, which would be a name of its own
    have hend : reversedSegments (join dir name) ≠ n.toList :: outer' := fun hend => by
      have hn := (List.cons.inj (hsegments.symm.trans hend)).1
      obtain ⟨-, hself⟩ := name_of_reversedSegments (reversedSegments_of_notMem hslash)
        (hn ▸ hidle) (hn ▸ hup)
      unfold fileStem? at h
      rw [hself] at h
      cases h
    obtain ⟨-, hchanged⟩ := reversedSegments_withExtension hcounted hname (.inr hend)
      (by decide : '/' ∉ "html".toList)
    rw [he, (hjoin _ hpage hpageSlash).2.2] at hchanged
    rw [hsegments] at hsplit
    cases idle with
    | nil => exact hend (hsegments.trans hsplit)
    | cons first idle =>
      have hlength := congrArg List.length
        ((List.cons.inj hsplit).2.symm.trans (List.cons.inj hchanged).2)
      rw [List.append_eq, List.length_append, List.length_cons] at hlength
      omega

/-- **A page is named for the stem of its file** exactly if that has no
extension of its own. -/
theorem destination_eq_join_iff (h : fileStem? file = some stem) (dir : String) :
    destination dir file = join dir (stem ++ ".html") ↔ fileStem? stem = some stem := by
  obtain ⟨hne, hslash⟩ := stem_of_fileStem? h
  constructor
  · intro he
    cases hstem : fileStem? stem with
    | none =>
      rw [destination_of_stem h] at he
      exact absurd he (withExtension_join_ne hne hslash hstem dir)
    | some inner =>
      rw [destination_of_pageStem (Option.bind_eq_some_iff.2 ⟨stem, h, hstem⟩),
        ← pageFile_of_ne (ne_dot_of_fileStem? hstem)] at he
      obtain ⟨hpage, hpageSlash⟩ := joinable_pageFile hslash
      obtain ⟨hinner, hinnerSlash⟩ := joinable_pageFile (stem_of_fileStem? hstem).2
      rw [pageFile_inj (join_inj hinner hpage hinnerSlash hpageSlash he)]
  · intro hstem
    rw [destination_of_pageStem (Option.bind_eq_some_iff.2 ⟨stem, h, hstem⟩),
      pageFile_of_ne (ne_dot_of_fileStem? hstem)]

/-- **A page whose stem has no extension keeps its name** when it is rendered
itself. -/
theorem destination_destination (h : pageStem? file = some stem)
    (hself : fileStem? stem = some stem) (dir : String) :
    destination dir (destination dir file) = destination dir file := by
  obtain ⟨hne, hslash⟩ := stem_of_fileStem? hself
  have hdot := ne_dot_of_fileStem? hself
  obtain ⟨hpage, hpageSlash⟩ := joinable_pageFile hslash
  obtain ⟨rooted, outer, hjoin⟩ := exists_reversedSegments_join dir
  obtain ⟨-, hname⟩ := name_of_reversedSegments (hjoin _ hpage hpageSlash).2.2
    (isIdle_pageFile stem) (pageFile_ne_up hdot)
  have hstem : fileStem? (join dir (pageFile stem)) = some stem := by
    have hsplit : splitName (pageFile stem) = (stem, some "html") := by
      rw [pageFile, if_neg hdot]
      exact splitName_append hne (by decide)
    unfold fileStem?
    rw [hname, Option.map_some, hsplit]
  rw [destination_of_pageStem h]
  exact destination_of_pageStem (Option.bind_eq_some_iff.2 ⟨stem, hstem, hself⟩) dir

/-! ## Pages with one file -/

/-- **Two files get the same page** exactly if the stems of their pages are
the same. -/
theorem samePath_destination_iff (ha : pageStem? a = some s) (hb : pageStem? b = some r)
    (dir : String) : samePath (destination dir a) (destination dir b) = true ↔ s = r := by
  have hslash : ∀ {file stem : String}, pageStem? file = some stem → '/' ∉ stem.toList := by
    intro file stem h
    obtain ⟨_, -, hstem⟩ := Option.bind_eq_some_iff.1 h
    exact (stem_of_fileStem? hstem).2
  rw [destination_of_pageStem ha, destination_of_pageStem hb]
  constructor
  · intro h
    obtain ⟨rooted, outer, hjoin⟩ := exists_reversedSegments_join dir
    obtain ⟨hpageA, hslashA⟩ := joinable_pageFile (hslash ha)
    obtain ⟨hpageB, hslashB⟩ := joinable_pageFile (hslash hb)
    have hcountedA := countedSegments_of_cons (hjoin _ hpageA hslashA).2.2 (isIdle_pageFile s)
    have hcountedB := countedSegments_of_cons (hjoin _ hpageB hslashB).2.2 (isIdle_pageFile r)
    exact pageFile_inj (String.toList_inj.1
      (eq_of_samePath hcountedA hcountedB (isIdle_pageFile s) (isIdle_pageFile r) h))
  · rintro rfl
    exact samePath_refl _

/-- Pages get different files exactly if their stems are different. -/
theorem distinct_iff_nodup (h : ∀ file ∈ files, ∃ stem, pageStem? file = some stem)
    (dir : String) : Distinct dir files ↔ (files.map pageStem?).Nodup := by
  have hpair : ∀ {a b : String}, a ∈ files → b ∈ files →
      (samePath (destination dir a) (destination dir b) = false ↔ pageStem? a ≠ pageStem? b) := by
    intro a b ha hb
    obtain ⟨s, hs⟩ := h a ha
    obtain ⟨r, hr⟩ := h b hb
    rw [hs, hr, ← Bool.not_eq_true, samePath_destination_iff hs hr, Ne, Option.some.injEq]
  unfold Distinct
  rw [List.Nodup, List.pairwise_map]
  exact ⟨fun hd => hd.imp_of_mem fun ha hb => (hpair ha hb).1,
    fun hd => hd.imp_of_mem fun ha hb => (hpair ha hb).2⟩

/-- **Files are rejected** exactly if two of them get the same page. -/
theorem exists_destinations_eq_error_iff :
    (∃ fault, destinations dir files = .error fault) ↔ ¬ Distinct dir files := by
  constructor
  · rintro ⟨fault, hfault⟩ hdistinct
    cases hfault.symm.trans (destinations_eq_ok_iff.2 ⟨hdistinct, rfl⟩)
  · intro hdistinct
    obtain ⟨first, second, -, he⟩ := exists_collide hdistinct
    exact ⟨_, he⟩

/-- **What pages are named for.** A file gets the page under its stem with
`.html` behind it, in the directory for pages, exactly if the stem has no
extension of its own; otherwise that is taken off too. Where `.` is left of
the stem, the page gets no name, and its path is that of the directory
above. Files whose pages have stems are rejected exactly if two of these are
equal – with stems without an extension, exactly if two of the stems are. -/
theorem destination_names (dir : String) :
    (∀ file stem, fileStem? file = some stem →
      (destination dir file = join dir (stem ++ ".html") ↔ fileStem? stem = some stem))
    ∧ (∀ file stem inner, fileStem? file = some stem → fileStem? stem = some inner →
      inner ≠ "." → destination dir file = join dir (inner ++ ".html"))
    ∧ (∀ file stem, fileStem? file = some stem → fileStem? stem = some "." →
      destination dir file = join dir "..")
    ∧ (∀ files, (∀ file ∈ files, ∃ stem, pageStem? file = some stem) →
      ((∃ fault, destinations dir files = .error fault) ↔ ¬ (files.map pageStem?).Nodup))
    ∧ ∀ files, (∀ file ∈ files, ∃ stem, fileStem? file = some stem ∧ fileStem? stem = some stem) →
      ((∃ fault, destinations dir files = .error fault) ↔ ¬ (files.map fileStem?).Nodup) := by
  have hpage : ∀ {file stem inner}, fileStem? file = some stem → fileStem? stem = some inner →
      destination dir file = join dir (pageFile inner) := fun {file stem inner} h hinner =>
    destination_of_pageStem (Option.bind_eq_some_iff.2 ⟨stem, h, hinner⟩) dir
  have hlists : ∀ files, (∀ file ∈ files, ∃ stem, pageStem? file = some stem) →
      ((∃ fault, destinations dir files = .error fault) ↔ ¬ (files.map pageStem?).Nodup) := by
    intro files h
    rw [exists_destinations_eq_error_iff, distinct_iff_nodup h]
  refine ⟨fun file stem h => destination_eq_join_iff h dir, fun file stem inner h hinner hne => ?_,
    fun file stem h hup => hpage h hup, hlists, fun files h => ?_⟩
  · rw [hpage h hinner, pageFile_of_ne hne]
  · have hsame : files.map fileStem? = files.map pageStem? := by
      refine List.map_congr_left fun file hfile => ?_
      obtain ⟨stem, hstem, hself⟩ := h file hfile
      rw [pageStem?, hstem, Option.bind_some, hself]
    rw [hsame]
    refine hlists files fun file hfile => ?_
    obtain ⟨stem, hstem, hself⟩ := h file hfile
    exact ⟨stem, Option.bind_eq_some_iff.2 ⟨stem, hstem, hself⟩⟩

/-- A stem without an extension, one with an extension, one that goes up
without its extension, and two files with one stem in different
directories. -/
theorem destination_names_guide :
    fileStem? "docs/guide.md" = some "guide" ∧ fileStem? "guide" = some "guide"
    ∧ destination "site" "docs/guide.md" = join "site" ("guide" ++ ".html")
    ∧ fileStem? "v1.2.md" = some "v1.2" ∧ fileStem? "v1.2" = some "v1"
    ∧ destination "site" "v1.2.md" = join "site" ("v1" ++ ".html")
    ∧ fileStem? "..b.md" = some "..b" ∧ fileStem? "..b" = some "."
    ∧ destination "site" "..b.md" = join "site" ".."
    ∧ ∃ fault, destinations "site" ["a/index.md", "b/index.md"] = .error fault := by
  obtain ⟨hplain, hinner, hup, -, hlists⟩ := destination_names "site"
  have hguide : fileStem? "docs/guide.md" = some "guide" := by decide +kernel
  have hself : fileStem? "guide" = some "guide" := by decide +kernel
  have hversion : fileStem? "v1.2.md" = some "v1.2" := by decide +kernel
  have houter : fileStem? "v1.2" = some "v1" := by decide +kernel
  have hdots : fileStem? "..b.md" = some "..b" := by decide +kernel
  have hdot : fileStem? "..b" = some "." := by decide +kernel
  refine ⟨hguide, hself, (hplain _ _ hguide).2 hself, hversion, houter,
    hinner _ _ _ hversion houter (by decide), hdots, hdot, hup _ _ hdots hdot,
    (hlists _ fun file hfile => ⟨"index", ?_⟩).2 ?_⟩
  · have hindex : fileStem? "index" = some "index" := by decide +kernel
    have hstems : ∀ file ∈ ["a/index.md", "b/index.md"], fileStem? file = some "index" := by
      decide +kernel
    exact ⟨hstems file hfile, hindex⟩
  · decide +kernel

/-- **A page need not be named for the stem of its file**, and files with
different stems can be rejected: what follows a dot in the stem is taken off
like an extension. -/
theorem exists_destination_ne_join_stem :
    (fileStem? "v1.2.md" = some "v1.2"
      ∧ destination "site" "v1.2.md" ≠ join "site" ("v1.2" ++ ".html"))
    ∧ (["a.b.md", "a.c.md"].map fileStem? = [some "a.b", some "a.c"]
      ∧ ∃ fault, destinations "site" ["a.b.md", "a.c.md"] = .error fault) := by
  refine ⟨⟨by decide +kernel, by decide +kernel⟩, by decide +kernel, ?_⟩
  refine exists_destinations_eq_error_iff.2 ?_
  unfold Distinct
  decide +kernel

end PageSlots.Command
