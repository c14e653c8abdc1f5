import PageSlots.Command.Render
import PageSlots.Proofs.Files.Extension
import PageSlots.Proofs.Files.FileTree

/-!
# Destinations

The files that pages get are settled before any page is read. Either no
two pages get the same one, and every page gets its own, in order
(`destinations_eq_ok_iff`); or the earliest two that do are reported
(`destinations_eq_error`).

That the paths are different is not yet that the files are: `out/../a`
and `a` are different paths. The destinations of one run are told apart in
the same directory, so of two different ones, both outside of directories,
neither stands where the other does (`locate_ne_of_distinct`). The stem
`.` is the one that needs care. What is joined to it counts for the
directory itself, and its file stands beside that directory, one level
above all others. With the stem `..`, and with one like `..b`, of which
that is left, the destination has no name, so it is a directory and no page
is written there.
-/

namespace PageSlots.Command

open PageSlots.Files

variable {dir file first second name stem : String} {files done : List String}
  {targets : List (String × String)} {w : Workspace} {l m : Location}
  {outer : List (List Char)} {rooted : Bool}

/-! ## Telling destinations apart -/

/-- **No two pages get the same file.** -/
def Distinct (dir : String) (files : List String) : Prop :=
  files.Pairwise fun a b => samePath (destination dir a) (destination dir b) = false

/-- **The earliest two pages that get one file**: no two of the pages
before the second one do. -/
structure Collide (dir : String) (files : List String) (first second : String) : Prop where
  same : samePath (destination dir first) (destination dir second) = true
  earliest : ∃ before between after, files = before ++ first :: between ++ second :: after
    ∧ Distinct dir (before ++ first :: between)

/-- A page with the file that it gets. -/
def assigned (dir file : String) : String × String :=
  (file, destination dir file)

theorem find?_assigned (dir target : String) (done : List String) :
    (done.map (assigned dir)).find? (fun (_, other) => samePath other target)
      = (done.find? fun a => samePath (destination dir a) target).map (assigned dir) := by
  rw [List.find?_map]
  simp only [Function.comp_def, assigned]

/-- **Pages get their files one after the other**, or the next one that
cannot is reported with the page that has its file. -/
theorem assign_cases (hdone : Distinct dir done) (files : List String) :
    (Distinct dir (done ++ files)
      ∧ assign dir (done.map (assigned dir)) files = .ok ((done ++ files).map (assigned dir)))
    ∨ ∃ first second, Collide dir (done ++ files) first second
      ∧ assign dir (done.map (assigned dir)) files
        = .error (.collision (destination dir second) first second) := by
  induction files generalizing done with
  | nil =>
    rw [List.append_nil]
    exact .inl ⟨hdone, rfl⟩
  | cons file files ih =>
    rw [assign]
    dsimp only
    rw [find?_assigned]
    cases hfind : done.find? fun a => samePath (destination dir a) (destination dir file) with
    | some first =>
      obtain ⟨hsame, before, between, rfl, -⟩ := List.find?_eq_some_iff_append.1 hfind
      exact .inr ⟨first, file, ⟨hsame, before, between, files, rfl, hdone⟩, rfl⟩
    | none =>
      have hnew : Distinct dir (done ++ [file]) := by
        refine List.pairwise_append.2 ⟨hdone, List.pairwise_singleton _ file, fun a ha b hb => ?_⟩
        rw [List.mem_singleton.1 hb]
        exact Bool.eq_false_iff.2 (List.find?_eq_none.1 hfind a ha)
      have hrest := ih hnew
      rw [List.append_assoc, List.map_append] at hrest
      exact hrest

theorem Collide.not_distinct (h : Collide dir files first second) : ¬ Distinct dir files := by
  obtain ⟨before, between, after, rfl, -⟩ := h.earliest
  intro hdistinct
  have hpair := (List.pairwise_append.1 hdistinct).2.2 first
    (List.mem_append_right before List.mem_cons_self) second List.mem_cons_self
  exact Bool.false_ne_true (hpair.symm.trans h.same)

/-- **Every page gets its file, in order**, if no two get the same. -/
theorem destinations_eq_ok_iff : destinations dir files = .ok targets
    ↔ Distinct dir files ∧ targets = files.map (assigned dir) := by
  unfold destinations
  rcases assign_cases (List.Pairwise.nil : Distinct dir []) files with
    ⟨hd, hok⟩ | ⟨first, second, hc, he⟩
  · rw [List.map_nil] at hok
    rw [hok]
    exact ⟨fun h => ⟨hd, (Except.ok.inj h).symm⟩, fun h => h.2 ▸ rfl⟩
  · rw [List.map_nil] at he
    rw [he]
    exact ⟨nofun, fun h => absurd h.1 hc.not_distinct⟩

/-- **The earliest collision is reported.** -/
theorem exists_collide (h : ¬ Distinct dir files) : ∃ first second,
    Collide dir files first second
      ∧ destinations dir files = .error (.collision (destination dir second) first second) := by
  rcases assign_cases (List.Pairwise.nil : Distinct dir []) files with ⟨hd, -⟩ | hc
  · exact absurd hd h
  · exact hc

/-! ## Where destinations are -/

theorem destination_of_name (h : fileName? file = some name) (dir : String) :
    destination dir file = withExtension (join dir (splitName name).1) "html" := by
  unfold destination fileStem?
  rw [h]
  rfl

/-- The name of a page with the extension for pages. -/
def pageName (stem : String) : List Char :=
  ((splitName stem).1 ++ "." ++ "html").toList

theorem isIdle_pageName (stem : String) : isIdle (pageName stem) = false := by
  refine isIdle_of_one_lt_length ?_
  rw [pageName, toList_dotted, List.length_append]
  exact Nat.lt_add_left _ (by decide)

theorem pageName_ne_up (stem : String) : pageName stem ≠ ['.', '.'] := by
  intro h
  have hlength := congrArg List.length h
  rw [pageName, toList_dotted, List.length_append] at hlength
  exact absurd hlength (by simp)

/-- What a path with the extension for pages names. -/
theorem exists_of_locate_withExtension {path : String} {l : Location}
    (hcounted : countedSegments path = name.toList :: outer) (hname : fileName? path = some name)
    (hup : (splitName name).1 ≠ "." ∨ reversedSegments path ≠ name.toList :: outer)
    (h : w.locate (withExtension path "html") = .ok l) :
    ∃ k, w.tree.follow (if isRooted path then [] else w.cwd) outer.reverse = .ok k
      ∧ l = k ++ [String.ofList (pageName name)] := by
  have hslash : '/' ∉ "html".toList := by decide
  obtain ⟨hrooted, hsegments⟩ := reversedSegments_withExtension hcounted hname hup hslash
  rw [← hrooted]
  exact Workspace.exists_of_locate h hsegments (isIdle_pageName name) (pageName_ne_up name)

/-- **Beside the directory.** A path that ends in an idle segment is named
for the segment before that, and gets its extension there: beside the
place to which the path without its idle end leads. -/
theorem beside_of_idle {path : String} {s : List Char}
    (hsegments : reversedSegments path = s :: outer) (hs : isIdle s = true)
    (hname : fileName? path = some name) (h : w.locate (withExtension path "html") = .ok l) :
    ∃ k n x, l = k ++ [x] ∧ ∀ j,
      w.tree.follow (if isRooted path then [] else w.cwd) outer.reverse = .ok j → j = k ++ [n] := by
  obtain ⟨⟨outer', hcounted⟩, hdot, hup⟩ := fileName?_eq_some_iff.1 hname
  obtain ⟨hidle, idle, hidles, hsplit⟩ := exists_of_countedSegments hcounted hdot
  have hend : reversedSegments path ≠ name.toList :: outer' := fun he => by
    rw [(List.cons.inj (hsegments.symm.trans he)).1, hidle] at hs
    exact Bool.noConfusion hs
  obtain ⟨k, hk, rfl⟩ := exists_of_locate_withExtension hcounted hname (.inr hend) h
  refine ⟨k, name, _, rfl, fun j hj => ?_⟩
  cases idle with
  | nil =>
    rw [hsplit] at hsegments
    rw [(List.cons.inj hsegments).1] at hidle
    exact absurd (hs.symm.trans hidle) Bool.noConfusion
  | cons r idle =>
    rw [hsplit, List.cons_append] at hsegments
    rw [← (List.cons.inj hsegments).2, List.reverse_append, List.reverse_cons,
      List.append_assoc] at hj
    obtain ⟨i, hi, hj⟩ := FileTree.exists_of_follow_append hj
    obtain rfl := Except.ok.inj (hk.symm.trans hi)
    obtain ⟨-, ⟨htrue, -⟩ | ⟨-, heq, -⟩ | ⟨-, -, hj⟩⟩ := FileTree.follow_cons_cases hj
    · exact absurd (htrue.symm.trans hidle) Bool.noConfusion
    · exact absurd heq hup
    · rw [String.ofList_toList] at hj
      exact FileTree.follow_of_idle
        (fun s hs => hidles s (List.mem_cons_of_mem r (List.mem_reverse.1 hs))) hj

/-- **Where the file of a page stands**, outside of directories: below the
directory for pages, or with the stem `.` beside that directory. -/
theorem stands_cases (hw : w.Sound) {path : String}
    (hsegments : reversedSegments path = stem.toList :: outer) (hstem : stem ≠ "")
    (h : w.locate (withExtension path "html") = .ok l)
    (hdir : w.tree.get? l ≠ some .directory) :
    (stem ≠ "." ∧ fileName? path = some stem ∧ countedSegments path = stem.toList :: outer
      ∧ (splitName stem).1 ≠ "."
      ∧ ∃ k, w.tree.follow (if isRooted path then [] else w.cwd) outer.reverse = .ok k
        ∧ l = k ++ [String.ofList (pageName stem)])
    ∨ (stem = "." ∧ ∃ k n x, l = k ++ [x] ∧ ∀ j,
      w.tree.follow (if isRooted path then [] else w.cwd) outer.reverse = .ok j
        → j = k ++ [n]) := by
  -- a path without a name stays as it is, and is a directory
  have hnamed : ∃ name, fileName? path = some name := by
    refine Option.ne_none_iff_exists'.1 fun hnone => ?_
    rw [withExtension_of_none hnone] at h
    exact hdir (hw.get?_of_nameless hnone h)
  by_cases hdot : stem = "."
  · obtain ⟨name, hname⟩ := hnamed
    exact .inr ⟨hdot, beside_of_idle hsegments (hdot ▸ rfl) hname h⟩
  · have hidle : isIdle stem.toList = false := by
      have hempty : stem.toList ≠ [] := fun he => hstem (String.toList_eq_nil_iff.1 he)
      have hdot' : stem.toList ≠ ['.'] := fun he => hdot (String.toList_inj.1 he)
      simp [isIdle, hempty, hdot']
    have hup : stem.toList ≠ ['.', '.'] := by
      intro hup
      obtain ⟨name, hname⟩ := hnamed
      obtain ⟨⟨outer', hcounted⟩, -, hname'⟩ := fileName?_eq_some_iff.1 hname
      rw [countedSegments_of_cons hsegments hidle] at hcounted
      exact hname' ((List.cons.inj hcounted).1 ▸ hup)
    obtain ⟨hcounted, hname⟩ := name_of_reversedSegments hsegments hidle hup
    -- nor has it a name once a stem `.` has been left of it
    have hleft : (splitName stem).1 ≠ "." := fun hleft =>
      hdir (hw.get?_of_nameless (withExtension_of_up hname hsegments hleft "html").2 h)
    exact .inl ⟨hdot, hname, hcounted, hleft,
      exists_of_locate_withExtension hcounted hname (.inl hleft) h⟩

/-- What is below a directory is not beside it. -/
theorem below_ne_beside {below beside : Location} {n x y : String} (h : below = beside ++ [n]) :
    below ++ [y] ≠ beside ++ [x] := by
  intro he
  have hlength := congrArg List.length he
  rw [h] at hlength
  simp at hlength

/-- **Different destinations of one run are different places**, outside of
directories. -/
theorem locate_ne_of_distinct (hw : w.Sound) {a b nameA nameB : String}
    (ha : fileName? a = some nameA) (hb : fileName? b = some nameB)
    (hsame : samePath (destination dir a) (destination dir b) = false)
    (hl : w.locate (destination dir a) = .ok l) (hldir : w.tree.get? l ≠ some .directory)
    (hm : w.locate (destination dir b) = .ok m) (hmdir : w.tree.get? m ≠ some .directory) :
    l ≠ m := by
  intro hlm
  have hdiffer : destination dir a ≠ destination dir b := fun he => by
    rw [he, samePath_refl] at hsame
    exact Bool.noConfusion hsame
  rw [destination_of_name ha] at hl hdiffer
  rw [destination_of_name hb] at hm hdiffer
  obtain ⟨rooted, outer, hjoin⟩ := exists_reversedSegments_join dir
  have hstem : ∀ {file name : String}, fileName? file = some name →
      (splitName name).1 ≠ "" ∧ '/' ∉ (splitName name).1.toList := fun h =>
    ⟨stem_ne (ne_of_fileName? h), fun hmem => notMem_of_fileName? h (stem_subset _ hmem)⟩
  obtain ⟨hrootA, -, hsegmentsA⟩ := hjoin _ (hstem ha).1 (hstem ha).2
  obtain ⟨hrootB, -, hsegmentsB⟩ := hjoin _ (hstem hb).1 (hstem hb).2
  rcases stands_cases hw hsegmentsA (hstem ha).1 hl hldir with
    ⟨hdotA, hnameA, hcountedA, hleftA, k, hk, rfl⟩ | ⟨hdotA, k, n, x, rfl, hk⟩
  · rcases stands_cases hw hsegmentsB (hstem hb).1 hm hmdir with
      ⟨hdotB, hnameB, hcountedB, hleftB, j, hj, rfl⟩ | ⟨hdotB, j, n, x, rfl, hj⟩
    · have hlast := congrArg List.getLast? hlm
      rw [List.getLast?_concat, List.getLast?_concat, Option.some.injEq] at hlast
      have hpages := String.ofList_inj.1 hlast
      unfold pageName at hpages
      refine hdiffer ?_
      rw [withExtension_of_some hcountedA hnameA (.inl hleftA),
        withExtension_of_some hcountedB hnameB (.inl hleftB), hpages, hrootA, hrootB]
    · rw [hrootA] at hk
      rw [hrootB] at hj
      exact below_ne_beside (hj k hk) hlm
  · rcases stands_cases hw hsegmentsB (hstem hb).1 hm hmdir with
      ⟨hdotB, hnameB, hcountedB, hleftB, j, hj, rfl⟩ | ⟨hdotB, j, n, x, rfl, hj⟩
    · rw [hrootA] at hk
      rw [hrootB] at hj
      exact below_ne_beside (hk j hj) hlm.symm
    · exact hdiffer (by rw [hdotA, hdotB])

end PageSlots.Command
