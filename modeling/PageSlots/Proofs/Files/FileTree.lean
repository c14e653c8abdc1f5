import PageSlots.Files.FileTree
import PageSlots.Proofs.Files.Path

/-!
# What a step changes in a file tree

In a tree that is `Closed`, whatever is there stands in a directory, and a
workspace is `Sound` if its tree is closed and its current directory is
there. Writing a file and creating a directory keep both.

What a path names depends on the directories alone: a step that takes no
directory away (`Widens`) leaves every path that can be followed where it
was (`Widens.locate`). Writing a file widens in both directions, so a
destination can be located before, between or after the pages are written,
with one result. Creating directories adds directories where nothing was,
each at a path that was asked for (`Grown`), also if it fails half way.
-/

namespace PageSlots.Files

variable {t t' : FileTree} {l m : Location} {e : Entry} {path text : String} {s : List Char}
  {ss rest idle : List (List Char)} {paths paths' : List String} {w w' w'' : Workspace}

namespace FileTree

/-! ## Following segments -/

/-- **One step on the way**: it starts in a directory, and stays there,
goes up, or goes down to a name. -/
theorem follow_cons_cases (h : t.follow l (s :: rest) = .ok m) : t.get? l = some .directory
    ∧ (isIdle s = true ∧ t.follow l rest = .ok m
      ∨ isIdle s = false ∧ s = ['.', '.'] ∧ t.follow l.dropLast rest = .ok m
      ∨ isIdle s = false ∧ s ≠ ['.', '.']
        ∧ t.follow (l ++ [String.ofList s]) rest = .ok m) := by
  rw [follow] at h
  cases hl : t.get? l with
  | none =>
    rw [hl] at h
    cases h
  | some e =>
    rw [hl] at h
    cases e with
    | file content => cases h
    | directory =>
      dsimp only at h
      refine ⟨rfl, ?_⟩
      by_cases hidle : isIdle s = true
      · rw [if_pos hidle] at h
        exact .inl ⟨hidle, h⟩
      · rw [if_neg hidle] at h
        by_cases hup : s = ['.', '.']
        · rw [if_pos hup] at h
          exact .inr (.inl ⟨Bool.eq_false_iff.2 hidle, hup, h⟩)
        · rw [if_neg hup] at h
          split at h
          · cases h
          · exact .inr (.inr ⟨Bool.eq_false_iff.2 hidle, hup, h⟩)

theorem follow_append (t : FileTree) (l : Location) (front back : List (List Char)) :
    t.follow l (front ++ back) = (t.follow l front).bind (t.follow · back) := by
  induction front generalizing l with
  | nil => rfl
  | cons s front ih =>
    rw [List.cons_append, follow, follow]
    cases t.get? l with
    | none => rfl
    | some e =>
      cases e with
      | file content => rfl
      | directory =>
        dsimp only
        rw [ih, ih, ih]
        split
        · rfl
        · split
          · rfl
          · split <;> rfl

/-- **A way is followed in two parts.** -/
theorem exists_of_follow_append {front back : List (List Char)}
    (h : t.follow l (front ++ back) = .ok m) :
    ∃ k, t.follow l front = .ok k ∧ t.follow k back = .ok m := by
  rw [follow_append] at h
  cases hk : t.follow l front with
  | error fault =>
    rw [hk] at h
    cases h
  | ok k =>
    rw [hk] at h
    exact ⟨k, rfl, h⟩

/-- Idle segments lead nowhere else. -/
theorem follow_of_idle (hidle : ∀ s ∈ idle, isIdle s = true) (h : t.follow l idle = .ok m) :
    m = l := by
  induction idle with
  | nil => exact (Except.ok.inj h).symm
  | cons s idle ih =>
    have hs := hidle s List.mem_cons_self
    obtain ⟨-, h | h | h⟩ := follow_cons_cases h
    · exact ih (fun r hr => hidle r (List.mem_cons_of_mem s hr)) h.2
    · exact absurd (hs.symm.trans h.1) Bool.noConfusion
    · exact absurd (hs.symm.trans h.1) Bool.noConfusion

/-- Idle segments can be followed from a directory. -/
theorem follow_idle (hl : t.get? l = some .directory) (hidle : ∀ s ∈ idle, isIdle s = true) :
    t.follow l idle = .ok l := by
  induction idle with
  | nil => rfl
  | cons s idle ih =>
    rw [follow, hl]
    dsimp only
    rw [if_pos (hidle s List.mem_cons_self)]
    exact ih fun r hr => hidle r (List.mem_cons_of_mem s hr)

/-- **A way can be followed in every tree with the same directories**, and
with more of them. -/
theorem follow_mono (hdir : ∀ l, t.get? l = some .directory → t'.get? l = some .directory)
    (h : t.follow l ss = .ok m) : t'.follow l ss = .ok m := by
  induction ss generalizing l with
  | nil => exact h
  | cons s ss ih =>
    have hl := (follow_cons_cases h).1
    rw [follow, hl] at h
    rw [follow, hdir l hl]
    dsimp only at h ⊢
    split at h
    · rename_i hidle
      rw [if_pos hidle]
      exact ih h
    · rename_i hidle
      rw [if_neg hidle]
      split at h
      · rename_i hup
        rw [if_pos hup]
        exact ih h
      · rename_i hup
        rw [if_neg hup]
        split at h
        · cases h
        · rename_i hlong
          rw [if_neg hlong]
          exact ih h

/-! ## Closed trees -/

/-- **Whatever is in the tree stands in a directory.** -/
def Closed (t : FileTree) : Prop :=
  ∀ l, t.get? l ≠ none → t.get? l.dropLast = some .directory

/-- The entries of a tree tell whether it is closed. -/
theorem closed_of_entries (h : ∀ x ∈ t.entries, t.isDirectoryAt x.1.dropLast = true) :
    t.Closed := by
  intro l hl
  by_cases hroot : l = []
  · rw [hroot]
    rfl
  · obtain ⟨e, he⟩ := Option.ne_none_iff_exists'.1 hl
    rw [get?, if_neg hroot, List.lookup_eq_some_iff] at he
    obtain ⟨front, back, hentries, -⟩ := he
    have hdir := h (l, e) (hentries ▸ List.mem_append_right front List.mem_cons_self)
    unfold isDirectoryAt at hdir
    split at hdir
    · assumption
    · cases hdir

/-- **A way from a place in a directory** leads to a place in a
directory. -/
theorem Closed.get?_dropLast_of_follow (ht : t.Closed)
    (hl : t.get? l.dropLast = some .directory) (h : t.follow l ss = .ok m) :
    t.get? m.dropLast = some .directory := by
  induction ss generalizing l with
  | nil =>
    obtain rfl := Except.ok.inj h
    exact hl
  | cons s ss ih =>
    obtain ⟨hdir, ⟨-, h⟩ | ⟨-, -, h⟩ | ⟨-, -, h⟩⟩ := follow_cons_cases h
    · exact ih hl h
    · exact ih (ht l.dropLast (hl ▸ Option.some_ne_none _)) h
    · exact ih (by rw [List.dropLast_concat]; exact hdir) h

/-- A directory stays one, unless a file is put in its place. -/
theorem get?_put_of_directory (he : t.get? l ≠ some .directory ∨ e = .directory)
    (hm : t.get? m = some .directory) : (t.put l e).get? m = some .directory := by
  rw [get?_put]
  split
  · rfl
  · split
    · rename_i hml
      exact congrArg some (he.resolve_left fun hne => hne (hml ▸ hm))
    · exact hm

theorem Closed.put (ht : t.Closed) (hl : t.get? l.dropLast = some .directory)
    (he : t.get? l ≠ some .directory ∨ e = .directory) : (t.put l e).Closed := by
  intro m hm
  refine get?_put_of_directory he ?_
  rw [get?_put] at hm
  split at hm
  · rename_i hroot
    rw [hroot]
    rfl
  · split at hm
    · rename_i hml
      rw [hml]
      exact hl
    · exact ht m hm

end FileTree

namespace Workspace

/-! ## Sound workspaces -/

/-- **A workspace that there can be**: its tree is closed, and its current
directory is there. -/
structure Sound (w : Workspace) : Prop where
  closed : w.tree.Closed
  cwd : w.tree.get? w.cwd = some .directory

/-- The place where a path begins is a directory. -/
theorem Sound.get?_start (hw : w.Sound) (path : String) :
    w.tree.get? (if isRooted path then [] else w.cwd) = some .directory := by
  split
  · rfl
  · exact hw.cwd

theorem follow_of_followPath (h : w.followPath path ss = .ok l) :
    w.tree.follow (if isRooted path then [] else w.cwd) ss = .ok l := by
  unfold followPath at h
  split at h
  · cases h
  · split at h
    · cases h
    · exact h

/-- The empty segment in front of a path from the root leads nowhere
else. -/
theorem follow_of_locate (h : w.locate path = .ok l) :
    w.tree.follow (if isRooted path then [] else w.cwd) (reversedSegments path).reverse
      = .ok l := by
  have hf := follow_of_followPath h
  cases hr : isRooted path with
  | true =>
    obtain ⟨text, htext⟩ := isRooted_iff.1 hr
    rw [hr, if_pos rfl, htext, segments_slash] at hf
    rw [if_pos rfl, reversedSegments_of_rooted htext, List.reverse_reverse]
    exact hf
  | false =>
    rw [hr] at hf
    rw [reversedSegments_of_not_rooted hr, List.reverse_reverse]
    exact hf

/-- **What a path names** is the last segment of the path, in the place to
which the segments before it lead. -/
theorem exists_of_locate (h : w.locate path = .ok l) (hpath : reversedSegments path = s :: ss)
    (hidle : isIdle s = false) (hup : s ≠ ['.', '.']) :
    ∃ k, w.tree.follow (if isRooted path then [] else w.cwd) ss.reverse = .ok k
      ∧ l = k ++ [String.ofList s] := by
  have hf := follow_of_locate h
  rw [hpath, List.reverse_cons] at hf
  obtain ⟨k, hk, hl⟩ := FileTree.exists_of_follow_append hf
  refine ⟨k, hk, ?_⟩
  obtain ⟨-, h | h | h⟩ := FileTree.follow_cons_cases hl
  · exact absurd (hidle.symm.trans h.1) Bool.noConfusion
  · exact absurd h.2.1 hup
  · exact (Except.ok.inj h.2.2).symm

/-- **What a path with a name names** is called so. -/
theorem exists_of_locate_of_name {name : String} (h : w.locate path = .ok l)
    (hname : fileName? path = some name) : ∃ k, l = k ++ [name] := by
  obtain ⟨⟨outer, hcounted⟩, hdot, hup⟩ := fileName?_eq_some_iff.1 hname
  obtain ⟨hidle, idle, hidles, hsegments⟩ := exists_of_countedSegments hcounted hdot
  have hf := follow_of_locate h
  rw [hsegments, List.reverse_append, List.reverse_cons] at hf
  obtain ⟨j, hj, hback⟩ := FileTree.exists_of_follow_append hf
  obtain rfl := FileTree.follow_of_idle (fun s hs => hidles s (List.mem_reverse.1 hs)) hback
  obtain ⟨k, -, hlast⟩ := FileTree.exists_of_follow_append hj
  obtain ⟨-, hlast | hlast | ⟨-, -, hlast⟩⟩ := FileTree.follow_cons_cases hlast
  · exact absurd (hidle.symm.trans hlast.1) Bool.noConfusion
  · exact absurd hlast.2.1 hup
  · rw [String.ofList_toList] at hlast
    exact ⟨k, (Except.ok.inj hlast).symm⟩

/-- What can be located stands in a directory. -/
theorem Sound.get?_dropLast (hw : w.Sound) (h : w.followPath path ss = .ok l) :
    w.tree.get? l.dropLast = some .directory :=
  hw.closed.get?_dropLast_of_follow
    (hw.closed _ (hw.get?_start path ▸ Option.some_ne_none _)) (follow_of_followPath h)

/-- **A path without a name can only name a directory**: it ends where it
begins, or goes up from a directory. -/
theorem Sound.get?_of_nameless (hw : w.Sound) (hname : fileName? path = none)
    (h : w.locate path = .ok l) : w.tree.get? l = some .directory := by
  have hf := follow_of_locate h
  rw [← List.takeWhile_append_dropWhile (p := isIdle) (l := reversedSegments path),
    List.reverse_append] at hf
  obtain ⟨k, hk, hl⟩ := FileTree.exists_of_follow_append hf
  have hlk : l = k := FileTree.follow_of_idle
    (fun s hs => List.mem_takeWhile_imp (List.mem_reverse.1 hs)) hl
  rw [hlk]
  have hup := nameless_of_fileName?_eq_none hname
  cases hback : (reversedSegments path).dropWhile isIdle with
  | nil =>
    rw [hback] at hk
    rw [← Except.ok.inj hk]
    exact hw.get?_start path
  | cons s outer =>
    rw [hback] at hk hup
    rw [List.reverse_cons] at hk
    obtain ⟨j, hj, hs⟩ := FileTree.exists_of_follow_append hk
    obtain rfl := hup s rfl
    obtain ⟨hdir, ⟨hidle, -⟩ | ⟨-, -, hs⟩ | ⟨-, hne, -⟩⟩ := FileTree.follow_cons_cases hs
    · cases hidle
    · rw [← Except.ok.inj hs]
      exact hw.closed j (hdir ▸ Option.some_ne_none _)
    · exact absurd rfl hne

/-- **What can be read** is a file with a text, where the path leads. -/
theorem readText_eq_ok_iff : w.readText path = .ok text ↔ ∃ l content, w.locate path = .ok l
    ∧ w.tree.get? l = some (.file content) ∧ String.fromUTF8? content = some text := by
  unfold readText
  cases w.locate path with
  | error fault => exact ⟨nofun, fun ⟨_, _, hl, _⟩ => nomatch hl⟩
  | ok l =>
    dsimp only [bind, Except.bind]
    constructor
    · intro h
      split at h
      · cases h
      · cases h
      · rename_i content hfile
        split at h
        · cases h
        · rename_i text' htext
          exact ⟨l, content, rfl, hfile, htext.trans (congrArg some (Except.ok.inj h))⟩
    · rintro ⟨m, content, hm, hfile, htext⟩
      obtain rfl := Except.ok.inj hm
      rw [hfile]
      dsimp only
      rw [htext]

/-- **What can be read has a name.** -/
theorem Sound.exists_fileName_of_readText (hw : w.Sound) (h : w.readText path = .ok text) :
    ∃ name, fileName? path = some name := by
  by_contra hnone
  have hname : fileName? path = none :=
    Option.eq_none_iff_forall_ne_some.2 fun name h => hnone ⟨name, h⟩
  obtain ⟨l, content, hl, hfile, -⟩ := readText_eq_ok_iff.1 h
  cases hfile.symm.trans (hw.get?_of_nameless hname hl)

/-! ## Steps that take no directory away -/

/-- **No directory is gone**, and the current one is the same. -/
structure Widens (w w' : Workspace) : Prop where
  cwd_eq : w'.cwd = w.cwd
  directory : ∀ l, w.tree.get? l = some .directory → w'.tree.get? l = some .directory

theorem Widens.refl (w : Workspace) : Widens w w :=
  ⟨rfl, fun _ h => h⟩

theorem Widens.trans (h : Widens w w') (h' : Widens w' w'') : Widens w w'' :=
  ⟨h'.cwd_eq.trans h.cwd_eq, fun l hl => h'.directory l (h.directory l hl)⟩

theorem Widens.followPath (h : Widens w w') (hl : w.followPath path ss = .ok l) :
    w'.followPath path ss = .ok l := by
  unfold Workspace.followPath at hl ⊢
  split at hl
  · cases hl
  · rename_i hnul
    rw [if_neg hnul]
    split at hl
    · cases hl
    · rename_i hempty
      rw [if_neg hempty, h.cwd_eq]
      exact FileTree.follow_mono h.directory hl

/-- **A path that could be followed still names the same place.** -/
theorem Widens.locate (h : Widens w w') (hl : w.locate path = .ok l) : w'.locate path = .ok l :=
  h.followPath hl

/-! ## Writing a file -/

/-- **What writing does**: it puts a file where the path leads, unless a
directory is there. -/
theorem exists_of_writeText (h : w.writeText path text = .ok w') :
    ∃ l, w.locate path = .ok l ∧ w.tree.get? l ≠ some .directory
      ∧ w' = { w with tree := w.tree.put l (.file text.toUTF8) } := by
  unfold writeText at h
  cases hl : w.locate path with
  | error fault =>
    rw [hl] at h
    cases h
  | ok l =>
    rw [hl] at h
    dsimp only [bind, Except.bind] at h
    split at h
    · cases h
    · rename_i hdir
      exact ⟨l, rfl, hdir, (Except.ok.inj h).symm⟩

theorem ne_nil_of_get? (h : w.tree.get? l ≠ some .directory) : l ≠ [] := by
  rintro rfl
  exact h rfl

/-- **Writing a file changes no directory.** -/
theorem widens_put_file (h : w.tree.get? l ≠ some .directory) (content : ByteArray) :
    Widens w { w with tree := w.tree.put l (.file content) }
      ∧ Widens { w with tree := w.tree.put l (.file content) } w := by
  refine ⟨⟨rfl, fun m hm => FileTree.get?_put_of_directory (.inl h) hm⟩, rfl, fun m hm => ?_⟩
  dsimp only at hm
  rw [FileTree.get?_put] at hm
  split at hm
  · rename_i hroot
    rw [hroot]
    rfl
  · split at hm
    · cases hm
    · exact hm

theorem widens_put_directory (w : Workspace) (l : Location) :
    Widens w { w with tree := w.tree.put l .directory } :=
  ⟨rfl, fun _ hm => FileTree.get?_put_of_directory (.inr rfl) hm⟩

/-- **Writing keeps a workspace sound.** -/
theorem Sound.of_writeText (hw : w.Sound) (h : w.writeText path text = .ok w') : w'.Sound := by
  obtain ⟨l, hl, hdir, rfl⟩ := exists_of_writeText h
  exact ⟨hw.closed.put (hw.get?_dropLast hl) (.inl hdir),
    (widens_put_file hdir _).1.directory w.cwd hw.cwd⟩

/-! ## Creating directories -/

/-- **Directories on some paths are new**, and nothing else has changed. -/
structure Grown (paths : List String) (w w' : Workspace) : Prop where
  cwd_eq : w'.cwd = w.cwd
  changed : ∀ l, w'.tree.get? l = w.tree.get? l
    ∨ w.tree.get? l = none ∧ w'.tree.get? l = some .directory
      ∧ ∃ path ∈ paths, w'.locate path = .ok l
  sound : w.Sound → w'.Sound

theorem Grown.widens (h : Grown paths w w') : Widens w w' := by
  refine ⟨h.cwd_eq, fun l hl => ?_⟩
  rcases h.changed l with heq | ⟨hnone, -⟩
  · exact heq.trans hl
  · exact nomatch hnone.symm.trans hl

theorem Grown.refl (paths : List String) (w : Workspace) : Grown paths w w :=
  ⟨rfl, fun _ => .inl rfl, id⟩

theorem Grown.mono (h : Grown paths w w') (hsub : paths ⊆ paths') : Grown paths' w w' := by
  refine ⟨h.cwd_eq, fun l => ?_, h.sound⟩
  exact (h.changed l).imp_right fun ⟨hnone, hnew, path, hpath, hl⟩ =>
    ⟨hnone, hnew, path, hsub hpath, hl⟩

theorem Grown.trans (h : Grown paths w w') (h' : Grown paths w' w'') : Grown paths w w'' := by
  refine ⟨h'.cwd_eq.trans h.cwd_eq, fun l => ?_, fun hw => h'.sound (h.sound hw)⟩
  rcases h'.changed l with heq' | ⟨hnone', hnew', hpath'⟩
  · rcases h.changed l with heq | ⟨hnone, hnew, path, hpath, hl⟩
    · exact .inl (heq'.trans heq)
    · exact .inr ⟨hnone, heq'.trans hnew, path, hpath, h'.widens.locate hl⟩
  · rcases h.changed l with heq | ⟨-, hnew, -⟩
    · exact .inr ⟨heq.symm.trans hnone', hnew', hpath'⟩
    · exact nomatch hnone'.symm.trans hnew

/-- Idle segments at the end of a path lead nowhere else. -/
theorem locate_of_followPath {front : List (List Char)}
    (hsplit : segments path.toList = front ++ idle) (hidle : ∀ s ∈ idle, isIdle s = true)
    (h : w.followPath path front = .ok l) (hl : w.tree.get? l = some .directory) :
    w.locate path = .ok l := by
  unfold locate followPath at *
  split at h
  · cases h
  · rename_i hnul
    rw [if_neg hnul]
    split at h
    · cases h
    · rename_i hempty
      rw [if_neg hempty, hsplit, FileTree.follow_append, h]
      exact FileTree.follow_idle hl hidle

/-- **What creating a directory does**: it puts one where the path leads
without the empty segments at its end, unless something is there. -/
theorem exists_of_makeDirectory (h : w.makeDirectory path = .ok w') :
    ∃ front idle l, segments path.toList = front ++ idle ∧ (∀ s ∈ idle, isIdle s = true)
      ∧ w.followPath path front = .ok l ∧ w.tree.get? l = none
      ∧ w' = { w with tree := w.tree.put l .directory } := by
  unfold makeDirectory at h
  dsimp only at h
  cases hl : w.followPath path ((segments path.toList).reverse.dropWhile (· = [])).reverse with
  | error fault =>
    rw [hl] at h
    cases h
  | ok l =>
    rw [hl] at h
    dsimp only [bind, Except.bind] at h
    cases hnone : w.tree.get? l with
    | some e =>
      rw [hnone] at h
      cases h
    | none =>
      rw [hnone] at h
      refine ⟨_, ((segments path.toList).reverse.takeWhile (· = [])).reverse, l, ?_, fun s hs => ?_,
        hl, hnone, (Except.ok.inj h).symm⟩
      · rw [← List.reverse_append, List.takeWhile_append_dropWhile, List.reverse_reverse]
      · have hempty := List.mem_takeWhile_imp (List.mem_reverse.1 hs)
        rw [show s = [] from of_decide_eq_true hempty]
        rfl

/-- **A directory that has been created** is at its path, where nothing was
before. -/
theorem locate_of_makeDirectory (h : w.makeDirectory path = .ok w') :
    ∃ l, w'.locate path = .ok l ∧ w.tree.get? l = none ∧ w'.tree.get? l = some .directory
      ∧ w' = { w with tree := w.tree.put l .directory }
      ∧ (w.Sound → w.tree.get? l.dropLast = some .directory) := by
  obtain ⟨front, idle, l, hsplit, hidle, hl, hnone, rfl⟩ := exists_of_makeDirectory h
  have hroot : l ≠ [] := fun he => nomatch (congrArg w.tree.get? he).symm.trans hnone
  have hnew : (w.tree.put l .directory).get? l = some .directory := by
    rw [FileTree.get?_put, if_neg hroot, if_pos rfl]
  have hwidens := widens_put_directory w l
  exact ⟨l, locate_of_followPath hsplit hidle (hwidens.followPath hl) hnew, hnone, hnew, rfl,
    fun hw => hw.get?_dropLast hl⟩

/-- **Creating a directory** adds it at its path. -/
theorem grown_of_makeDirectory (h : w.makeDirectory path = .ok w') : Grown [path] w w' := by
  obtain ⟨l, hl, hnone, hnew, rfl, hplace⟩ := locate_of_makeDirectory h
  refine ⟨rfl, fun m => ?_, fun hw => ⟨hw.closed.put (hplace hw) (.inr rfl),
    (widens_put_directory w l).directory w.cwd hw.cwd⟩⟩
  by_cases hm : m = l
  · subst hm
    exact .inr ⟨hnone, hnew, path, List.mem_singleton.2 rfl, hl⟩
  · rw [FileTree.get?_put, if_neg hm]
    split
    · rename_i hroot
      rw [hroot]
      exact .inl rfl
    · exact .inl rfl

/-- **Creating a chain of directories** adds directories on it, also if it
fails. -/
theorem grown_makeChain (paths : List String) (w : Workspace) :
    Grown paths w (w.makeChain paths).2 := by
  induction paths generalizing w with
  | nil => exact Grown.refl [] w
  | cons path outer ih =>
    have hone : ∀ {w w' : Workspace}, w.makeDirectory path = .ok w' →
        Grown (path :: outer) w w' := fun h =>
      (grown_of_makeDirectory h).mono (List.cons_subset_cons path (List.nil_subset outer))
    have hrest := (ih w).mono (List.subset_cons_self path outer)
    rw [makeChain]
    split
    · exact Grown.refl _ w
    · split
      · rename_i hmade
        exact hone hmade
      · split
        · rename_i hchain
          rw [hchain] at hrest
          exact hrest
        · rename_i hchain
          rw [hchain] at hrest
          split
          · rename_i hmade
            exact hrest.trans (hone hmade)
          · split
            · exact hrest
            · exact hrest
      · split
        · exact Grown.refl _ w
        · exact Grown.refl _ w

theorem isDirectory_of_locate (h : w.locate path = .ok l)
    (hl : w.tree.get? l = some .directory) : w.isDirectory path = true := by
  unfold isDirectory find?
  rw [h]
  dsimp only
  rw [hl]

theorem Widens.isDirectory (h : Widens w w') (hdir : w.isDirectory path = true) :
    w'.isDirectory path = true := by
  unfold Workspace.isDirectory find? at hdir
  cases hl : w.locate path with
  | error fault =>
    rw [hl] at hdir
    cases hdir
  | ok l =>
    rw [hl] at hdir
    dsimp only at hdir
    split at hdir
    · rename_i hl'
      exact isDirectory_of_locate (h.locate hl) (h.directory l hl')
    · cases hdir

/-- A path of idle segments names the directory where it begins. -/
theorem Sound.isDirectory_of_parent?_eq_none (hw : w.Sound) (hne : path ≠ "")
    (h : parent? path = none) : w.isDirectory path = true := by
  have hidle := isIdle_of_parent?_eq_none h
  refine isDirectory_of_locate ?_ (hw.get?_start path)
  unfold locate followPath
  rw [if_neg, if_neg (by simpa using hne)]
  · exact FileTree.follow_idle (hw.get?_start path) hidle
  · rw [List.contains_iff_mem, ← joinSegments_segments path.toList]
    intro hnul
    rcases mem_joinSegments hnul with hslash | ⟨s, hs, hc⟩
    · exact absurd hslash (by decide)
    · have hs' := hidle s hs
      unfold isIdle at hs'
      rcases (Bool.or_eq_true _ _).mp hs' with he | he
      · rw [of_decide_eq_true he] at hc
        cases hc
      · rw [of_decide_eq_true he, List.mem_singleton] at hc
        exact absurd hc (by decide)

/-- **A directory that could be created is there.** -/
theorem isDirectory_of_makeChain (hw : w.Sound) (hne : path ≠ "")
    (h : w.makeChain (path :: paths) = (none, w')) : w'.isDirectory path = true := by
  have hmade : ∀ {w w' : Workspace}, w.makeDirectory path = .ok w' → w'.isDirectory path = true :=
    fun h => by
      obtain ⟨l, hl, -, hnew, -⟩ := locate_of_makeDirectory h
      exact isDirectory_of_locate hl hnew
  rw [makeChain] at h
  split at h
  · rename_i hstop
    obtain rfl := (Prod.mk.inj h).2
    refine hw.isDirectory_of_parent?_eq_none hne (Option.isNone_iff_eq_none.1 ?_)
    exact ((Bool.or_eq_true _ _).mp hstop).resolve_left (by simpa using hne)
  · split at h
    · rename_i hone
      exact (Prod.mk.inj h).2 ▸ hmade hone
    · split at h
      · cases (Prod.mk.inj h).1
      · split at h
        · rename_i hone
          exact (Prod.mk.inj h).2 ▸ hmade hone
        · split at h
          · rename_i hthere
            exact (Prod.mk.inj h).2 ▸ (Bool.and_eq_true _ _ ▸ hthere).2
          · cases (Prod.mk.inj h).1
    · split at h
      · rename_i hthere
        exact (Prod.mk.inj h).2 ▸ (Bool.and_eq_true _ _ ▸ hthere).2
      · cases (Prod.mk.inj h).1

theorem isDirectory_of_makeDirectories (hw : w.Sound) (hne : path ≠ "")
    (h : w.makeDirectories path = (none, w')) : w'.isDirectory path = true := by
  obtain ⟨paths, hpaths⟩ := exists_ancestors_eq_cons path
  rw [makeDirectories, hpaths] at h
  exact isDirectory_of_makeChain hw hne h

end Workspace

end PageSlots.Files
