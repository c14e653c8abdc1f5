import Mathlib.Data.List.Infix
import Mathlib.Tactic.MkIffOfInductiveProp
import PageSlots.Proofs.Files.FileTree

/-!
# The directories above a location

A location is reached from the root by its names, so the path that lists
them after slashes leads there (`pathTo`). The path of the current
directory is one of these. Going up is told in two ways: a path loses its
last segment until it has none, and a location loses its last name until
it is the root. They are the same (`ancestors_pathTo`), as long as the
names are such as a file system has, since a name that is empty or a dot
would not count as a segment. And a name that is looked for in one of the
directories above the current one is found through its path exactly if it
is there (`Sound.find?_join`), because the whole way is made of
directories.
-/

namespace PageSlots.Files

variable {t : FileTree} {w : Workspace} {l m names : Location} {name : String}
  {ss : List (List Char)} {s : List Char}

/-- **A name that a file system can give** to a file or a directory. -/
@[mk_iff]
structure IsName (name : String) : Prop where
  /-- A name has characters. -/
  ne_empty : name ≠ ""
  /-- The name of the directory itself is none. -/
  ne_dot : name ≠ "."
  /-- The name of the directory above is none. -/
  ne_up : name ≠ ".."
  /-- No name has a slash in it. -/
  slash : '/' ∉ name.toList
  /-- No name has a NUL in it. -/
  nul : '\x00' ∉ name.toList
  /-- A name is not too long. -/
  size_le : name.utf8ByteSize ≤ 255

namespace IsName

instance : DecidablePred IsName := fun name => decidable_of_iff _ (isName_iff name).symm

theorem toList_ne (h : IsName name) : name.toList ≠ [] :=
  mt String.toList_eq_nil_iff.1 h.ne_empty

theorem isIdle_eq (h : IsName name) : isIdle name.toList = false := by
  have hdot : name.toList ≠ ['.'] := fun he => h.ne_dot (String.toList_inj.1 he)
  simp [isIdle, h.toList_ne, hdot]

theorem toList_ne_up (h : IsName name) : name.toList ≠ ['.', '.'] :=
  fun he => h.ne_up (String.toList_inj.1 he)

end IsName

/-! ## Paths from the root -/

/-- **The path to a location.** -/
def pathTo (l : Location) : String :=
  "/" ++ "/".intercalate l

theorem cwdPath_eq (w : Workspace) : w.cwdPath = pathTo w.cwd := rfl

theorem intercalate_eq_joinSegments (ss : List (List Char)) :
    ['/'].intercalate ss = joinSegments ss := by
  induction ss with
  | nil => rfl
  | cons s ss ih =>
    cases ss with
    | nil => exact List.intercalate_singleton
    | cons r ss =>
      rw [List.intercalate_cons_cons, ih, joinSegments_cons (List.cons_ne_nil r ss),
        List.append_assoc, List.singleton_append]

theorem toList_pathTo (l : Location) :
    (pathTo l).toList = '/' :: joinSegments (l.map String.toList) := by
  rw [pathTo, String.toList_append, String.toList_intercalate]
  exact congrArg ('/' :: ·) (intercalate_eq_joinSegments _)

theorem pathTo_ne (l : Location) : pathTo l ≠ "" := by
  rw [Ne, ← String.toList_eq_nil_iff, toList_pathTo]
  exact List.cons_ne_nil _ _

theorem isRooted_pathTo (l : Location) : isRooted (pathTo l) = true :=
  isRooted_iff.2 ⟨_, toList_pathTo l⟩

/-- **Joining a name to the path of a location** gives the path of what
has this name there. -/
theorem join_pathTo (hl : ∀ n ∈ l, IsName n) (hn : IsName name) :
    join (pathTo l) name = pathTo (l ++ [name]) := by
  have hroot : ¬ isRooted name = true := by
    rw [isRooted_of_notMem hn.slash]
    exact Bool.false_ne_true
  rw [join, if_neg hroot]
  cases l using List.reverseRecOn with
  | nil =>
    rw [if_pos (by decide), ← String.toList_inj, String.toList_append, toList_pathTo, toList_pathTo]
    rfl
  | append_singleton l n =>
    have hnl : IsName n := hl n (by simp)
    -- the path ends in the name that the location ends in
    have hlast : (pathTo (l ++ [n])).toList.getLast? ≠ some '/' := by
      rw [toList_pathTo, List.map_append, List.map_singleton,
        show [n.toList] = [[] ++ n.toList] from rfl, ← joinSegments_concat, ← List.cons_append,
        List.getLast?_append_of_ne_nil _ hnl.toList_ne]
      exact fun he => hnl.slash (List.mem_of_getLast? he)
    have htext : (pathTo (l ++ [n] ++ [name])).toList
        = (pathTo (l ++ [n])).toList ++ '/' :: name.toList := by
      rw [toList_pathTo, toList_pathTo, List.map_append, List.map_singleton,
        joinSegments_append (by simp) (List.cons_ne_nil _ _)]
      rfl
    rw [if_neg (by simp [pathTo_ne, hlast]), ← String.toList_inj, String.toList_append,
      String.toList_append, htext, List.append_assoc]
    rfl

theorem slash_notMem_of_names (hnames : ∀ n ∈ names, IsName n) :
    ∀ s ∈ names.map String.toList, '/' ∉ s := by
  intro s hs
  obtain ⟨n, hn, rfl⟩ := List.mem_map.1 hs
  exact (hnames n hn).slash

theorem reversedSegments_pathTo (hl : ∀ n ∈ l, IsName n) (hn : IsName name) :
    reversedSegments (pathTo (l ++ [name])) = name.toList :: (l.map String.toList).reverse := by
  have hslash := slash_notMem_of_names (List.forall_mem_append.2 ⟨hl, List.forall_mem_singleton.2 hn⟩)
  rw [reversedSegments_of_rooted (toList_pathTo _), segments_joinSegments (by simp) hslash]
  simp

/-- **Above a location is the location without its last name.** -/
theorem parent?_pathTo (hl : ∀ n ∈ l, IsName n) (hn : IsName name) :
    parent? (pathTo (l ++ [name])) = some (pathTo l) := by
  have hidle : (l.map String.toList).reverse.dropWhile isIdle = (l.map String.toList).reverse := by
    cases l using List.reverseRecOn with
    | nil => rfl
    | append_singleton l n =>
      rw [List.map_append, List.reverse_append, List.map_singleton, List.reverse_singleton,
        List.singleton_append, List.dropWhile_cons_of_neg]
      rw [(hl n (by simp)).isIdle_eq]
      exact Bool.false_ne_true
  rw [parent?, countedSegments_of_cons (reversedSegments_pathTo hl hn) hn.isIdle_eq,
    isRooted_pathTo]
  dsimp only
  rw [if_pos rfl, hidle, Option.some.injEq, ← String.toList_inj, toList_pathTo, ofSegments,
    String.toList_ofList, List.reverse_reverse]
  rfl

theorem parent?_pathTo_nil : parent? (pathTo []) = none := by decide

/-- A path is at least as long as the way that it tells. -/
theorem length_le_length_pathTo (l : Location) : l.length ≤ (pathTo l).length := by
  have hjoined : ∀ ss : List (List Char), ss.length ≤ (joinSegments ss).length + 1 := by
    intro ss
    induction ss with
    | nil => exact Nat.zero_le _
    | cons s ss ih =>
      cases ss with
      | nil => exact Nat.succ_le_succ (Nat.zero_le _)
      | cons r ss =>
        rw [joinSegments_cons (List.cons_ne_nil r ss)]
        simp only [List.length_append, List.length_cons] at ih ⊢
        omega
  have hle := hjoined (l.map String.toList)
  rw [List.length_map] at hle
  rw [← String.length_toList, toList_pathTo, List.length_cons]
  exact hle

/-- **The paths above the path of a location** are those of the locations
above it. -/
theorem ancestors_pathTo (hl : ∀ n ∈ l, IsName n) :
    ancestors (pathTo l) = l.inits.reverse.map pathTo := by
  have hsteps : ∀ steps, l.length ≤ steps →
      ancestorsTo steps (pathTo l) = l.inits.reverse.map pathTo := by
    induction l using List.reverseRecOn with
    | nil =>
      intro steps _
      cases steps with
      | zero => rfl
      | succ steps =>
        rw [ancestorsTo, parent?_pathTo_nil]
        rfl
    | append_singleton l n ih =>
      intro steps hle
      rw [List.length_append, List.length_singleton] at hle
      obtain ⟨steps, rfl⟩ := Nat.exists_eq_succ_of_ne_zero (by omega : steps ≠ 0)
      have hinit : ∀ n ∈ l, IsName n := fun n hn => hl n (List.mem_append_left _ hn)
      rw [ancestorsTo, parent?_pathTo hinit (hl n (by simp))]
      dsimp only
      rw [ih hinit steps (by omega)]
      simp
  exact hsteps _ (length_le_length_pathTo l)

/-! ## What stands in the directories above -/

/-- **Names are followed down** as long as directories stand on the way. -/
theorem FileTree.follow_names (hnames : ∀ n ∈ names, IsName n)
    (hdir : ∀ k, k <+: names → k ≠ names → t.get? (l ++ k) = some .directory) :
    t.follow l (names.map String.toList) = .ok (l ++ names) := by
  induction names generalizing l with
  | nil => rw [List.append_nil]; rfl
  | cons n names ih =>
    have hn := hnames n List.mem_cons_self
    have hl : t.get? l = some .directory := by
      simpa using hdir [] List.nil_prefix (List.cons_ne_nil n names).symm
    rw [List.map_cons, FileTree.follow, hl]
    dsimp only
    rw [if_neg (by rw [hn.isIdle_eq]; exact Bool.false_ne_true), if_neg hn.toList_ne_up,
      String.ofList_toList, if_neg (Nat.not_lt.2 hn.size_le),
      ih (fun n h => hnames n (List.mem_cons_of_mem _ h)) fun k hk hne => ?_]
    · rw [List.append_assoc, List.singleton_append]
    · rw [List.append_assoc, List.singleton_append]
      exact hdir (n :: k) (List.cons_prefix_cons.2 ⟨rfl, hk⟩) fun he => hne (List.cons.inj he).2

/-- In a closed tree a directory stands in directories. -/
theorem FileTree.Closed.get?_of_prefix (ht : t.Closed) (hm : t.get? m = some .directory)
    (h : l <+: m) : t.get? l = some .directory := by
  induction m using List.reverseRecOn with
  | nil => rw [List.prefix_nil.1 h]; rfl
  | append_singleton m n ih =>
    rcases List.prefix_concat_iff.1 h with rfl | h
    · exact hm
    · have hup := ht (m ++ [n]) (hm ▸ Option.some_ne_none _)
      rw [List.dropLast_concat] at hup
      exact ih hup h

namespace Workspace

/-- What the path of a location names. -/
theorem find?_pathTo (hnames : ∀ n ∈ l, IsName n)
    (hdir : ∀ k, k <+: l → k ≠ l → w.tree.get? k = some .directory) :
    w.find? (pathTo l) = w.tree.get? l := by
  have hnul : ¬ (pathTo l).toList.contains '\x00' = true := by
    rw [List.contains_iff_mem, toList_pathTo, List.mem_cons]
    rintro (h | h)
    · exact absurd h (by decide)
    · rcases mem_joinSegments h with h | ⟨s, hs, hmem⟩
      · exact absurd h (by decide)
      · obtain ⟨n, hn, rfl⟩ := List.mem_map.1 hs
        exact (hnames n hn).nul hmem
  have hfollow : w.tree.follow [] (segments (pathTo l).toList) = .ok l := by
    cases l with
    | nil => rfl
    | cons n l =>
      rw [toList_pathTo, segments_slash,
        segments_joinSegments (by simp) (slash_notMem_of_names hnames)]
      exact FileTree.follow_names hnames hdir
  rw [find?, locate, followPath, if_neg hnul, if_neg (by simpa using pathTo_ne l), isRooted_pathTo,
    if_pos rfl, hfollow]

/-- **A name in a directory above the current one** is found through the
path of the directory. -/
theorem Sound.find?_join (hw : w.Sound) (hcwd : ∀ n ∈ w.cwd, IsName n) (hl : l <+: w.cwd)
    (hn : IsName name) : w.find? (join (pathTo l) name) = w.tree.get? (l ++ [name]) := by
  have hnames : ∀ n ∈ l, IsName n := fun n h => hcwd n (hl.subset h)
  have hall := List.forall_mem_append.2 ⟨hnames, List.forall_mem_singleton.2 hn⟩
  rw [join_pathTo hnames hn]
  refine find?_pathTo hall fun k hk hne => ?_
  have hkl : k <+: l := (List.prefix_concat_iff.1 hk).resolve_left hne
  exact hw.closed.get?_of_prefix hw.cwd (hkl.trans hl)

end Workspace

end PageSlots.Files
