import Mathlib.Data.List.TakeWhile
import PageSlots.Files.Path

/-!
# The segments of a path

A path is cut at its slashes, and a path is put together from segments
with slashes between them. Both are inverse to each other as long as no
segment has a slash of its own, and every question about a path is settled
on its segments. `reversedSegments` lists them from the last one on,
without the empty one in front of a path from the root; which of them
count depends on the idle ones at its front alone
(`countedSegments_cases`).

Joining a name to a directory puts the name in front of the segments of the
directory (`exists_reversedSegments_join`).
-/

namespace PageSlots.Files

variable {path name : String} {s : List Char} {ss outer : List (List Char)} {c : Char}

/-! ## Cutting and joining -/

theorem segments_slash (text : List Char) : segments ('/' :: text) = [] :: segments text := by
  rw [segments, if_pos rfl]

theorem segments_cons (h : c ≠ '/') {text : List Char} (hs : segments text = s :: ss) :
    segments (c :: text) = (c :: s) :: ss := by
  rw [segments, if_neg h, hs]

theorem exists_segments_eq_cons (text : List Char) : ∃ s ss, segments text = s :: ss :=
  List.exists_cons_of_ne_nil (segments_ne_nil text)

/-- **A slash ends a segment.** -/
theorem segments_append (a b : List Char) :
    segments (a ++ '/' :: b) = segments a ++ segments b := by
  induction a with
  | nil => exact segments_slash b
  | cons c a ih =>
    rw [List.cons_append]
    by_cases hc : c = '/'
    · rw [hc, segments_slash, segments_slash, ih, List.cons_append]
    · obtain ⟨s, ss, hs⟩ := exists_segments_eq_cons a
      rw [hs, List.cons_append] at ih
      rw [segments_cons hc hs, segments_cons hc ih, List.cons_append]

/-- **What two texts meet in is one segment** of the text that they
make. -/
theorem exists_segments_append (a b : List Char) : ∃ front s r back,
    segments a = front ++ [s] ∧ segments b = r :: back
      ∧ segments (a ++ b) = front ++ (s ++ r) :: back := by
  induction a with
  | nil =>
    obtain ⟨r, back, hb⟩ := exists_segments_eq_cons b
    exact ⟨[], [], r, back, rfl, hb, hb⟩
  | cons c a ih =>
    obtain ⟨front, s, r, back, ha, hb, hab⟩ := ih
    by_cases hc : c = '/'
    · rw [hc, List.cons_append, segments_slash, segments_slash, ha, hab]
      exact ⟨[] :: front, s, r, back, rfl, hb, rfl⟩
    · rw [List.cons_append]
      cases front with
      | nil => exact ⟨[], c :: s, r, back, segments_cons hc ha, hb, segments_cons hc hab⟩
      | cons first front =>
        exact ⟨(c :: first) :: front, s, r, back, segments_cons hc ha, hb, segments_cons hc hab⟩

/-- A text without a slash is one segment. -/
theorem segments_of_notMem (h : '/' ∉ s) : segments s = [s] := by
  induction s with
  | nil => rfl
  | cons c s ih =>
    rw [List.mem_cons, not_or] at h
    exact segments_cons (Ne.symm h.1) (ih h.2)

/-- No segment has a slash. -/
theorem notMem_of_mem_segments {text : List Char} (h : s ∈ segments text) : '/' ∉ s := by
  induction text generalizing s with
  | nil =>
    rw [List.mem_singleton.1 h]
    exact List.not_mem_nil
  | cons c text ih =>
    by_cases hc : c = '/'
    · rw [hc, segments_slash] at h
      rcases List.mem_cons.1 h with rfl | h
      · exact List.not_mem_nil
      · exact ih h
    · obtain ⟨r, rs, hr⟩ := exists_segments_eq_cons text
      rw [segments_cons hc hr] at h
      rcases List.mem_cons.1 h with rfl | h
      · refine fun hm => (List.mem_cons.1 hm).elim (fun he => hc he.symm) fun hm => ?_
        exact ih (hr ▸ List.mem_cons_self) hm
      · exact ih (hr ▸ List.mem_cons_of_mem r h)

/-- **Segments that are joined are cut again.** -/
theorem segments_joinSegments (hne : ss ≠ []) (h : ∀ s ∈ ss, '/' ∉ s) :
    segments (joinSegments ss) = ss := by
  induction ss with
  | nil => exact absurd rfl hne
  | cons s ss ih =>
    have hs := segments_of_notMem (h s List.mem_cons_self)
    cases ss with
    | nil => exact hs
    | cons r ss =>
      have hrest := ih (List.cons_ne_nil r ss) fun x hx => h x (List.mem_cons_of_mem s hx)
      rw [joinSegments, segments_append, hs, hrest, List.singleton_append]
      exact List.cons_ne_nil r ss

theorem joinSegments_cons (hne : ss ≠ []) (s : List Char) :
    joinSegments (s :: ss) = s ++ '/' :: joinSegments ss := by
  rw [joinSegments]
  exact hne

/-- **Segments that are joined to others** stand behind a slash. -/
theorem joinSegments_append (hne : ss ≠ []) (houter : outer ≠ []) :
    joinSegments (ss ++ outer) = joinSegments ss ++ '/' :: joinSegments outer := by
  induction ss with
  | nil => exact absurd rfl hne
  | cons s ss ih =>
    cases ss with
    | nil => exact joinSegments_cons houter s
    | cons r ss =>
      have hne := List.cons_ne_nil r ss
      rw [List.cons_append, joinSegments_cons (List.append_ne_nil_of_left_ne_nil hne _), ih hne,
        joinSegments_cons hne, List.append_assoc, List.cons_append]

/-- What is put behind joined segments is put behind the last one. -/
theorem joinSegments_concat (ss : List (List Char)) (s e : List Char) :
    joinSegments (ss ++ [s]) ++ e = joinSegments (ss ++ [s ++ e]) := by
  by_cases hne : ss = []
  · rw [hne]
    rfl
  · rw [joinSegments_append hne (List.cons_ne_nil _ _),
      joinSegments_append hne (List.cons_ne_nil _ _), List.append_assoc]
    rfl

/-- Joined segments begin as the first one does. -/
theorem head?_joinSegments (h : s ≠ []) (ss : List (List Char)) :
    (joinSegments (s :: ss)).head? = s.head? := by
  cases ss with
  | nil => rfl
  | cons r ss =>
    obtain ⟨c, s, rfl⟩ := List.exists_cons_of_ne_nil h
    rw [joinSegments]
    · rfl
    · exact List.cons_ne_nil r ss

/-- Joined segments have slashes, and what the segments have. -/
theorem mem_joinSegments (h : c ∈ joinSegments ss) : c = '/' ∨ ∃ s ∈ ss, c ∈ s := by
  induction ss with
  | nil => exact absurd h List.not_mem_nil
  | cons s ss ih =>
    cases ss with
    | nil => exact .inr ⟨s, List.mem_cons_self, h⟩
    | cons r ss =>
      rw [joinSegments, List.mem_append, List.mem_cons] at h
      · rcases h with h | h | h
        · exact .inr ⟨s, List.mem_cons_self, h⟩
        · exact .inl h
        · rcases ih h with hslash | ⟨x, hx, hc⟩
          · exact .inl hslash
          · exact .inr ⟨x, List.mem_cons_of_mem s hx, hc⟩
      · exact List.cons_ne_nil r ss

/-! ## The segments that count -/

/-- **The segments of a path**, last one first. For a path from the root
the empty one in front is left out. -/
def reversedSegments (path : String) : List (List Char) :=
  (segments (if isRooted path then path.toList.drop 1 else path.toList)).reverse

theorem isRooted_iff : isRooted path = true ↔ ∃ text, path.toList = '/' :: text := by
  unfold isRooted
  rw [decide_eq_true_iff]
  cases path.toList with
  | nil => exact ⟨nofun, nofun⟩
  | cons c text =>
    rw [List.head?_cons, Option.some.injEq]
    exact ⟨fun h => ⟨text, h ▸ rfl⟩, fun ⟨_, h⟩ => (List.cons.inj h).1⟩

theorem reversedSegments_of_rooted {text : List Char} (h : path.toList = '/' :: text) :
    reversedSegments path = (segments text).reverse := by
  rw [reversedSegments, if_pos (isRooted_iff.2 ⟨text, h⟩), h, List.drop_one, List.tail_cons]

theorem reversedSegments_of_not_rooted (h : isRooted path = false) :
    reversedSegments path = (segments path.toList).reverse := by
  rw [reversedSegments, h]
  rfl

theorem notMem_of_mem_reversedSegments (h : s ∈ reversedSegments path) : '/' ∉ s :=
  notMem_of_mem_segments (List.mem_reverse.1 h)

/-- **A path is made of its segments.** -/
theorem ofSegments_reversedSegments (path : String) :
    ofSegments (isRooted path) (reversedSegments path) = path := by
  rw [← String.toList_inj, ofSegments, String.toList_ofList]
  cases hr : isRooted path with
  | true =>
    obtain ⟨text, htext⟩ := isRooted_iff.1 hr
    rw [reversedSegments_of_rooted htext, List.reverse_reverse, joinSegments_segments, htext]
    rfl
  | false =>
    rw [reversedSegments_of_not_rooted hr, List.reverse_reverse, joinSegments_segments]
    rfl

/-- The first segment of a path that is not from the root is not empty. -/
theorem getLast?_reversedSegments_ne (hne : path ≠ "") (h : isRooted path = false) :
    (reversedSegments path).getLast? ≠ some [] := by
  rw [reversedSegments_of_not_rooted h, List.getLast?_reverse]
  cases htext : path.toList with
  | nil => exact absurd (String.toList_eq_nil_iff.1 htext) hne
  | cons c text =>
    have hc : c ≠ '/' := by
      rintro rfl
      exact Bool.false_ne_true (h.symm.trans (isRooted_iff.2 ⟨text, htext⟩))
    obtain ⟨s, ss, hs⟩ := exists_segments_eq_cons text
    rw [segments_cons hc hs, List.head?_cons]
    exact fun he => List.cons_ne_nil c s (Option.some.inj he)

/-- A segment of several characters counts. -/
theorem isIdle_of_one_lt_length (h : 1 < s.length) : isIdle s = false := by
  have hempty : s ≠ [] := fun he => by simp [he] at h
  have hdot : s ≠ ['.'] := fun he => by simp [he] at h
  simp [isIdle, hempty, hdot]

/-- What an idle segment begins with is idle. -/
theorem isIdle_of_append {r : List Char} (h : isIdle (s ++ r) = true) : isIdle s = true := by
  cases s with
  | nil => rfl
  | cons c s =>
    have hlength : ¬ 1 < (c :: s ++ r).length := fun hlt =>
      Bool.noConfusion ((isIdle_of_one_lt_length hlt).symm.trans h)
    obtain ⟨rfl, rfl⟩ : s = [] ∧ r = [] := by
      simpa [List.length_append] using hlength
    exact h

/-- The beginning of a text of idle segments has idle segments only. -/
theorem isIdle_of_mem_segments_take {text : List Char} (h : ∀ s ∈ segments text, isIdle s = true)
    (n : Nat) : ∀ s ∈ segments (text.take n), isIdle s = true := by
  obtain ⟨front, s, r, back, hfront, -, hboth⟩ :=
    exists_segments_append (text.take n) (text.drop n)
  rw [List.take_append_drop] at hboth
  rw [hboth] at h
  rw [hfront]
  refine List.forall_mem_append.2 ⟨fun s hs => h s (List.mem_append_left _ hs), ?_⟩
  exact List.forall_mem_singleton.2
    (isIdle_of_append (h (s ++ r) (List.mem_append_right front List.mem_cons_self)))

/-- Dropping what is idle leaves a lone `.` at most. -/
theorem dropIdle_cases (ss : List (List Char)) :
    dropIdle ss = ss.dropWhile isIdle ∨ (ss.dropWhile isIdle = [] ∧ dropIdle ss = [['.']]) := by
  induction ss with
  | nil => exact .inl rfl
  | cons s ss ih =>
    cases ss with
    | nil =>
      by_cases hs : s = []
      · exact .inl (by rw [hs]; rfl)
      · by_cases hdot : s = ['.']
        · exact .inr (by rw [hdot]; exact ⟨rfl, rfl⟩)
        · have hidle : isIdle s = false := by simp [isIdle, hs, hdot]
          exact .inl (by rw [dropIdle, if_neg hs, List.dropWhile_cons, hidle]; rfl)
    | cons r ss =>
      by_cases hidle : isIdle s = true
      · rw [dropIdle, if_pos hidle, List.dropWhile_cons, if_pos hidle]
        · exact ih
        · exact List.cons_ne_nil r ss
      · rw [dropIdle, if_neg hidle, List.dropWhile_cons, if_neg hidle]
        · exact .inl rfl
        · exact List.cons_ne_nil r ss

/-- **What counts of a path** comes behind what is idle; a path of idle
segments alone may count as a lone `.`. -/
theorem countedSegments_cases (path : String) :
    countedSegments path = (reversedSegments path).dropWhile isIdle
      ∨ ((reversedSegments path).dropWhile isIdle = [] ∧ countedSegments path = [['.']]) := by
  unfold countedSegments
  by_cases hr : isRooted path = true
  · obtain ⟨text, htext⟩ := isRooted_iff.1 hr
    rw [if_pos hr, reversedSegments_of_rooted htext, htext, List.drop_one, List.tail_cons]
    dsimp only
    split
    · rename_i hall
      exact .inl (List.dropWhile_eq_nil_iff.2 (List.all_eq_true.1 hall)).symm
    · exact .inl rfl
  · rw [if_neg hr, reversedSegments_of_not_rooted (Bool.eq_false_iff.2 hr)]
    exact dropIdle_cases _

/-- What counts is a segment that is not idle, with all before it. -/
theorem exists_of_countedSegments (h : countedSegments path = s :: outer) (hs : s ≠ ['.']) :
    isIdle s = false ∧ ∃ idle, (∀ r ∈ idle, isIdle r = true)
      ∧ reversedSegments path = idle ++ s :: outer := by
  rcases countedSegments_cases path with hc | ⟨-, hc⟩
  · rw [hc] at h
    refine ⟨?_, (reversedSegments path).takeWhile isIdle, fun r hr => List.mem_takeWhile_imp hr, ?_⟩
    · have hhead := List.head?_dropWhile_not isIdle (reversedSegments path)
      rwa [h, List.head?_cons] at hhead
    · rw [← h, List.takeWhile_append_dropWhile]
  · rw [hc] at h
    exact absurd (List.cons.inj h).1.symm hs

/-- **What counts** is what is not idle, with all before it. -/
theorem countedSegments_of_append {idle : List (List Char)}
    (h : reversedSegments path = idle ++ s :: outer) (hidle : ∀ r ∈ idle, isIdle r = true)
    (hs : isIdle s = false) : countedSegments path = s :: outer := by
  have hdrop : (reversedSegments path).dropWhile isIdle = s :: outer := by
    rw [h, List.dropWhile_append_of_pos hidle, List.dropWhile_cons, hs]
    rfl
  rcases countedSegments_cases path with hc | ⟨hc, -⟩
  · exact hc.trans hdrop
  · exact absurd (hdrop.symm.trans hc) (List.cons_ne_nil s outer)

theorem countedSegments_of_cons (h : reversedSegments path = s :: outer) (hs : isIdle s = false) :
    countedSegments path = s :: outer := by
  have happend : reversedSegments path = [] ++ s :: outer := h
  exact countedSegments_of_append happend nofun hs

/-- **A path without one above it** has idle segments only. -/
theorem isIdle_of_parent?_eq_none (h : parent? path = none) :
    ∀ s ∈ segments path.toList, isIdle s = true := by
  have hcounted : countedSegments path = [] := by
    unfold parent? at h
    cases hc : countedSegments path with
    | nil => rfl
    | cons s outer =>
      rw [hc] at h
      cases h
  have hidle : ∀ s ∈ reversedSegments path, isIdle s = true := by
    rcases countedSegments_cases path with hc | ⟨-, hc⟩
    · exact List.dropWhile_eq_nil_iff.1 (hc.symm.trans hcounted)
    · cases hcounted.symm.trans hc
  intro s hs
  cases hr : isRooted path with
  | true =>
    obtain ⟨text, htext⟩ := isRooted_iff.1 hr
    rw [htext, segments_slash, List.mem_cons] at hs
    rcases hs with rfl | hs
    · rfl
    · exact hidle s (reversedSegments_of_rooted htext ▸ List.mem_reverse.2 hs)
  | false => exact hidle s (reversedSegments_of_not_rooted hr ▸ List.mem_reverse.2 hs)

/-- **The name of a path** is the first segment that counts. -/
theorem fileName?_eq_some_iff : fileName? path = some name
    ↔ (∃ outer, countedSegments path = name.toList :: outer)
      ∧ name.toList ≠ ['.'] ∧ name.toList ≠ ['.', '.'] := by
  unfold fileName?
  cases countedSegments path with
  | nil => exact ⟨nofun, fun ⟨⟨_, h⟩, _⟩ => nomatch h⟩
  | cons s outer =>
    dsimp only
    by_cases hs : s = ['.'] ∨ s = ['.', '.']
    · rw [if_pos (by simpa using hs)]
      refine ⟨nofun, fun ⟨⟨_, h⟩, hdot, hup⟩ => ?_⟩
      rw [(List.cons.inj h).1] at hs
      exact absurd hs (not_or.2 ⟨hdot, hup⟩)
    · rw [if_neg (by simpa using hs), Option.some.injEq]
      constructor
      · rintro rfl
        rw [String.toList_ofList]
        exact ⟨⟨outer, rfl⟩, not_or.1 hs⟩
      · rintro ⟨⟨_, h⟩, -⟩
        rw [(List.cons.inj h).1, String.ofList_toList]

/-- **A segment that counts is a name**, unless it goes up. -/
theorem fileName?_of_counted (h : countedSegments path = name.toList :: outer)
    (hidle : isIdle name.toList = false) (hup : name.toList ≠ ['.', '.']) :
    fileName? path = some name := by
  refine fileName?_eq_some_iff.2 ⟨⟨outer, h⟩, fun hdot => ?_, hup⟩
  rw [hdot] at hidle
  exact Bool.noConfusion hidle

/-- A segment that counts and does not go up is the name of its path. -/
theorem name_of_reversedSegments (h : reversedSegments path = name.toList :: outer)
    (hidle : isIdle name.toList = false) (hup : name.toList ≠ ['.', '.']) :
    countedSegments path = name.toList :: outer ∧ fileName? path = some name :=
  have hcounted := countedSegments_of_cons h hidle
  ⟨hcounted, fileName?_of_counted hcounted hidle hup⟩

/-- A name has no slash. -/
theorem notMem_of_fileName? (h : fileName? path = some name) : '/' ∉ name.toList := by
  obtain ⟨⟨outer, hc⟩, hdot, -⟩ := fileName?_eq_some_iff.1 h
  obtain ⟨-, idle, -, hsegments⟩ := exists_of_countedSegments hc hdot
  exact notMem_of_mem_reversedSegments
    (hsegments ▸ List.mem_append_right idle List.mem_cons_self)

/-- A name is not empty. -/
theorem ne_of_fileName? (h : fileName? path = some name) : name ≠ "" := by
  obtain ⟨⟨outer, hc⟩, hdot, -⟩ := fileName?_eq_some_iff.1 h
  obtain ⟨hidle, -⟩ := exists_of_countedSegments hc hdot
  rintro rfl
  exact Bool.false_ne_true hidle.symm

/-- **A path without a name** ends in a segment that goes up, if anything
in it counts. -/
theorem nameless_of_fileName?_eq_none (h : fileName? path = none) :
    ∀ s ∈ ((reversedSegments path).dropWhile isIdle).head?, s = ['.', '.'] := by
  intro s hs
  rcases countedSegments_cases path with hc | ⟨hnil, -⟩
  · unfold fileName? at h
    rw [← hc] at hs
    cases hcounted : countedSegments path with
    | nil =>
      rw [hcounted] at hs
      cases hs
    | cons r outer =>
      rw [hcounted] at h hs
      obtain rfl : r = s := Option.some.inj hs
      have hidle := List.head?_dropWhile_not isIdle (reversedSegments path)
      rw [← hc, hcounted, List.head?_cons] at hidle
      by_contra hup
      have hdot : r ≠ ['.'] := by
        rintro rfl
        exact Bool.false_ne_true hidle.symm
      simp [hdot, hup] at h
  · rw [hnil] at hs
    cases hs

/-! ## Stems -/

/-- A stem is made of characters of the name, and is not empty unless the
name is. -/
theorem stem_subset (name : String) : (splitName name).1.toList ⊆ name.toList := by
  unfold splitName
  dsimp only
  split
  · exact List.Subset.refl _
  · rw [String.toList_ofList]
    intro c hc
    exact List.mem_reverse.1 ((List.dropWhile_sublist _).subset
      ((List.drop_sublist 1 _).subset (List.mem_reverse.1 hc)))

theorem stem_ne (h : name ≠ "") : (splitName name).1 ≠ "" := by
  unfold splitName
  dsimp only
  split
  · exact h
  · rename_i hstem
    intro he
    rw [← String.toList_eq_nil_iff, String.toList_ofList, List.reverse_eq_nil_iff] at he
    exact hstem (List.isEmpty_iff.2 he)

/-- The stem of a path has no slash, and is not empty. -/
theorem stem_of_fileStem? {stem : String} (h : fileStem? path = some stem) :
    stem ≠ "" ∧ '/' ∉ stem.toList := by
  obtain ⟨name, hname, rfl⟩ := Option.map_eq_some_iff.1 h
  exact ⟨stem_ne (ne_of_fileName? hname),
    fun hm => notMem_of_fileName? hname (stem_subset name hm)⟩

/-- **What stands before the last dot is the stem**, unless nothing does. -/
theorem splitName_append {stem extension : String} (hstem : stem ≠ "")
    (hdot : '.' ∉ extension.toList) :
    splitName (stem ++ "." ++ extension) = (stem, some extension) := by
  have hreversed : (stem ++ "." ++ extension).toList.reverse
      = extension.toList.reverse ++ '.' :: stem.toList.reverse := by
    rw [String.toList_append, String.toList_append, List.reverse_append, List.reverse_append]
    rfl
  have hfront : ∀ c ∈ extension.toList.reverse, (c != '.') = true := fun c hc =>
    bne_iff_ne.2 fun he => hdot (he ▸ List.mem_reverse.1 hc)
  have hne : stem.toList.reverse ≠ [] := fun he =>
    hstem (String.toList_eq_nil_iff.1 (List.reverse_eq_nil_iff.1 he))
  unfold splitName
  dsimp only
  rw [hreversed, List.dropWhile_append_of_pos hfront, List.takeWhile_append_of_pos hfront,
    List.dropWhile_cons_of_neg (by decide), List.takeWhile_cons_of_neg (by decide),
    List.drop_succ_cons, List.drop_zero, if_neg (by simpa using hne), List.append_nil,
    List.reverse_reverse, List.reverse_reverse, String.ofList_toList, String.ofList_toList]

/-! ## Making paths -/

/-- **What stands behind the last slash** is the first segment; what stands
before that slash decides the others. -/
theorem exists_reversedSegments_of_slash (text : List Char) : ∃ rooted outer, ∀ path s,
    path.toList = text ++ '/' :: s → '/' ∉ s →
      isRooted path = rooted ∧ reversedSegments path = s :: outer := by
  cases text with
  | nil =>
    refine ⟨true, [], fun path s hpath hs => ⟨isRooted_iff.2 ⟨s, hpath⟩, ?_⟩⟩
    rw [reversedSegments_of_rooted hpath, segments_of_notMem hs, List.reverse_singleton]
  | cons c text =>
    by_cases hc : c = '/'
    · refine ⟨true, (segments text).reverse, fun path s hpath hs => ?_⟩
      have hroot : path.toList = '/' :: (text ++ '/' :: s) := hc ▸ hpath
      refine ⟨isRooted_iff.2 ⟨_, hroot⟩, ?_⟩
      rw [reversedSegments_of_rooted hroot, segments_append, segments_of_notMem hs,
        List.reverse_append, List.reverse_singleton, List.singleton_append]
    · refine ⟨false, (segments (c :: text)).reverse, fun path s hpath hs => ?_⟩
      have hroot : isRooted path = false := Bool.eq_false_iff.2 fun hr => by
        obtain ⟨rest, hrest⟩ := isRooted_iff.1 hr
        rw [hpath, List.cons_append] at hrest
        exact hc (List.cons.inj hrest).1
      refine ⟨hroot, ?_⟩
      rw [reversedSegments_of_not_rooted hroot, hpath, segments_append, segments_of_notMem hs,
        List.reverse_append, List.reverse_singleton, List.singleton_append]

/-- What stands behind a slash makes further segments. -/
theorem reversedSegments_of_slash {front : String} {text : List Char} (hne : front ≠ "")
    (h : path.toList = front.toList ++ '/' :: text) : isRooted path = isRooted front
      ∧ reversedSegments path = (segments text).reverse ++ reversedSegments front := by
  have hhead : isRooted path = isRooted front := by
    obtain ⟨c, rest, hfront⟩ := List.exists_cons_of_ne_nil (mt String.toList_eq_nil_iff.1 hne)
    unfold isRooted
    rw [h, hfront]
    rfl
  refine ⟨hhead, ?_⟩
  cases hr : isRooted front with
  | true =>
    obtain ⟨rest, hrest⟩ := isRooted_iff.1 hr
    rw [hrest, List.cons_append] at h
    rw [reversedSegments_of_rooted h, reversedSegments_of_rooted hrest, segments_append,
      List.reverse_append]
  | false =>
    rw [reversedSegments_of_not_rooted (hhead.trans hr), reversedSegments_of_not_rooted hr, h,
      segments_append, List.reverse_append]

theorem isRooted_of_notMem (h : '/' ∉ name.toList) : isRooted name = false :=
  Bool.eq_false_iff.2 fun hr => by
    obtain ⟨text, htext⟩ := isRooted_iff.1 hr
    exact h (htext ▸ List.mem_cons_self)

/-- A text without a slash is one segment of a path. -/
theorem reversedSegments_of_notMem (h : '/' ∉ name.toList) :
    reversedSegments name = [name.toList] := by
  rw [reversedSegments_of_not_rooted (isRooted_of_notMem h), segments_of_notMem h,
    List.reverse_singleton]

/-- **A text without a slash that has a name is its name.** -/
theorem eq_of_fileName? {text : String} (h : '/' ∉ text.toList)
    (hname : fileName? text = some name) : text = name := by
  obtain ⟨⟨outer, hcounted⟩, hdot, -⟩ := fileName?_eq_some_iff.1 hname
  obtain ⟨-, idle, -, hsegments⟩ := exists_of_countedSegments hcounted hdot
  rw [reversedSegments_of_notMem h] at hsegments
  cases idle with
  | nil => exact String.toList_inj.1 (List.cons.inj hsegments).1
  | cons r idle =>
    exact absurd (List.cons.inj hsegments).2.symm
      (List.append_ne_nil_of_right_ne_nil idle (List.cons_ne_nil _ _))

/-- In front of a name that is joined to a directory stands a slash. -/
theorem exists_toList_join {dir : String} (hdir : dir ≠ "") : ∃ text, ∀ name : String,
    '/' ∉ name.toList → (join dir name).toList = text ++ '/' :: name.toList := by
  by_cases hlast : dir.toList.getLast? = some '/'
  · obtain ⟨text, htext⟩ := List.getLast?_eq_some_iff.1 hlast
    refine ⟨text, fun name hslash => ?_⟩
    rw [join, isRooted_of_notMem hslash, if_neg Bool.false_ne_true, if_pos (by simp [hlast]),
      String.toList_append, htext, List.append_assoc, List.singleton_append]
  · refine ⟨dir.toList, fun name hslash => ?_⟩
    have hempty : dir.isEmpty = false := by simpa using hdir
    rw [join, isRooted_of_notMem hslash, if_neg Bool.false_ne_true,
      if_neg (by simp [hempty, hlast]), String.toList_append, String.toList_append,
      List.append_assoc]
    rfl

/-- **Joining a name to a directory** puts the name in front of segments
that the directory alone decides. -/
theorem exists_reversedSegments_join (dir : String) : ∃ rooted outer, ∀ name : String,
    name ≠ "" → '/' ∉ name.toList → isRooted (join dir name) = rooted
      ∧ join dir name ≠ "" ∧ reversedSegments (join dir name) = name.toList :: outer := by
  by_cases hdir : dir = ""
  · refine ⟨false, [], fun name hne hslash => ?_⟩
    have hroot := isRooted_of_notMem hslash
    have hpath : join dir name = name := by
      rw [join, hroot, hdir]
      exact String.empty_append
    rw [hpath, reversedSegments_of_not_rooted hroot, segments_of_notMem hslash]
    exact ⟨hroot, hne, rfl⟩
  · obtain ⟨text, htext⟩ := exists_toList_join hdir
    obtain ⟨rooted, outer, houter⟩ := exists_reversedSegments_of_slash text
    refine ⟨rooted, outer, fun name _ hslash => ?_⟩
    obtain ⟨hroot, hsegments⟩ := houter (join dir name) name.toList (htext name hslash) hslash
    refine ⟨hroot, fun he => ?_, hsegments⟩
    have hempty := htext name hslash
    rw [he] at hempty
    exact List.append_ne_nil_of_right_ne_nil text (List.cons_ne_nil _ _) hempty.symm

/-- **Segments that are made a path** are its segments, unless the first
one is empty and the path not from the root. -/
theorem reversedSegments_ofSegments {rooted : Bool} (hne : ss ≠ []) (h : ∀ s ∈ ss, '/' ∉ s)
    (hfirst : rooted = false → ss.getLast? ≠ some []) :
    isRooted (ofSegments rooted ss) = rooted ∧ reversedSegments (ofSegments rooted ss) = ss := by
  have hcut : segments (joinSegments ss.reverse) = ss.reverse :=
    segments_joinSegments (mt List.reverse_eq_nil_iff.1 hne)
      fun s hs => h s (List.mem_reverse.1 hs)
  cases rooted with
  | true =>
    have htext : (ofSegments true ss).toList = '/' :: joinSegments ss.reverse :=
      String.toList_ofList
    refine ⟨isRooted_iff.2 ⟨_, htext⟩, ?_⟩
    rw [reversedSegments_of_rooted htext, hcut, List.reverse_reverse]
  | false =>
    have htext : (ofSegments false ss).toList = joinSegments ss.reverse := String.toList_ofList
    have hroot : isRooted (ofSegments false ss) = false := Bool.eq_false_iff.2 fun hr => by
      obtain ⟨rest, hrest⟩ := isRooted_iff.1 hr
      cases hrev : ss.reverse with
      | nil => exact hne (List.reverse_eq_nil_iff.1 hrev)
      | cons first others =>
        have hfirst' : first ≠ [] := by
          rintro rfl
          refine hfirst rfl ?_
          rw [← List.head?_reverse, hrev, List.head?_cons]
        have hhead := congrArg List.head? (htext.symm.trans hrest)
        rw [hrev, head?_joinSegments hfirst', List.head?_cons] at hhead
        exact h first (List.mem_reverse.1 (hrev ▸ List.mem_cons_self))
          (List.mem_of_mem_head? hhead)
    refine ⟨hroot, ?_⟩
    rw [reversedSegments_of_not_rooted hroot, htext, hcut, List.reverse_reverse]

/-- What is put behind a path is put behind its last segment. -/
theorem ofSegments_append (rooted : Bool) (s : List Char) (outer : List (List Char))
    (e : String) :
    ofSegments rooted (s :: outer) ++ e = ofSegments rooted ((s ++ e.toList) :: outer) := by
  rw [← String.toList_inj, String.toList_append, ofSegments, ofSegments, String.toList_ofList,
    String.toList_ofList, List.reverse_cons, List.reverse_cons, ← joinSegments_concat]
  cases rooted <;> rfl

/-- Different names joined to a directory are different paths. -/
theorem join_inj {dir a b : String} (ha : a ≠ "") (hb : b ≠ "") (hslashA : '/' ∉ a.toList)
    (hslashB : '/' ∉ b.toList) (h : join dir a = join dir b) : a = b := by
  obtain ⟨rooted, outer, hjoin⟩ := exists_reversedSegments_join dir
  obtain ⟨-, -, hsegmentsA⟩ := hjoin a ha hslashA
  obtain ⟨-, -, hsegmentsB⟩ := hjoin b hb hslashB
  rw [h, hsegmentsB] at hsegmentsA
  exact String.toList_inj.1 (List.cons.inj hsegmentsA).1.symm

/-- Of a path and those above it, the path itself comes first. -/
theorem exists_ancestors_eq_cons (path : String) : ∃ paths, ancestors path = path :: paths := by
  unfold ancestors
  cases path.length with
  | zero => exact ⟨[], rfl⟩
  | succ steps =>
    rw [ancestorsTo]
    cases parent? path with
    | none => exact ⟨[], rfl⟩
    | some parent => exact ⟨ancestorsTo steps parent, rfl⟩

/-- **Paths that are the same have the same last segment**, if it counts. -/
theorem eq_of_samePath {other : String} {r : List Char} {outer' : List (List Char)}
    (hs : countedSegments path = s :: outer) (hr : countedSegments other = r :: outer')
    (hsidle : isIdle s = false) (hridle : isIdle r = false) (h : samePath path other = true) :
    s = r := by
  have hlast : ∀ (s : List Char) (before : List (List Char)) (rooted : Bool), isIdle s = false →
      ((before ++ [s]).take (if rooted then 0 else 1)
        ++ ((before ++ [s]).drop (if rooted then 0 else 1)).filter (!isIdle ·)).getLast?
          = some s := by
    intro s before rooted hidle
    have hkept : ∀ before, (before ++ [s]).filter (!isIdle ·)
        = before.filter (!isIdle ·) ++ [s] := fun before => by
      rw [List.filter_append, List.filter_cons_of_pos (by rw [hidle]; rfl), List.filter_nil]
    cases rooted with
    | true =>
      rw [if_pos rfl, List.take_zero, List.drop_zero, hkept, List.nil_append]
      exact List.getLast?_concat
    | false =>
      rw [if_neg Bool.false_ne_true]
      cases before with
      | nil => rfl
      | cons first before =>
        rw [List.cons_append, List.drop_succ_cons, List.drop_zero, hkept, ← List.append_assoc]
        exact List.getLast?_concat
  unfold samePath at h
  dsimp only at h
  rw [hs, hr, List.reverse_cons, List.reverse_cons] at h
  have hparts := beq_iff_eq.1 (Bool.and_eq_true_iff.1 h).2
  have hlasts := congrArg List.getLast? hparts
  rw [hlast s _ _ hsidle, hlast r _ _ hridle] at hlasts
  exact Option.some.inj hlasts

/-- Paths are the same as themselves. -/
theorem samePath_refl (path : String) : samePath path path = true := by
  unfold samePath
  simp

end PageSlots.Files
