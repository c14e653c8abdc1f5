import PageSlots.Proofs.Files.Path

/-!
# Exchanging an extension

An extension is exchanged in two steps, and they do not look for it in the
same place. The first one takes as many characters off the end of the path
as the extension has, whether the name stands there or not; the second one
looks for the name, drops what is behind its stem and sets the other
extension. As a rule the second step makes up for the first: what the first
one has left of the extension, or of what is idle behind the name, goes
with the rest (`withExtension_of_some`).

There is one exception. A name like `..x` has the stem `.`, and at the end
of a path the first step leaves `..` of it. That is no name but the way up,
so the second step finds nothing to do (`withExtension_of_up`).
-/

namespace PageSlots.Files

variable {path name extension : String} {s r : List Char} {outer idle : List (List Char)}
  {front tail : List Char}

/-! ## A name and its extension -/

theorem toList_dotted (stem extension : String) :
    (stem ++ "." ++ extension).toList = stem.toList ++ '.' :: extension.toList := by
  rw [String.toList_append, String.toList_append, List.append_assoc]
  rfl

theorem dotted_ne (stem extension : String) : (stem ++ "." ++ extension).toList ≠ [] := by
  rw [toList_dotted]
  exact List.append_ne_nil_of_right_ne_nil _ (List.cons_ne_nil _ _)

theorem slash_notMem_dotted_iff {stem : String} : '/' ∉ (stem ++ "." ++ extension).toList
    ↔ '/' ∉ stem.toList ∧ '/' ∉ extension.toList := by
  simp

/-- **A name with an extension** is the stem, a dot and the extension. -/
theorem eq_of_splitName (h : (splitName name).2 = some extension) :
    name = (splitName name).1 ++ "." ++ extension
      ∧ '.' ∉ extension.toList ∧ (splitName name).1 ≠ "" := by
  unfold splitName at h ⊢
  dsimp only at h ⊢
  split at h
  · cases h
  · rename_i hstem
    obtain rfl := Option.some.inj h
    rw [if_neg hstem]
    dsimp only
    have hsplit := List.takeWhile_append_dropWhile (p := (· != '.')) (l := name.toList.reverse)
    have hhead := List.head?_dropWhile_not (· != '.') name.toList.reverse
    have hfront : '.' ∉ name.toList.reverse.takeWhile (· != '.') := fun hdot =>
      absurd (List.mem_takeWhile_imp hdot) (by decide)
    cases hback : name.toList.reverse.dropWhile (· != '.') with
    | nil =>
      rw [hback] at hstem
      exact absurd rfl hstem
    | cons c back =>
      rw [hback] at hsplit hhead hstem
      obtain rfl : c = '.' := by simpa using hhead
      rw [List.drop_succ_cons, List.drop_zero] at hstem ⊢
      refine ⟨?_, fun hdot => ?_, fun he => hstem ?_⟩
      · have hname := congrArg List.reverse hsplit
        rw [List.reverse_append, List.reverse_cons, List.append_assoc,
          List.reverse_reverse] at hname
        rw [← String.toList_inj, toList_dotted, String.toList_ofList, String.toList_ofList]
        exact hname.symm
      · rw [String.toList_ofList, List.mem_reverse] at hdot
        exact hfront hdot
      · rw [← String.toList_eq_nil_iff, String.toList_ofList, List.reverse_eq_nil_iff] at he
        rw [he]
        rfl

theorem stem_of_splitName (h : (splitName name).2 = none) : (splitName name).1 = name := by
  unfold splitName at h ⊢
  dsimp only at h ⊢
  split at h
  · rename_i hstem
    rw [if_pos hstem]
  · cases h

/-! ## Setting an extension -/

/-- A path without a name gets no extension. -/
theorem setExtension_of_none (h : fileName? path = none) (extension : String) :
    setExtension path extension = path := by
  unfold setExtension fileStem?
  rw [h]
  rfl

theorem setExtension_of_some (h : countedSegments path = name.toList :: outer)
    (hname : fileName? path = some name) (extension : String) :
    setExtension path extension
      = ofSegments (isRooted path) (((splitName name).1 ++ "." ++ extension).toList :: outer) := by
  unfold setExtension fileStem?
  rw [hname, h]
  dsimp only [Option.map_some]
  rw [String.append_assoc, ofSegments_append, ← String.toList_append, String.append_assoc]

/-- **What stands behind the stem goes**: of the last segment that counts,
and what is idle behind it. -/
theorem setExtension_of_stem {stem other : String} (hstem : stem ≠ "")
    (hother : '.' ∉ other.toList) (hup : stem ≠ "." ∨ other ≠ "")
    (h : reversedSegments path = idle ++ (stem ++ "." ++ other).toList :: outer)
    (hidle : ∀ s ∈ idle, isIdle s = true) (extension : String) :
    setExtension path extension
      = ofSegments (isRooted path) ((stem ++ "." ++ extension).toList :: outer) := by
  have hlength : 0 < stem.toList.length :=
    List.length_pos_iff.2 (mt String.toList_eq_nil_iff.1 hstem)
  have hcounts : isIdle (stem ++ "." ++ other).toList = false := by
    refine isIdle_of_one_lt_length ?_
    rw [toList_dotted, List.length_append, List.length_cons]
    omega
  have hdown : (stem ++ "." ++ other).toList ≠ ['.', '.'] := by
    rw [toList_dotted]
    intro he
    have hone := congrArg List.length he
    rw [List.length_append, List.length_cons, List.length_cons, List.length_singleton] at hone
    have hsplit : stem.toList ++ '.' :: other.toList = ['.'] ++ ['.'] := he
    obtain ⟨hdot, hnil⟩ := List.append_inj hsplit (by rw [List.length_singleton]; omega)
    rcases hup with hne | hne
    · exact hne (String.toList_inj.1 hdot)
    · exact hne (String.toList_eq_nil_iff.1 (List.cons.inj hnil).2)
  have hcounted := countedSegments_of_append h hidle hcounts
  rw [setExtension_of_some hcounted (fileName?_of_counted hcounted hcounts hdown),
    splitName_append hstem hother]

/-! ## The two steps -/

/-- A path with another last segment that counts, and nothing behind it. -/
theorem reversedSegments_replace (hs : s ≠ [])
    (h : reversedSegments path = idle ++ s :: outer) (hr : r ≠ []) (hslash : '/' ∉ r) :
    isRooted (ofSegments (isRooted path) (r :: outer)) = isRooted path
      ∧ reversedSegments (ofSegments (isRooted path) (r :: outer)) = r :: outer := by
  refine reversedSegments_ofSegments (List.cons_ne_nil _ outer)
    (List.forall_mem_cons.2 ⟨hslash, fun s hs => ?_⟩) fun hroot hlast => ?_
  · exact notMem_of_mem_reversedSegments (h ▸ List.mem_append_right idle
      (List.mem_cons_of_mem _ hs))
  · have hne : path ≠ "" := by
      rintro rfl
      have hmem : s ∈ reversedSegments "" := h ▸ List.mem_append_right idle List.mem_cons_self
      rw [reversedSegments_of_notMem (by decide)] at hmem
      exact hs (List.mem_singleton.1 hmem)
    -- the first segment is the new one, or the one that the path has
    have hfirst := getLast?_reversedSegments_ne hne hroot
    rw [h, List.getLast?_append, List.getLast?_cons, Option.some_or] at hfirst
    rw [List.getLast?_cons] at hlast
    cases houter : outer.getLast? with
    | none =>
      rw [houter] at hlast
      exact hr (Option.some.inj hlast)
    | some first =>
      rw [houter] at hlast hfirst
      exact hfirst hlast

/-- What is idle stands behind a slash. -/
theorem toList_ofSegments_append (rooted : Bool) (hne : idle ≠ []) (houter : outer ≠ []) :
    (ofSegments rooted (idle ++ outer)).toList
      = (ofSegments rooted outer).toList ++ '/' :: joinSegments idle.reverse := by
  rw [ofSegments, ofSegments, String.toList_ofList, String.toList_ofList, List.reverse_append,
    joinSegments_append (mt List.reverse_eq_nil_iff.1 houter) (mt List.reverse_eq_nil_iff.1 hne)]
  cases rooted <;> rfl

section
variable {stem x : String} (hstem : stem ≠ "") (hdot : '.' ∉ x.toList)
include hstem hdot

/-- The second step on a path with another last segment. -/
theorem setExtension_replace (hs : s ≠ []) (h : reversedSegments path = idle ++ s :: outer)
    (hup : stem ≠ "." ∨ x ≠ "") (hslash : '/' ∉ (stem ++ "." ++ x).toList) (extension : String) :
    setExtension (ofSegments (isRooted path) ((stem ++ "." ++ x).toList :: outer)) extension
      = ofSegments (isRooted path) ((stem ++ "." ++ extension).toList :: outer) := by
  obtain ⟨hroot, hleft⟩ := reversedSegments_replace hs h (dotted_ne stem x) hslash
  have hset := setExtension_of_stem hstem hdot hup (hleft.trans (List.nil_append _).symm) nofun
  rw [hset, hroot]

/-- The second step on a path whose idle end was cut short. -/
theorem setExtension_take (h : reversedSegments path = idle ++ (stem ++ "." ++ x).toList :: outer)
    (hne : idle ≠ []) (hidle : ∀ s ∈ idle, isIdle s = true) (hup : stem ≠ "." ∨ x ≠ "")
    (hslash : '/' ∉ (stem ++ "." ++ x).toList) (n : Nat) (extension : String) :
    setExtension (String.ofList
        ((ofSegments (isRooted path) ((stem ++ "." ++ x).toList :: outer)).toList
          ++ '/' :: (joinSegments idle.reverse).take n)) extension
      = ofSegments (isRooted path) ((stem ++ "." ++ extension).toList :: outer) := by
  have hnamed := dotted_ne stem x
  obtain ⟨hroot, hfront⟩ := reversedSegments_replace hnamed h hnamed hslash
  have hfrontNe : ofSegments (isRooted path) ((stem ++ "." ++ x).toList :: outer) ≠ "" := by
    intro he
    rw [he, reversedSegments_of_notMem (by decide)] at hfront
    exact hnamed (List.cons.inj hfront).1.symm
  obtain ⟨hroot', hleft⟩ := reversedSegments_of_slash hfrontNe (String.toList_ofList
    (l := (ofSegments (isRooted path) ((stem ++ "." ++ x).toList :: outer)).toList
      ++ '/' :: (joinSegments idle.reverse).take n))
  rw [hfront] at hleft
  have hsegments : segments (joinSegments idle.reverse) = idle.reverse :=
    segments_joinSegments (mt List.reverse_eq_nil_iff.1 hne) fun s hs =>
      notMem_of_mem_reversedSegments (h ▸ List.mem_append_left _ (List.mem_reverse.1 hs))
  rw [setExtension_of_stem hstem hdot hup hleft, hroot', hroot]
  -- what is left of the idle end is idle
  intro s hs
  refine isIdle_of_mem_segments_take (fun s hs => ?_) n s (List.mem_reverse.1 hs)
  rw [hsegments] at hs
  exact hidle s (List.mem_reverse.1 hs)

variable (hname : fileName? path = some (stem ++ "." ++ x))
include hname

/-- What the first step leaves. -/
theorem withExtension_of_toList (h : path.toList = front ++ (x.toList ++ tail))
    (extension : String) : withExtension path extension
      = setExtension (String.ofList (front ++ (x.toList ++ tail).take tail.length)) extension := by
  have hcut : path.toList.length - x.toList.length = front.length + tail.length := by
    rw [h, List.length_append, List.length_append]
    omega
  unfold withExtension extension?
  rw [hname, Option.bind_some, splitName_append hstem hdot, Option.getD_some]
  dsimp only
  rw [hcut, h, List.take_length_add_append]

/-- **At the end of a path** the first step leaves the name up to its
dot. -/
theorem withExtension_of_end (h : reversedSegments path = (stem ++ "." ++ x).toList :: outer)
    (extension : String) : withExtension path extension
      = setExtension (ofSegments (isRooted path) ((stem ++ ".").toList :: outer)) extension := by
  have hpath : path.toList = (ofSegments (isRooted path) ((stem ++ ".").toList :: outer)).toList
      ++ (x.toList ++ []) := by
    rw [List.append_nil, ← String.toList_append, ofSegments_append, ← String.toList_append, ← h,
      ofSegments_reversedSegments]
  rw [withExtension_of_toList hstem hdot hname hpath, List.length_nil, List.take_zero,
    List.append_nil, String.ofList_toList]

/-- **Before an idle end** the first step leaves the name, or the name with
a part of the extension. -/
theorem withExtension_of_idle
    (h : reversedSegments path = idle ++ (stem ++ "." ++ x).toList :: outer) (hne : idle ≠ [])
    (hidle : ∀ s ∈ idle, isIdle s = true) (extension : String) : withExtension path extension
      = ofSegments (isRooted path) ((stem ++ "." ++ extension).toList :: outer) := by
  have hslash := notMem_of_fileName? hname
  -- a name that ends in its dot is none that goes up
  have hup : stem ≠ "." ∨ x ≠ "" := by
    rw [← not_and_or]
    rintro ⟨rfl, rfl⟩
    exact (fileName?_eq_some_iff.1 hname).2.2 (by decide)
  have hpath : path.toList = (ofSegments (isRooted path) ((stem ++ ".").toList :: outer)).toList
      ++ (x.toList ++ '/' :: joinSegments idle.reverse) := by
    rw [← List.append_assoc, ← String.toList_append, ofSegments_append, ← String.toList_append,
      ← toList_ofSegments_append _ hne (List.cons_ne_nil _ outer), ← h,
      ofSegments_reversedSegments]
  rw [withExtension_of_toList hstem hdot hname hpath, List.length_cons]
  rcases Nat.lt_or_ge x.toList.length ((joinSegments idle.reverse).length + 1) with hlt | hge
  · -- all of the name is left, and the beginning of the idle end
    obtain ⟨n, hn⟩ := Nat.exists_eq_add_of_lt hlt
    rw [hn, Nat.add_assoc, List.take_length_add_append, List.take_succ_cons, ← List.append_assoc,
      ← String.toList_append, ofSegments_append, ← String.toList_append]
    exact setExtension_take hstem hdot h hne hidle hup hslash n extension
  · -- a part of the extension is left
    obtain ⟨part, hpart⟩ : ∃ part : String,
        part.toList = x.toList.take ((joinSegments idle.reverse).length + 1) :=
      ⟨String.ofList _, String.toList_ofList⟩
    have hsub : part.toList ⊆ x.toList := hpart ▸ List.take_subset _ _
    have hpartNe : part ≠ "" := by
      rintro rfl
      have hlength := congrArg List.length hpart
      rw [List.length_take_of_le hge] at hlength
      exact Nat.succ_ne_zero _ hlength.symm
    obtain ⟨hstemSlash, hxSlash⟩ := slash_notMem_dotted_iff.1 hslash
    rw [List.take_append_of_le_length hge, ← hpart, ← String.toList_append, String.ofList_toList,
      ofSegments_append, ← String.toList_append]
    exact setExtension_replace hstem (fun hm => hdot (hsub hm)) (dotted_ne stem x) h (.inr hpartNe)
      (slash_notMem_dotted_iff.2 ⟨hstemSlash, fun hm => hxSlash (hsub hm)⟩) extension

end

/-! ## Another extension -/

/-- A path without a name has no extension to exchange. -/
theorem withExtension_of_none (h : fileName? path = none) (extension : String) :
    withExtension path extension = path := by
  unfold withExtension extension?
  rw [h, Option.bind_none, Option.getD_none]
  dsimp only
  rw [String.toList_empty, List.length_nil, Nat.sub_zero, List.take_length, String.ofList_toList,
    setExtension_of_none h]

/-- **Exchanging the extension** changes the name and drops what is idle
behind it, unless the path ends in a name that only its extension keeps from
going up. -/
theorem withExtension_of_some (h : countedSegments path = name.toList :: outer)
    (hname : fileName? path = some name)
    (hup : (splitName name).1 ≠ "." ∨ reversedSegments path ≠ name.toList :: outer)
    (extension : String) : withExtension path extension
      = ofSegments (isRooted path) (((splitName name).1 ++ "." ++ extension).toList :: outer) := by
  obtain ⟨-, idle, hidle, hsegments⟩ :=
    exists_of_countedSegments h (fileName?_eq_some_iff.1 hname).2.1
  cases hx : (splitName name).2 with
  | none =>
    -- there is no extension, so nothing is taken off
    rw [← setExtension_of_some h hname]
    unfold withExtension extension?
    rw [hname, Option.bind_some, hx, Option.getD_none]
    dsimp only
    rw [String.toList_empty, List.length_nil, Nat.sub_zero, List.take_length,
      String.ofList_toList]
  | some x =>
    obtain ⟨hsplit, hdot, hstem⟩ := eq_of_splitName hx
    generalize (splitName name).1 = stem at hsplit hstem hup ⊢
    subst hsplit
    cases idle with
    | cons r idle =>
      exact withExtension_of_idle hstem hdot hname hsegments (List.cons_ne_nil r idle) hidle _
    | nil =>
      obtain ⟨hslash, -⟩ := slash_notMem_dotted_iff.1 (notMem_of_fileName? hname)
      have hend := withExtension_of_end hstem hdot hname hsegments extension
      rw [← String.append_empty (s := stem ++ ".")] at hend
      exact hend.trans (setExtension_replace hstem (by decide) (dotted_ne stem x) hsegments
        (.inl (hup.resolve_right (not_not.2 hsegments)))
        (slash_notMem_dotted_iff.2 ⟨hslash, by decide⟩) extension)

/-- **A name that only its extension keeps from going up** goes up at the end
of a path: the extension is taken off, and none is set. -/
theorem withExtension_of_up (hname : fileName? path = some name)
    (h : reversedSegments path = name.toList :: outer) (hup : (splitName name).1 = ".")
    (extension : String) :
    withExtension path extension = ofSegments (isRooted path) (['.', '.'] :: outer)
      ∧ fileName? (withExtension path extension) = none := by
  obtain ⟨x, hx⟩ : ∃ x, (splitName name).2 = some x := by
    refine Option.ne_none_iff_exists'.1 fun hnone => ?_
    rw [stem_of_splitName hnone] at hup
    exact (fileName?_eq_some_iff.1 hname).2.1 (hup ▸ rfl)
  obtain ⟨hsplit, hdot, -⟩ := eq_of_splitName hx
  rw [hup] at hsplit
  subst hsplit
  have hsegments : reversedSegments path = [] ++ ("." ++ "." ++ x).toList :: outer := h
  obtain ⟨-, hleft⟩ := reversedSegments_replace (r := ['.', '.'])
    (mt String.toList_eq_nil_iff.1 (ne_of_fileName? hname)) hsegments (by decide) (by decide)
  have hnone : fileName? (ofSegments (isRooted path) (['.', '.'] :: outer)) = none := by
    unfold fileName?
    rw [countedSegments_of_cons hleft rfl]
    rfl
  have hend := (withExtension_of_end (by decide) hdot hname h extension).trans
    (setExtension_of_none hnone extension)
  rw [hend]
  exact ⟨rfl, hnone⟩

/-- What is left of a path with another extension. -/
theorem reversedSegments_withExtension (h : countedSegments path = name.toList :: outer)
    (hname : fileName? path = some name)
    (hup : (splitName name).1 ≠ "." ∨ reversedSegments path ≠ name.toList :: outer)
    (hslash : '/' ∉ extension.toList) :
    isRooted (withExtension path extension) = isRooted path
      ∧ reversedSegments (withExtension path extension)
        = ((splitName name).1 ++ "." ++ extension).toList :: outer := by
  obtain ⟨-, idle, -, hsegments⟩ :=
    exists_of_countedSegments h (fileName?_eq_some_iff.1 hname).2.1
  rw [withExtension_of_some h hname hup]
  exact reversedSegments_replace (mt String.toList_eq_nil_iff.1 (ne_of_fileName? hname)) hsegments
    (dotted_ne _ _) (slash_notMem_dotted_iff.2
      ⟨fun hm => notMem_of_fileName? hname (stem_subset name hm), hslash⟩)

/-! ## Names that are joined to a directory -/

/-- A name that is joined to a directory, with what it makes of its path. -/
theorem joined_of_fileStem? {stem : String} (hslash : '/' ∉ name.toList)
    (h : fileStem? name = some stem) (dir : String) : ∃ outer,
      (splitName name).1 = stem ∧ fileName? (join dir name) = some name
        ∧ countedSegments (join dir name) = name.toList :: outer
        ∧ reversedSegments (join dir name) = name.toList :: outer
        ∧ ∀ other : String, other ≠ "" → '/' ∉ other.toList →
          join dir other = ofSegments (isRooted (join dir name)) (other.toList :: outer) := by
  obtain ⟨name', hfile, rfl⟩ := Option.map_eq_some_iff.1 h
  obtain rfl := eq_of_fileName? hslash hfile
  obtain ⟨⟨outer', hcounted'⟩, hdot, hup⟩ := fileName?_eq_some_iff.1 hfile
  obtain ⟨hidle, -⟩ := exists_of_countedSegments hcounted' hdot
  obtain ⟨rooted, outer, hjoin⟩ := exists_reversedSegments_join dir
  obtain ⟨hroot, -, hsegments⟩ := hjoin name (ne_of_fileName? hfile) hslash
  obtain ⟨hcounted, hnamed⟩ := name_of_reversedSegments hsegments hidle hup
  refine ⟨outer, rfl, hnamed, hcounted, hsegments, fun other hne hother => ?_⟩
  obtain ⟨hroot', -, hsegments'⟩ := hjoin other hne hother
  rw [hroot, ← hroot', ← hsegments', ofSegments_reversedSegments]

/-- **Exchanging the extension of a name in a directory** gives the path of
the stem with the other extension, in the same directory. -/
theorem withExtension_join {dir stem : String} (hname : '/' ∉ name.toList)
    (h : fileStem? name = some stem) (hstem : stem ≠ ".") (hslash : '/' ∉ extension.toList) :
    withExtension (join dir name) extension = join dir (stem ++ "." ++ extension) := by
  obtain ⟨outer, rfl, hnamed, hcounted, -, hother⟩ := joined_of_fileStem? hname h dir
  refine (withExtension_of_some hcounted hnamed (.inl hstem) extension).trans (hother _ ?_ ?_).symm
  · exact mt String.toList_eq_nil_iff.2 (dotted_ne _ extension)
  · exact slash_notMem_dotted_iff.2 ⟨fun hm => hname (stem_subset name hm), hslash⟩

/-- With the stem `.` it gives the directory above. -/
theorem withExtension_join_up {dir : String} (hname : '/' ∉ name.toList)
    (h : fileStem? name = some ".") (extension : String) :
    withExtension (join dir name) extension = join dir ".." := by
  obtain ⟨outer, hup, hnamed, -, hsegments, hother⟩ := joined_of_fileStem? hname h dir
  exact (withExtension_of_up hnamed hsegments hup extension).1.trans
    (hother ".." (by decide) (by decide)).symm

end PageSlots.Files
