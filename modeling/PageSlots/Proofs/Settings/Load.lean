import PageSlots.Proofs.Files.Ancestors
import PageSlots.Proofs.Settings.Written
import PageSlots.Settings.Load

/-!
# Which settings are loaded

Settings come from the command line, from a file and from defaults, and
only one file is ever in use: the one that is named, or the settings file
in the nearest directory at or above the current one (`InUse`). A directory
of this name is passed over, there and in the search for the nearest.

`load_eq_ok_iff` says what every run gets of them and when. Each setting is
decided on its own. The command line wins; behind it stands what the file
in use gives, which must be accepted as a whole even where it is not asked
for; and behind it the default. The directory for pages is taken as it is
from the command line, but relative to the directory of the file from a
file, with its references replaced, and relative to the current directory
where there is no file.
-/

namespace PageSlots.Settings

open PageSlots.Files PageSlots.Settings.Toml PageSlots.Text

variable {w : Workspace} {env : Environment} {path file : Option String} {o : Overrides}
  {s : Settings}

/-! ## The file in use -/

/-- **A settings file stands at a location.** -/
def HasSettings (w : Workspace) (l : Location) : Prop :=
  ∃ content, w.tree.get? (l ++ [fileName]) = some (.file content)

/-- **The file in use**: the file that is named, or the settings file in
the nearest directory at or above the current one, or none. -/
inductive InUse (w : Workspace) : Option String → Option String → Prop where
  /-- The file that is named. -/
  | named (p : String) : InUse w (some p) (some p)
  /-- The nearest settings file. -/
  | nearest {l : Location} (above : l <+: w.cwd) (has : HasSettings w l)
      (nearest : ∀ m, m <+: w.cwd → l.length < m.length → ¬ HasSettings w m) :
      InUse w none (some (join (pathTo l) fileName))
  /-- There is no file. -/
  | nowhere (no : ∀ l, l <+: w.cwd → ¬ HasSettings w l) : InUse w none none

/-- The longest beginning with a property is the last one of all. -/
theorem find?_inits_eq_some_iff {α : Type} {q : List α → Bool} {l m : List α} :
    m.inits.reverse.find? q = some l
      ↔ l <+: m ∧ q l = true ∧ ∀ k, k <+: m → l.length < k.length → q k = false := by
  induction m using List.reverseRecOn with
  | nil =>
    rw [List.inits, List.reverse_singleton, List.find?_singleton, List.prefix_nil]
    constructor
    · intro h
      obtain ⟨hq, hl⟩ := Option.ite_none_right_eq_some.1 h
      obtain rfl := Option.some.inj hl
      exact ⟨rfl, hq, fun k hk hlt => absurd hlt (by simp [List.prefix_nil.1 hk])⟩
    · rintro ⟨rfl, hq, -⟩
      exact if_pos hq
  | append_singleton m a ih =>
    have hinits : (m ++ [a]).inits.reverse = (m ++ [a]) :: m.inits.reverse := by simp
    rw [hinits]
    by_cases hq : q (m ++ [a]) = true
    · rw [List.find?_cons_of_pos hq, Option.some.injEq]
      constructor
      · rintro rfl
        exact ⟨List.prefix_rfl, hq, fun k hk hlt => absurd hk.length_le (Nat.not_le.2 hlt)⟩
      · rintro ⟨hl, -, hlongest⟩
        rcases List.prefix_concat_iff.1 hl with rfl | hl
        · rfl
        · have hlt : l.length < (m ++ [a]).length := by
            rw [List.length_append]
            exact Nat.lt_succ_of_le hl.length_le
          rw [hlongest _ List.prefix_rfl hlt] at hq
          cases hq
    · rw [List.find?_cons_of_neg hq, ih]
      constructor
      · rintro ⟨hl, hql, hlongest⟩
        refine ⟨hl.trans (List.prefix_append m [a]), hql, fun k hk hlt => ?_⟩
        rcases List.prefix_concat_iff.1 hk with rfl | hk
        · exact Bool.eq_false_iff.2 hq
        · exact hlongest k hk hlt
      · rintro ⟨hl, hql, hlongest⟩
        rcases List.prefix_concat_iff.1 hl with rfl | hl
        · exact absurd hql hq
        · exact ⟨hl, hql, fun k hk => hlongest k (hk.trans (List.prefix_append m [a]))⟩

theorem isName_fileName : IsName fileName := by decide

/-- A settings file is seen through its path. -/
theorem isFile_join_iff (hw : w.Sound) (hcwd : ∀ n ∈ w.cwd, IsName n) {l : Location}
    (hl : l <+: w.cwd) : w.isFile (join (pathTo l) fileName) = true ↔ HasSettings w l := by
  unfold Workspace.isFile HasSettings
  rw [hw.find?_join hcwd hl isName_fileName]
  cases w.tree.get? (l ++ [fileName]) with
  | none => exact ⟨nofun, fun ⟨_, h⟩ => nomatch h⟩
  | some e =>
    cases e with
    | file content => exact ⟨fun _ => ⟨content, rfl⟩, fun _ => rfl⟩
    | directory => exact ⟨nofun, fun ⟨_, h⟩ => nomatch h⟩

/-- **The nearest settings file is found** through its path. -/
theorem inUse_none_iff (hw : w.Sound) (hcwd : ∀ n ∈ w.cwd, IsName n) :
    InUse w none file ↔ nearestFile? w = file := by
  have hsearch : nearestFile? w
      = (w.cwd.inits.reverse.find? fun l => w.isFile (join (pathTo l) fileName)).map
          fun l => join (pathTo l) fileName := by
    rw [nearestFile?, cwdPath_eq, ancestors_pathTo hcwd, List.map_map, List.find?_map]
    rfl
  have hsees : ∀ l, l <+: w.cwd → (w.isFile (join (pathTo l) fileName) = true ↔ HasSettings w l) :=
    fun l => isFile_join_iff hw hcwd
  rw [hsearch]
  constructor
  · rintro (_ | ⟨habove, hhas, hnearest⟩ | hno)
    · refine Option.map_eq_some_iff.2 ⟨_, find?_inits_eq_some_iff.2 ⟨habove, (hsees _ habove).2 hhas,
        fun m hm hlt => Bool.eq_false_iff.2 (mt (hsees m hm).1 (hnearest m hm hlt))⟩, rfl⟩
    · refine Option.map_eq_none_iff.2 (List.find?_eq_none.2 fun l hl => ?_)
      have habove := (List.mem_inits _ _).1 (List.mem_reverse.1 hl)
      exact mt (hsees l habove).1 (hno l habove)
  · rintro rfl
    cases hfind : w.cwd.inits.reverse.find? fun l => w.isFile (join (pathTo l) fileName) with
    | none =>
      refine .nowhere fun l hl => mt (hsees l hl).2 (List.find?_eq_none.1 hfind l ?_)
      exact List.mem_reverse.2 ((List.mem_inits _ _).2 hl)
    | some l =>
      obtain ⟨habove, hfile, hlongest⟩ := find?_inits_eq_some_iff.1 hfind
      refine .nearest habove ((hsees l habove).1 hfile) fun m hm hlt => ?_
      exact mt (hsees m hm).2 (Bool.eq_false_iff.1 (hlongest m hm hlt))

/-! ## What a file gives -/

/-- **What a file says of the directory for pages comes to this.** Neither
what it says nor what that expands to is empty. -/
inductive ExpandsTo (env : Environment) : Option String → String → Prop where
  /-- The file says nothing. -/
  | unsaid : ExpandsTo env none defaultOutputDir
  /-- The file says it, with references. -/
  | said {written dir : String} (expands : expand env written = .ok dir) (written_ne : written ≠ "")
      (dir_ne : dir ≠ "") : ExpandsTo env (some written) dir

/-- **A class name** that can be written into an attribute. -/
structure IsClassName (name : String) : Prop where
  /-- A class has a name. -/
  ne_empty : name ≠ ""
  /-- It is one name, and ends neither the attribute nor the tag. -/
  chars : ∀ c ∈ name.toList, isBlank c = false ∧ c ∉ ['"', '\'', '<', '>', '&']

/-- **The settings are those of a file** with these entries, with what the
command line says in place of what the file says. -/
structure FromFile (w : Workspace) (env : Environment) (o : Overrides) (p : String)
    (entries : List (String × Value)) (written : Written) (dir : String) (s : Settings) :
    Prop where
  /-- The file has these entries. -/
  read : ∃ text, w.readText p = .ok text ∧ readDocument text = some entries
  /-- They may stand in a settings file. -/
  accepted : Accepted entries
  /-- They tell this. -/
  tells : Tells entries written
  /-- The directory that they say is this one. -/
  expands : ExpandsTo env written.outputDir dir
  gfm_eq : s.gfm = o.gfm.getD written.gfm
  anchorClass_eq : s.anchorClass = written.anchorClass
  outputDir_eq : s.outputDir = o.outputDir.getD (join ((parent? p).getD ".") dir)

/-- **The settings are the defaults**, with what the command line says in
their place. -/
structure FromDefaults (w : Workspace) (o : Overrides) (s : Settings) : Prop where
  gfm_eq : s.gfm = o.gfm.getD true
  anchorClass_eq : s.anchorClass = "anchor"
  outputDir_eq : s.outputDir = o.outputDir.getD (join (pathTo w.cwd) defaultOutputDir)

/-- **The settings of a run.** -/
structure Loaded (w : Workspace) (env : Environment) (path : Option String) (o : Overrides)
    (s : Settings) : Prop where
  /-- The file in use is the right one. -/
  inUse : InUse w path s.file
  /-- With a file, the settings are those of the file. -/
  fromFile : ∀ p, s.file = some p → ∃ entries written dir, FromFile w env o p entries written dir s
  /-- Without a file, they are the defaults. -/
  fromDefaults : s.file = none → FromDefaults w o s
  /-- The class of the anchors is one class name. -/
  isClassName : IsClassName s.anchorClass

theorem isClassChar_iff (c : Char) :
    isClassChar c = true ↔ isBlank c = false ∧ c ∉ ['"', '\'', '<', '>', '&'] := by
  simp [isClassChar, and_assoc]

/-- **The settings of a file are valid** if the class is a class name and
the directory not empty. -/
theorem invalid?_eq_none_iff {written : Written} : written.invalid? = none
    ↔ IsClassName written.anchorClass ∧ written.outputDir ≠ some "" := by
  have hclass : IsClassName written.anchorClass ↔ written.anchorClass.isEmpty = false
      ∧ written.anchorClass.toList.all isClassChar = true := by
    rw [List.all_eq_true]
    simp only [isClassChar_iff]
    constructor
    · exact fun h => ⟨by simpa using h.ne_empty, h.chars⟩
    · exact fun h => ⟨by simpa using h.1, h.2⟩
  rw [hclass]
  unfold Written.invalid?
  cases written.anchorClass.isEmpty with
  | true => exact ⟨nofun, nofun⟩
  | false =>
    cases written.anchorClass.toList.all isClassChar with
    | false => exact ⟨nofun, nofun⟩
    | true => simp

theorem isClassName_anchor : IsClassName "anchor" := by
  have hvalid : ({} : Written).invalid? = none := by decide +kernel
  exact (invalid?_eq_none_iff.1 hvalid).1

/-- The settings of a file whose references have been replaced. -/
def settingsOf (p : String) (written : Written) : Except SettingsFault Settings :=
  match written.invalid? with
  | some setting => .error (.invalid setting)
  | none => .ok {
      gfm := written.gfm
      anchorClass := written.anchorClass
      outputDir := join ((parent? p).getD ".") (written.outputDir.getD defaultOutputDir)
      file := some p }

theorem ofFile_of_read {p text : String} {written : Written} (htext : w.readText p = .ok text)
    (hread : Written.read text = some written) :
    ofFile w env p = written.expanded env >>= settingsOf p := by
  unfold ofFile
  rw [htext]
  simp only [pure_bind, hread]
  refine bind_congr fun expanded => ?_
  unfold settingsOf
  cases expanded.invalid? with
  | none => rfl
  | some setting => rfl

theorem exists_read_of_ofFile {p : String} (h : ofFile w env p = .ok s) :
    ∃ text written, w.readText p = .ok text ∧ Written.read text = some written := by
  unfold ofFile at h
  cases htext : w.readText p with
  | error fault =>
    rw [htext] at h
    cases h
  | ok text =>
    rw [htext] at h
    simp only [pure_bind] at h
    cases hread : Written.read text with
    | none =>
      rw [hread] at h
      cases h
    | some written => exact ⟨text, written, rfl, hread⟩

theorem settingsOf_eq_ok_iff {p : String} {written : Written} : settingsOf p written = .ok s
    ↔ IsClassName written.anchorClass ∧ written.outputDir ≠ some ""
      ∧ s = ⟨written.gfm, written.anchorClass,
        join ((parent? p).getD ".") (written.outputDir.getD defaultOutputDir), some p⟩ := by
  rw [← and_assoc, ← invalid?_eq_none_iff, settingsOf]
  cases written.invalid? with
  | none => exact ⟨fun h => ⟨rfl, (Except.ok.inj h).symm⟩, fun h => congrArg Except.ok h.2.symm⟩
  | some setting => exact ⟨nofun, nofun⟩

/-- Nothing expands to nothing. -/
theorem expand_empty (env : Environment) : expand env "" = .ok "" := by
  rw [expand, if_neg (by decide)]

/-- **What a file says of the directory is expanded and checked.** -/
theorem expanded_bind_eq_ok_iff {p : String} {written : Written} :
    written.expanded env >>= settingsOf p = .ok s
      ↔ IsClassName written.anchorClass ∧ ∃ dir, ExpandsTo env written.outputDir dir
        ∧ s = ⟨written.gfm, written.anchorClass, join ((parent? p).getD ".") dir, some p⟩ := by
  obtain ⟨gfm, anchorClass, outputDir⟩ := written
  unfold Written.expanded
  cases outputDir with
  | none =>
    refine settingsOf_eq_ok_iff.trans (and_congr_right' ⟨fun h => ⟨_, .unsaid, h.2⟩, ?_⟩)
    rintro ⟨dir, hsaid, hs⟩
    cases hsaid with
    | unsaid => exact ⟨nofun, hs⟩
  | some written =>
    dsimp only
    cases hexpand : expand env written with
    | error unset =>
      refine ⟨nofun, ?_⟩
      rintro ⟨-, dir, hsaid, -⟩
      cases hsaid with
      | said expands _ _ => cases hexpand.symm.trans expands
    | ok dir =>
      refine settingsOf_eq_ok_iff.trans (and_congr_right' ⟨?_, ?_⟩)
      · rintro ⟨hne, hs⟩
        have hdir : dir ≠ "" := fun he => hne (congrArg some he)
        refine ⟨dir, .said hexpand ?_ hdir, hs⟩
        rintro rfl
        exact hdir (Except.ok.inj (hexpand.symm.trans (expand_empty env)))
      · rintro ⟨dir', hsaid, hs⟩
        cases hsaid with
        | said expands _ dir_ne =>
          obtain rfl := Except.ok.inj (hexpand.symm.trans expands)
          exact ⟨fun he => dir_ne (Option.some.inj he), hs⟩

theorem ofFile_eq_ok_iff {p : String} : ofFile w env p = .ok s
    ↔ ∃ text entries written dir, w.readText p = .ok text ∧ readDocument text = some entries
      ∧ Accepted entries ∧ Tells entries written ∧ IsClassName written.anchorClass
      ∧ ExpandsTo env written.outputDir dir
      ∧ s = ⟨written.gfm, written.anchorClass, join ((parent? p).getD ".") dir, some p⟩ := by
  constructor
  · intro h
    obtain ⟨text, written, htext, hread⟩ := exists_read_of_ofFile h
    obtain ⟨entries, hdoc, haccepted, htells⟩ := read_eq_some_iff.1 hread
    rw [ofFile_of_read htext hread] at h
    obtain ⟨hclass, dir, hdir, rfl⟩ := expanded_bind_eq_ok_iff.1 h
    exact ⟨text, entries, written, dir, htext, hdoc, haccepted, htells, hclass, hdir, rfl⟩
  · rintro ⟨text, entries, written, dir, htext, hdoc, haccepted, htells, hclass, hdir, rfl⟩
    rw [ofFile_of_read htext (read_eq_some_iff.2 ⟨entries, hdoc, haccepted, htells⟩)]
    exact expanded_bind_eq_ok_iff.2 ⟨hclass, dir, hdir, rfl⟩

/-! ## Loading -/

theorem isThere_of_readText {p text : String} (h : w.readText p = .ok text) :
    w.isThere p = true := by
  obtain ⟨l, content, hl, hfile, -⟩ := Workspace.readText_eq_ok_iff.1 h
  unfold Workspace.isThere Workspace.find?
  rw [hl]
  dsimp only
  rw [hfile]
  rfl

/-- **The settings before the command line is asked** are those of the file
in use, or the defaults. -/
theorem ofPlace_eq_ok_iff (hw : w.Sound) (hcwd : ∀ n ∈ w.cwd, IsName n) :
    ofPlace w env path = .ok s ↔ ∃ file, InUse w path file
      ∧ (∀ p, file = some p → ofFile w env p = .ok s) ∧ (file = none → s = defaults w) := by
  cases path with
  | some p =>
    constructor
    · intro h
      refine ⟨some p, .named p, ?_, nofun⟩
      rintro _ ⟨⟩
      unfold ofPlace at h
      dsimp only at h
      split at h
      · exact h
      · cases h
    · rintro ⟨file, ⟨⟩, hfile, -⟩
      have hof := hfile p rfl
      obtain ⟨text, -, htext, -⟩ := exists_read_of_ofFile hof
      unfold ofPlace
      dsimp only
      rw [if_pos (isThere_of_readText htext), hof]
  | none =>
    simp only [inUse_none_iff hw hcwd, exists_eq_left']
    unfold ofPlace
    cases nearestFile? w with
    | none =>
      exact ⟨fun h => ⟨nofun, fun _ => (Except.ok.inj h).symm⟩, fun h => congrArg _ (h.2 rfl).symm⟩
    | some p =>
      refine ⟨fun h => ⟨?_, nofun⟩, fun h => h.1 p rfl⟩
      rintro _ ⟨⟩
      exact h

/-- The command line is asked last. -/
theorem load_eq_ok_iff_override : load w env path o = .ok s
    ↔ ∃ s₀, ofPlace w env path = .ok s₀ ∧ s = s₀.override o := by
  unfold load
  cases ofPlace w env path with
  | error fault => exact ⟨nofun, fun ⟨_, h, _⟩ => nomatch h⟩
  | ok s₀ =>
    constructor
    · exact fun h => ⟨s₀, rfl, (Except.ok.inj h).symm⟩
    · rintro ⟨_, ⟨⟩, rfl⟩
      rfl

/-- **The settings of a run**, in every workspace and environment, with or
without a file that is named and with anything said on the command line. -/
theorem load_eq_ok_iff (hw : w.Sound) (hcwd : ∀ n ∈ w.cwd, IsName n) :
    load w env path o = .ok s ↔ Loaded w env path o s := by
  rw [load_eq_ok_iff_override]
  constructor
  · rintro ⟨s₀, hplace, rfl⟩
    obtain ⟨file, huse, hfile, hnone⟩ := (ofPlace_eq_ok_iff hw hcwd).1 hplace
    cases file with
    | none =>
      obtain rfl := hnone rfl
      exact ⟨huse, nofun, fun _ => ⟨rfl, rfl, rfl⟩, isClassName_anchor⟩
    | some p =>
      obtain ⟨text, entries, written, dir, htext, hdoc, haccepted, htells, hclass, hdir, rfl⟩ :=
        ofFile_eq_ok_iff.1 (hfile p rfl)
      refine ⟨huse, ?_, nofun, hclass⟩
      rintro _ ⟨⟩
      exact ⟨entries, written, dir, ⟨text, htext, hdoc⟩, haccepted, htells, hdir, rfl, rfl, rfl⟩
  · intro h
    obtain ⟨gfm, anchorClass, outputDir, file⟩ := s
    cases file with
    | none =>
      obtain ⟨rfl, rfl, rfl⟩ := h.fromDefaults rfl
      exact ⟨defaults w, (ofPlace_eq_ok_iff hw hcwd).2 ⟨none, h.inUse, nofun, fun _ => rfl⟩, rfl⟩
    | some p =>
      obtain ⟨entries, written, dir, ⟨text, htext, hdoc⟩, haccepted, htells, hdir, rfl, rfl, rfl⟩ :=
        h.fromFile p rfl
      refine ⟨⟨written.gfm, written.anchorClass, join ((parent? p).getD ".") dir, some p⟩,
        (ofPlace_eq_ok_iff hw hcwd).2 ⟨some p, h.inUse, ?_, nofun⟩, rfl⟩
      rintro _ ⟨⟩
      exact ofFile_eq_ok_iff.2 ⟨text, entries, written, dir, htext, hdoc, haccepted, htells,
        h.isClassName, hdir, rfl⟩

/-- A settings file two directories up. A directory of its name stands in
the way, and the command line decides the extensions. -/
theorem load_eq_ok_iff_guide :
    let text := "[headings]\nanchor_class = 'hash'\n[output]\ndir = '$\x7bOUT:-build\x7d/html'"
    let w : Workspace := ⟨⟨[(["site"], .directory), (["site", "docslot.toml"], .file text.toUTF8),
      (["site", "guide"], .directory), (["site", "guide", "docslot.toml"], .directory),
      (["site", "guide", "setup"], .directory)]⟩, ["site", "guide", "setup"]⟩
    let s : Settings := ⟨false, "hash", "/site/build/html", some "/site/docslot.toml"⟩
    w.Sound ∧ (∀ n ∈ w.cwd, IsName n) ∧ load w [] none { gfm := some false } = .ok s
      ∧ Loaded w [] none { gfm := some false } s := by
  intro text w s
  have hw : w.Sound := ⟨FileTree.closed_of_entries (by decide +kernel), rfl⟩
  have hcwd : ∀ n ∈ w.cwd, IsName n := by decide
  have hload : load w [] none { gfm := some false } = .ok s := by decide +kernel
  exact ⟨hw, hcwd, hload, (load_eq_ok_iff hw hcwd).1 hload⟩

/-- Whether a section is written as an array. -/
def isArray : Value → Bool
  | .array _ => true
  | _ => false

/-- **A file with an unknown key is loaded** if the key stands in a section
that is written as an array. -/
theorem exists_load_not_wellTyped :
    let text := "headings = ['hash', \x7b anchor = 'x' \x7d]"
    let w : Workspace := ⟨⟨[(["docslot.toml"], .file text.toUTF8)]⟩, []⟩
    load w [] (some "docslot.toml") {} = .ok ⟨true, "hash", "_site", some "docslot.toml"⟩
      ∧ w.readText "docslot.toml" = .ok text
      ∧ ∃ entries, readDocument text = some entries ∧ ¬ WellTyped entries := by
  intro text w
  have hload : load w [] (some "docslot.toml") {}
      = .ok ⟨true, "hash", "_site", some "docslot.toml"⟩ := by decide +kernel
  have hread : w.readText "docslot.toml" = .ok text := by decide +kernel
  have harray : (readDocument text).map (·.map (isArray ·.2)) = some [true] := by decide +kernel
  obtain ⟨entries, hdoc, hentries⟩ := Option.map_eq_some_iff.1 harray
  obtain ⟨part, _, rfl, hpart, -⟩ := List.map_eq_cons_iff.1 hentries
  refine ⟨hload, hread, _, hdoc, fun h => ?_⟩
  obtain ⟨inner, heq, -⟩ := (h part List.mem_cons_self).2
  rw [heq] at hpart
  cases hpart

end PageSlots.Settings
