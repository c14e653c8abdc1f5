import Mathlib.Data.Option.Basic
import Mathlib.Tactic.MkIffOfInductiveProp
import PageSlots.Proofs.Settings.Keys
import PageSlots.Settings.Written

/-!
# What a settings file may say

A file is read if it has no section and no setting but the known ones and
each setting has a value of its type (`Setting`). That is the intent, and
it holds for every section that is written as a table (`WellTyped`). But a
section may also be written as an array. Then its first item is the
setting, and what follows in the array is not looked at, so a name or a
value that is a fault in a table is none there (`Accepted`).

`read_eq_some_iff` characterizes the reading: a file is read exactly if
its sections are accepted, and what is read of a setting is the value that
the file gives it (`Gives`), or the default where it gives none.
-/

namespace PageSlots.Settings

open PageSlots.Settings.Toml

variable {α : Type} {entries : List (String × Value)} {sec v v' : Value} {o : Option Value}
  {part name text : String}

/-- **A setting**: its section, its name and its values. -/
@[mk_iff]
inductive Setting : String → String → Value → Prop where
  | gfm (b : Bool) : Setting "markdown" "gfm" (.boolean b)
  | anchorClass (s : String) : Setting "headings" "anchor_class" (.string s)
  | outputDir (s : String) : Setting "output" "dir" (.string s)

/-- A section that is written as a table of its settings. -/
def IsTableOf (part : String) (sec : Value) : Prop :=
  ∃ inner, sec = .table inner ∧ ∀ entry ∈ inner, Setting part entry.1 entry.2

/-- A section that is written as an array that begins with its setting. -/
def IsListOf (part : String) (sec : Value) : Prop :=
  ∃ items, sec = .array items ∧ ∀ first ∈ items.head?, ∃ name, Setting part name first

/-- **No key is unknown, and no value has a wrong type.** -/
def WellTyped (entries : List (String × Value)) : Prop :=
  ∀ entry ∈ entries, entry.1 ∈ sectionNames ∧ IsTableOf entry.1 entry.2

/-- **The same, but for arrays**, of which only the first item is looked
at. -/
def Accepted (entries : List (String × Value)) : Prop :=
  ∀ entry ∈ entries, entry.1 ∈ sectionNames ∧ (IsTableOf entry.1 entry.2 ∨ IsListOf entry.1 entry.2)

/-- A value that a section holds. -/
def Holds (sec v : Value) : Prop :=
  (∃ inner name, sec = .table inner ∧ (name, v) ∈ inner) ∨ ∃ items, sec = .array (v :: items)

/-- **The value that a file gives the setting of a section.** -/
def Gives (entries : List (String × Value)) (part : String) (v : Value) : Prop :=
  ∃ sec, (part, sec) ∈ entries ∧ Holds sec v

/-- **The settings are those that a file gives**, and defaults where it
gives none. -/
structure Tells (entries : List (String × Value)) (w : Written) : Prop where
  gfm : Gives entries "markdown" (.boolean w.gfm)
    ∨ w.gfm = true ∧ ∀ v, ¬ Gives entries "markdown" v
  anchorClass : Gives entries "headings" (.string w.anchorClass)
    ∨ w.anchorClass = "anchor" ∧ ∀ v, ¬ Gives entries "headings" v
  outputDir : (∃ dir, w.outputDir = some dir ∧ Gives entries "output" (.string dir))
    ∨ w.outputDir = none ∧ ∀ v, ¬ Gives entries "output" v

/-! ## One section -/

/-- A section with one setting of a name. -/
def HasOne (name : String) (sec : Value) : Prop :=
  (∃ inner, sec = .table inner ∧ ∀ entry ∈ inner, entry.1 = name) ∨ ∃ items, sec = .array items

theorem hasOne_of_settingOf (h : settingOf name sec = some o) : HasOne name sec := by
  unfold settingOf at h
  split at h
  · rename_i inner
    split at h
    · rename_i hall
      exact .inl ⟨inner, rfl, fun entry he => by simpa using List.all_eq_true.1 hall entry he⟩
    · cases h
  · exact .inr ⟨_, rfl⟩
  · cases h

/-- **The setting of a section** is the one value that the section
holds. -/
theorem HasOne.exists_settingOf (h : HasOne name sec) (hd : sec.Distinct) :
    ∃ o, settingOf name sec = some o ∧ ∀ v, o = some v ↔ Holds sec v := by
  rcases h with ⟨inner, rfl, hall⟩ | ⟨items, rfl⟩
  · have hnodup : (inner.map Prod.fst).Nodup := by
      cases hd with
      | table nodup _ => exact nodup
    refine ⟨inner.lookup name, if_pos (List.all_eq_true.2 fun e he => by simpa using hall e he),
      fun v => ?_⟩
    rw [lookup_eq_some_iff_mem hnodup]
    constructor
    · exact fun hm => .inl ⟨inner, name, rfl, hm⟩
    · rintro (⟨inner', name', heq, hm⟩ | ⟨items, heq⟩)
      · cases heq
        obtain rfl : name' = name := hall _ hm
        exact hm
      · cases heq
  · refine ⟨items.head?, rfl, fun v => ?_⟩
    rw [List.head?_eq_some_iff]
    constructor
    · rintro ⟨rest, rfl⟩
      exact .inr ⟨rest, rfl⟩
    · rintro (⟨inner, name', heq, -⟩ | ⟨rest, heq⟩)
      · cases heq
      · cases heq
        exact ⟨rest, rfl⟩

/-- **The setting in a file**, if its section may be read at all. -/
theorem exists_settingIn (hd : (Value.table entries).Distinct)
    (h : ∀ sec, (part, sec) ∈ entries → HasOne name sec) :
    ∃ o, settingIn entries part name = some o ∧ ∀ v, o = some v ↔ Gives entries part v := by
  obtain ⟨hnodup, hall⟩ : (entries.map Prod.fst).Nodup ∧ ∀ entry ∈ entries, entry.2.Distinct := by
    cases hd with
    | table nodup all => exact ⟨nodup, all⟩
  unfold settingIn
  cases hl : entries.lookup part with
  | none =>
    refine ⟨none, rfl, fun v => ⟨nofun, ?_⟩⟩
    rintro ⟨sec, hm, -⟩
    rw [(lookup_eq_some_iff_mem hnodup).2 hm] at hl
    cases hl
  | some sec =>
    have hm := (lookup_eq_some_iff_mem hnodup).1 hl
    obtain ⟨o, ho, hiff⟩ := (h sec hm).exists_settingOf (hall _ hm)
    refine ⟨o, ho, fun v => (hiff v).trans ⟨fun hv => ⟨sec, hm, hv⟩, ?_⟩⟩
    rintro ⟨sec', hm', hv⟩
    rw [(lookup_eq_some_iff_mem hnodup).2 hm'] at hl
    cases hl
    exact hv

theorem hasOne_of_settingIn (hd : (Value.table entries).Distinct)
    (h : settingIn entries part name = some o) : ∀ sec, (part, sec) ∈ entries → HasOne name sec := by
  intro sec hm
  have hnodup : (entries.map Prod.fst).Nodup := by
    cases hd with
    | table nodup _ => exact nodup
  rw [settingIn, (lookup_eq_some_iff_mem hnodup).2 hm] at h
  exact hasOne_of_settingOf h

/-- **The sections of a name are accepted** if each has one setting and
what the file gives it has its type. -/
theorem accepted_part_iff {P : Value → Prop}
    (hset : ∀ key v, Setting part key v ↔ key = name ∧ P v) :
    (∀ sec, (part, sec) ∈ entries → IsTableOf part sec ∨ IsListOf part sec)
      ↔ (∀ sec, (part, sec) ∈ entries → HasOne name sec) ∧ ∀ v, Gives entries part v → P v := by
  constructor
  · refine fun h => ⟨fun sec hm => ?_, ?_⟩
    · rcases h sec hm with ⟨inner, rfl, hall⟩ | ⟨items, rfl, -⟩
      · exact .inl ⟨inner, rfl, fun entry he => ((hset _ _).1 (hall entry he)).1⟩
      · exact .inr ⟨items, rfl⟩
    · rintro v ⟨sec, hm, hv⟩
      rcases h sec hm with ⟨inner, rfl, hall⟩ | ⟨items, rfl, hfirst⟩
      · rcases hv with ⟨inner', key, heq, hv⟩ | ⟨rest, heq⟩
        · cases heq
          exact ((hset _ _).1 (hall _ hv)).2
        · cases heq
      · rcases hv with ⟨inner, key, heq, -⟩ | ⟨rest, heq⟩
        · cases heq
        · cases heq
          obtain ⟨key, hkey⟩ := hfirst v rfl
          exact ((hset _ _).1 hkey).2
  · rintro ⟨hone, htype⟩ sec hm
    rcases hone sec hm with ⟨inner, rfl, hall⟩ | ⟨items, rfl⟩
    · exact .inl ⟨inner, rfl, fun entry he => (hset _ _).2
        ⟨hall entry he, htype _ ⟨_, hm, .inl ⟨inner, entry.1, rfl, he⟩⟩⟩⟩
    · refine .inr ⟨items, rfl, fun first hfirst => ⟨name, (hset _ _).2 ⟨rfl, htype first ?_⟩⟩⟩
      obtain ⟨rest, rfl⟩ := List.head?_eq_some_iff.1 hfirst
      exact ⟨_, hm, .inr ⟨rest, rfl⟩⟩

/-! ## Reading a section -/

/-- A truth value. -/
def asBoolean : Value → Option Bool
  | .boolean b => some b
  | _ => none

/-- What is made of a text. -/
def asString (make : String → α) : Value → Option α
  | .string s => some (make s)
  | _ => none

theorem asBoolean_eq_some_iff {b : Bool} : asBoolean v = some b ↔ v = .boolean b := by
  cases v <;> simp [asBoolean]

theorem asString_eq_some_iff {make : String → α} {a : α} :
    asString make v = some a ↔ ∃ s, v = .string s ∧ make s = a := by
  cases v <;> simp [asString]

/-- The setting of a section, with its default and its type. -/
def readSetting (entries : List (String × Value)) (part name : String) (default : α)
    (read : Value → Option α) : Option α :=
  (settingIn entries part name).bind fun o =>
    match o with
    | none => some default
    | some v => read v

/-- **A section is read exactly if it is accepted**, and then its setting
is the value that the file gives it, or the default. -/
theorem readSetting_eq_some_iff (hd : (Value.table entries).Distinct) (default a : α)
    {read : Value → Option α}
    (hset : ∀ key v, Setting part key v ↔ key = name ∧ ∃ a, read v = some a) :
    readSetting entries part name default read = some a
      ↔ (∀ sec, (part, sec) ∈ entries → IsTableOf part sec ∨ IsListOf part sec)
        ∧ ((∃ v, read v = some a ∧ Gives entries part v)
          ∨ a = default ∧ ∀ v, ¬ Gives entries part v) := by
  rw [accepted_part_iff hset]
  constructor
  · intro h
    obtain ⟨o, ho, hread⟩ := Option.bind_eq_some_iff.1 h
    have hone := hasOne_of_settingIn hd ho
    obtain ⟨o', ho', hiff⟩ := exists_settingIn hd hone
    obtain rfl : o = o' := Option.some.inj (ho.symm.trans ho')
    cases o with
    | none =>
      have hnone : ∀ v, ¬ Gives entries part v := fun v hv => nomatch (hiff v).2 hv
      exact ⟨⟨hone, fun v hv => absurd hv (hnone v)⟩, .inr ⟨(Option.some.inj hread).symm, hnone⟩⟩
    | some v =>
      refine ⟨⟨hone, fun v' hv' => ?_⟩, .inl ⟨v, hread, (hiff v).1 rfl⟩⟩
      obtain rfl := Option.some.inj ((hiff v').2 hv')
      exact ⟨a, hread⟩
  · rintro ⟨⟨hone, -⟩, hgiven⟩
    obtain ⟨o, ho, hiff⟩ := exists_settingIn hd hone
    rw [readSetting, ho]
    rcases hgiven with ⟨v, hread, hv⟩ | ⟨rfl, hnone⟩
    · rw [(hiff v).2 hv]
      exact hread
    · cases o with
      | none => rfl
      | some v => exact absurd ((hiff v).1 rfl) (hnone v)

/-! ## The whole file -/

theorem bind_boolean {β : Type} (entries : List (String × Value)) (part name : String)
    (default : Bool) (next : Bool → Option β) :
    (do
      next (← match ← settingIn entries part name with
        | none => some default
        | some (.boolean b) => some b
        | some _ => none))
      = readSetting entries part name default asBoolean >>= next := by
  unfold readSetting
  cases settingIn entries part name with
  | none => rfl
  | some o =>
    cases o with
    | none => rfl
    | some v => cases v <;> rfl

theorem bind_string {β : Type} (entries : List (String × Value)) (part name : String)
    (default : α) (make : String → α) (next : α → Option β) :
    (do
      next (← match ← settingIn entries part name with
        | none => some default
        | some (.string s) => some (make s)
        | some _ => none))
      = readSetting entries part name default (asString make) >>= next := by
  unfold readSetting
  cases settingIn entries part name with
  | none => rfl
  | some o =>
    cases o with
    | none => rfl
    | some v => cases v <;> rfl

/-- **A file is read** section by section. -/
theorem read_eq (text : String) : Written.read text = do
    let entries ← readDocument text
    guard (entries.all fun entry => sectionNames.contains entry.1)
    let gfm ← readSetting entries "markdown" "gfm" true asBoolean
    let anchorClass ← readSetting entries "headings" "anchor_class" "anchor" (asString id)
    let outputDir ← readSetting entries "output" "dir" none (asString some)
    return { gfm, anchorClass, outputDir } := by
  unfold Written.read
  refine bind_congr fun entries => bind_congr fun _ => ?_
  refine (bind_boolean entries "markdown" "gfm" true _).trans (bind_congr fun gfm => ?_)
  refine (bind_string entries "headings" "anchor_class" "anchor" id _).trans
    (bind_congr fun anchorClass => ?_)
  exact bind_string entries "output" "dir" none some _

theorem setting_markdown_iff (key : String) (v : Value) :
    Setting "markdown" key v ↔ key = "gfm" ∧ ∃ b, asBoolean v = some b := by
  simp [setting_iff, asBoolean_eq_some_iff]

theorem setting_headings_iff (key : String) (v : Value) :
    Setting "headings" key v ↔ key = "anchor_class" ∧ ∃ s, asString id v = some s := by
  simp [setting_iff, asString_eq_some_iff]

theorem setting_output_iff (key : String) (v : Value) :
    Setting "output" key v ↔ key = "dir" ∧ ∃ dir, asString some v = some dir := by
  simp [setting_iff, asString_eq_some_iff]

/-- The sections of a file are accepted one by one. -/
theorem accepted_iff : Accepted entries ↔ (∀ entry ∈ entries, entry.1 ∈ sectionNames)
    ∧ ∀ part ∈ sectionNames, ∀ sec, (part, sec) ∈ entries →
        IsTableOf part sec ∨ IsListOf part sec := by
  constructor
  · exact fun h => ⟨fun entry he => (h entry he).1, fun part _ sec hm => (h (part, sec) hm).2⟩
  · exact fun h entry he => ⟨h.1 entry he, h.2 entry.1 (h.1 entry he) entry.2 he⟩

theorem tells_iff {w : Written} : Tells entries w
    ↔ ((∃ v, asBoolean v = some w.gfm ∧ Gives entries "markdown" v)
        ∨ w.gfm = true ∧ ∀ v, ¬ Gives entries "markdown" v)
      ∧ ((∃ v, asString id v = some w.anchorClass ∧ Gives entries "headings" v)
        ∨ w.anchorClass = "anchor" ∧ ∀ v, ¬ Gives entries "headings" v)
      ∧ ((∃ v, asString some v = some w.outputDir ∧ Gives entries "output" v)
        ∨ w.outputDir = none ∧ ∀ v, ¬ Gives entries "output" v) := by
  have hgfm : (∃ v, asBoolean v = some w.gfm ∧ Gives entries "markdown" v)
      ↔ Gives entries "markdown" (.boolean w.gfm) := by
    simp only [asBoolean_eq_some_iff, exists_eq_left]
  have hclass : (∃ v, asString id v = some w.anchorClass ∧ Gives entries "headings" v)
      ↔ Gives entries "headings" (.string w.anchorClass) := by
    simp [asString_eq_some_iff]
  have hdir : (∃ v, asString some v = some w.outputDir ∧ Gives entries "output" v)
      ↔ ∃ dir, w.outputDir = some dir ∧ Gives entries "output" (.string dir) := by
    simp only [asString_eq_some_iff]
    constructor
    · rintro ⟨_, ⟨dir, rfl, hdir⟩, hv⟩
      exact ⟨dir, hdir.symm, hv⟩
    · rintro ⟨dir, hdir, hv⟩
      exact ⟨_, ⟨dir, rfl, hdir.symm⟩, hv⟩
  rw [hgfm, hclass, hdir]
  exact ⟨fun h => ⟨h.gfm, h.anchorClass, h.outputDir⟩, fun h => ⟨h.1, h.2.1, h.2.2⟩⟩

/-- **What a file may say and what is read of it.** -/
theorem read_eq_some_iff {w : Written} : Written.read text = some w
    ↔ ∃ entries, readDocument text = some entries ∧ Accepted entries ∧ Tells entries w := by
  rw [read_eq]
  cases hdoc : readDocument text with
  | none => exact ⟨nofun, fun ⟨_, hnone, _⟩ => nomatch hnone⟩
  | some entries =>
    have hd := distinct_of_readDocument hdoc
    have hgfm := readSetting_eq_some_iff hd true w.gfm setting_markdown_iff
    have hclass := readSetting_eq_some_iff hd "anchor" w.anchorClass setting_headings_iff
    have hdir := readSetting_eq_some_iff hd none w.outputDir setting_output_iff
    have hnames : guard (entries.all fun entry => sectionNames.contains entry.1) = some ()
        ↔ ∀ entry ∈ entries, entry.1 ∈ sectionNames := by
      rw [Option.guard_eq_some', List.all_eq_true]
      exact forall₂_congr fun _ _ => List.contains_iff_mem
    have hparts : (∀ part ∈ sectionNames, ∀ sec, (part, sec) ∈ entries →
        IsTableOf part sec ∨ IsListOf part sec) ↔ _ := List.forall_mem_cons.trans
      (and_congr_right' (List.forall_mem_cons.trans (and_congr_right' List.forall_mem_singleton)))
    rw [Option.bind_eq_bind, Option.bind_some]
    constructor
    · intro h
      obtain ⟨⟨⟩, hguard, h⟩ := Option.bind_eq_some_iff.1 h
      obtain ⟨gfm, hg, h⟩ := Option.bind_eq_some_iff.1 h
      obtain ⟨anchorClass, hc, h⟩ := Option.bind_eq_some_iff.1 h
      obtain ⟨outputDir, ho, h⟩ := Option.bind_eq_some_iff.1 h
      cases h
      have hg := hgfm.1 hg
      have hc := hclass.1 hc
      have ho := hdir.1 ho
      exact ⟨entries, rfl, accepted_iff.2 ⟨hnames.1 hguard, hparts.2 ⟨hg.1, hc.1, ho.1⟩⟩,
        tells_iff.2 ⟨hg.2, hc.2, ho.2⟩⟩
    · rintro ⟨_, ⟨⟩, haccepted, htells⟩
      obtain ⟨hall, hsections⟩ := accepted_iff.1 haccepted
      obtain ⟨hmarkdown, hheadings, houtput⟩ := hparts.1 hsections
      obtain ⟨hg, hc, ho⟩ := tells_iff.1 htells
      refine Option.bind_eq_some_iff.2 ⟨(), hnames.2 hall, ?_⟩
      rw [hgfm.2 ⟨hmarkdown, hg⟩, hclass.2 ⟨hheadings, hc⟩, hdir.2 ⟨houtput, ho⟩]
      rfl

end PageSlots.Settings
