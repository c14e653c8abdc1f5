import Mathlib.Data.List.Nodup
import PageSlots.Settings.Toml.Document

/-!
# A settings file gives each key once

The tables of a file are put together from statements that stand apart,
and a statement that gives a key again makes the file malformed. So in
what is read from a file the keys of every table are distinct, at every
depth (`distinct_of_readDocument`), and to look a key up is to ask for the
one entry that has it (`lookup_eq_some_iff_mem`).

This is an invariant of the tables that are being read (`Keyed`). A table
that is changed in place keeps its key, and a key is only added where
there was none, so what all of the statements have in common is replacing
or adding one entry (`Keyed.put`).
-/

namespace PageSlots.Settings.Toml

variable {α : Type} {v : Value} {item : Item} {entries entries' inner : Items}
  {key : String} {path : List String} {text rest : List Char} {steps room : Nat}

/-! ## Distinct keys -/

/-- **The keys of every table in a value are distinct.** -/
inductive Value.Distinct : Value → Prop where
  | string (text : String) : Distinct (.string text)
  | boolean (value : Bool) : Distinct (.boolean value)
  | other : Distinct .other
  | array {items : List Value} (all : ∀ v ∈ items, Distinct v) : Distinct (.array items)
  | table {entries : List (String × Value)} (nodup : (entries.map Prod.fst).Nodup)
      (all : ∀ entry ∈ entries, Distinct entry.2) : Distinct (.table entries)

/-- The keys of every table in an item are distinct. -/
inductive Item.Distinct : Item → Prop where
  | value {v : Value} (distinct : Value.Distinct v) : Distinct (.value v)
  | table {origin : Origin} {entries : Items} (nodup : (entries.map Prod.fst).Nodup)
      (all : ∀ entry ∈ entries, Distinct entry.2) : Distinct (.table origin entries)
  | tables {last : Items} {earlier : List Items}
      (nodup : ∀ entries ∈ last :: earlier, (entries.map Prod.fst).Nodup)
      (all : ∀ entries ∈ last :: earlier, ∀ entry ∈ entries, Distinct entry.2) :
      Distinct (.tables last earlier)

/-- **The keys of a table that is being read are distinct**, and so are
those in its entries. -/
structure Keyed (entries : Items) : Prop where
  nodup : (entries.map Prod.fst).Nodup
  all : ∀ entry ∈ entries, entry.2.Distinct

theorem keyed_nil : Keyed [] := ⟨List.nodup_nil, nofun⟩

theorem distinct_table_iff {origin : Origin} :
    (Item.table origin entries).Distinct ↔ Keyed entries := by
  constructor
  · intro h
    cases h with
    | table nodup all => exact ⟨nodup, all⟩
  · exact fun h => .table h.nodup h.all

theorem distinct_tables_iff {last : Items} {earlier : List Items} :
    (Item.tables last earlier).Distinct ↔ Keyed last ∧ ∀ entries ∈ earlier, Keyed entries := by
  rw [← List.forall_mem_cons]
  constructor
  · intro h
    cases h with
    | tables nodup all => exact fun entries he => ⟨nodup entries he, all entries he⟩
  · exact fun h => .tables (fun entries he => (h entries he).nodup) fun entries he => (h entries he).all

/-- **With distinct keys** an entry is found under its key. -/
theorem lookup_eq_some_iff_mem {entries : List (String × α)} (h : (entries.map Prod.fst).Nodup)
    {a : α} : entries.lookup key = some a ↔ (key, a) ∈ entries := by
  induction entries with
  | nil => exact ⟨nofun, nofun⟩
  | cons e entries ih =>
    obtain ⟨hnot, hnodup⟩ := List.nodup_cons.1 h
    rw [List.lookup_cons, List.mem_cons]
    by_cases he : key = e.1
    · have hmem : (key, a) ∉ entries := fun hm => hnot (he ▸ List.mem_map_of_mem hm)
      rw [beq_iff_eq.2 he, or_iff_left hmem, Prod.ext_iff]
      exact ⟨fun ha => ⟨he, (Option.some.inj ha).symm⟩, fun ha => congrArg some ha.2.symm⟩
    · have hne : (key, a) ≠ e := fun hk => he (congrArg Prod.fst hk)
      rw [beq_false_of_ne he, or_iff_right hne]
      exact ih hnodup

theorem Keyed.lookup (h : Keyed entries) (hl : entries.lookup key = some item) : item.Distinct :=
  h.all _ ((lookup_eq_some_iff_mem h.nodup).1 hl)

/-! ## Replacing an entry -/

theorem mem_putItem {entry : String × Item} (h : entry ∈ putItem key item entries) :
    entry = (key, item) ∨ entry ∈ entries := by
  induction entries with
  | nil => exact .inl (List.mem_singleton.1 h)
  | cons e entries ih =>
    rw [putItem] at h
    split at h
    · exact (List.mem_cons.1 h).imp_right fun h => List.mem_cons_of_mem _ h
    · rcases List.mem_cons.1 h with rfl | h
      · exact .inr List.mem_cons_self
      · exact (ih h).imp_right fun h => List.mem_cons_of_mem _ h

/-- The keys stay, or one more is put behind them. -/
theorem map_fst_putItem (key : String) (item : Item) (entries : Items) :
    (putItem key item entries).map Prod.fst
      = if key ∈ entries.map Prod.fst then entries.map Prod.fst
        else entries.map Prod.fst ++ [key] := by
  induction entries with
  | nil => rfl
  | cons e entries ih =>
    rw [putItem]
    by_cases he : e.1 = key
    · rw [if_pos he, if_pos (he ▸ List.mem_cons_self), List.map_cons, List.map_cons, he]
    · rw [if_neg he, List.map_cons, List.map_cons, ih]
      by_cases hk : key ∈ entries.map Prod.fst
      · rw [if_pos hk, if_pos (List.mem_cons_of_mem _ hk)]
      · rw [if_neg hk, if_neg (by simpa [Ne.symm he] using hk)]
        rfl

/-- **Replacing an entry, or adding one,** keeps the keys distinct. -/
theorem Keyed.put (h : Keyed entries) (key : String) (hi : item.Distinct) :
    Keyed (putItem key item entries) := by
  refine ⟨?_, fun entry he => ?_⟩
  · rw [map_fst_putItem]
    split
    · exact h.nodup
    · rename_i hk
      exact List.nodup_append_comm.1 (List.nodup_cons.2 ⟨hk, h.nodup⟩)
  · rcases mem_putItem he with rfl | he
    · exact hi
    · exact h.all entry he

/-- An entry that is made from a table that was changed. -/
theorem Keyed.put_of_map (h : Keyed entries) {changed : Option Items} {make : Items → Item}
    (hm : changed.map (fun inner => putItem key (make inner) entries) = some entries')
    (hi : ∀ inner, changed = some inner → (make inner).Distinct) : Keyed entries' := by
  obtain ⟨inner, hc, rfl⟩ := Option.map_eq_some_iff.1 hm
  exact h.put key (hi inner hc)

/-! ## Statements -/

/-- **Changing the table of a header** keeps the keys distinct if the
change does. -/
theorem Keyed.atHeader {f : Items → Option Items} (h : Keyed entries)
    (hf : ∀ inner inner', Keyed inner → f inner = some inner' → Keyed inner')
    (he : atHeader f path entries = some entries') : Keyed entries' := by
  induction path generalizing entries entries' with
  | nil => exact hf entries entries' h he
  | cons key path ih =>
    rw [Toml.atHeader] at he
    split at he
    · rename_i origin inner hl
      have hinner := distinct_table_iff.1 (h.lookup hl)
      exact h.put_of_map he fun _ hc => distinct_table_iff.2 (ih hinner hc)
    · rename_i last earlier hl
      obtain ⟨hlast, hearlier⟩ := distinct_tables_iff.1 (h.lookup hl)
      exact h.put_of_map he fun _ hc => distinct_tables_iff.2 ⟨ih hlast hc, hearlier⟩
    · cases he

/-- What both kinds of headers do on the way: they change the table with a
key, or the last table of the array with this key, or add a table. -/
def inside (f : Items → Option Items) (key : String) (entries : Items) : Option Items :=
  match entries.lookup key with
  | none => (f []).map fun inner => putItem key (.table .implied inner) entries
  | some (.table origin inner) =>
    (f inner).map fun inner => putItem key (.table origin inner) entries
  | some (.tables last earlier) =>
    (f last).map fun last => putItem key (.tables last earlier) entries
  | some (.value _) => none

theorem openTable_cons (hp : path ≠ []) :
    openTable (key :: path) entries = inside (openTable path) key entries := by
  rw [openTable]
  · rfl
  · exact hp

theorem openNext_cons (hp : path ≠ []) :
    openNext (key :: path) entries = inside (openNext path) key entries := by
  rw [openNext]
  · rfl
  · exact hp

theorem Keyed.inside {f : Items → Option Items} (h : Keyed entries)
    (hf : ∀ inner inner', Keyed inner → f inner = some inner' → Keyed inner')
    (he : inside f key entries = some entries') : Keyed entries' := by
  unfold Toml.inside at he
  split at he
  · exact h.put_of_map he fun inner hc => distinct_table_iff.2 (hf [] inner keyed_nil hc)
  · rename_i origin inner hl
    have hinner := distinct_table_iff.1 (h.lookup hl)
    exact h.put_of_map he fun inner' hc => distinct_table_iff.2 (hf inner inner' hinner hc)
  · rename_i last earlier hl
    obtain ⟨hlast, hearlier⟩ := distinct_tables_iff.1 (h.lookup hl)
    exact h.put_of_map he fun last' hc =>
      distinct_tables_iff.2 ⟨hf last last' hlast hc, hearlier⟩
  · cases he

/-- **Opening a table** keeps the keys distinct. -/
theorem Keyed.openTable (h : Keyed entries) (he : openTable path entries = some entries') :
    Keyed entries' := by
  induction path generalizing entries entries' with
  | nil => cases he
  | cons key path ih =>
    by_cases hp : path = []
    · subst hp
      rw [Toml.openTable] at he
      split at he
      · cases he
        exact h.put key (distinct_table_iff.2 keyed_nil)
      · rename_i inner hl
        cases he
        exact h.put key (distinct_table_iff.2 (distinct_table_iff.1 (h.lookup hl)))
      · cases he
    · rw [openTable_cons hp] at he
      exact h.inside (fun _ _ => ih) he

/-- **Opening the next table of an array** keeps the keys distinct. -/
theorem Keyed.openNext (h : Keyed entries) (he : openNext path entries = some entries') :
    Keyed entries' := by
  induction path generalizing entries entries' with
  | nil => cases he
  | cons key path ih =>
    by_cases hp : path = []
    · subst hp
      rw [Toml.openNext] at he
      split at he
      · cases he
        exact h.put key (distinct_tables_iff.2 ⟨keyed_nil, nofun⟩)
      · rename_i last earlier hl
        cases he
        have hall := List.forall_mem_cons.2 (distinct_tables_iff.1 (h.lookup hl))
        exact h.put key (distinct_tables_iff.2 ⟨keyed_nil, hall⟩)
      · cases he
    · rw [openNext_cons hp] at he
      exact h.inside (fun _ _ => ih) he

/-- **Giving a key its value** keeps the keys distinct. -/
theorem Keyed.assign (h : Keyed entries) (hv : v.Distinct)
    (he : assign v path entries = some entries') : Keyed entries' := by
  induction path generalizing entries entries' with
  | nil => cases he
  | cons key path ih =>
    by_cases hp : path = []
    · subst hp
      rw [Toml.assign] at he
      split at he
      · cases he
        exact h.put key (.value hv)
      · cases he
    · rw [Toml.assign] at he
      · split at he
        · exact h.put_of_map he fun _ hc => distinct_table_iff.2 (ih keyed_nil hc)
        · rename_i inner hl
          have hinner := distinct_table_iff.1 (h.lookup hl)
          exact h.put_of_map he fun _ hc => distinct_table_iff.2 (ih hinner hc)
        · cases he
      · exact hp

/-! ## Plain values -/

/-- A plain table has the keys of the table that was read. -/
theorem map_fst_itemValues (entries : Items) :
    (itemValues entries).map Prod.fst = entries.map Prod.fst := by
  induction entries with
  | nil => rfl
  | cons e entries ih =>
    rw [itemValues, List.map_cons, List.map_cons, ih]

mutual

/-- **The plain value of an item** has distinct keys if the item has. -/
theorem Item.Distinct.toValue : ∀ {item : Item}, item.Distinct → item.toValue.Distinct
  | .value _, h => by
    cases h with
    | value distinct => exact distinct
  | .table _ entries, h => by
    obtain ⟨hnodup, hall⟩ := distinct_table_iff.1 h
    exact .table ((map_fst_itemValues entries).symm ▸ hnodup) (distinct_itemValues hall)
  | .tables last earlier, h => by
    obtain ⟨⟨hnodup, hall⟩, hearlier⟩ := distinct_tables_iff.1 h
    refine .array (List.forall_mem_append.2 ⟨distinct_tableValues hearlier, ?_⟩)
    exact List.forall_mem_singleton.2
      (.table ((map_fst_itemValues last).symm ▸ hnodup) (distinct_itemValues hall))

theorem distinct_itemValues : ∀ {entries : Items}, (∀ entry ∈ entries, entry.2.Distinct) →
    ∀ entry ∈ itemValues entries, entry.2.Distinct
  | [], _ => nofun
  | (_, _) :: _, h =>
    List.forall_mem_cons.2 ⟨(List.forall_mem_cons.1 h).1.toValue,
      distinct_itemValues (List.forall_mem_cons.1 h).2⟩

theorem distinct_tableValues : ∀ {earlier : List Items}, (∀ entries ∈ earlier, Keyed entries) →
    ∀ v ∈ tableValues earlier, v.Distinct
  | [], _ => nofun
  | entries :: _, h => by
    obtain ⟨⟨hnodup, hall⟩, hearlier⟩ := List.forall_mem_cons.1 h
    refine List.forall_mem_append.2 ⟨distinct_tableValues hearlier, ?_⟩
    exact List.forall_mem_singleton.2
      (.table ((map_fst_itemValues entries).symm ▸ hnodup) (distinct_itemValues hall))

end

theorem Keyed.distinct_table (h : Keyed entries) : (Value.table (itemValues entries)).Distinct :=
  .table ((map_fst_itemValues entries).symm ▸ h.nodup) (distinct_itemValues h.all)

/-! ## Reading -/

/-- **What is read in so many steps has distinct keys.** -/
structure ReadsDistinct (steps : Nat) : Prop where
  value : ∀ {room text v rest}, readValue steps room text = some (v, rest) → v.Distinct
  items : ∀ {room text items rest}, readItems steps room text = some (items, rest) →
    ∀ v ∈ items, v.Distinct
  entries : ∀ {room entries text entries' rest}, Keyed entries →
    readEntries steps room entries text = some (entries', rest) → Keyed entries'

namespace ReadsDistinct

theorem readValue (ih : ReadsDistinct steps)
    (h : readValue (steps + 1) room text = some (v, rest)) : v.Distinct := by
  unfold Toml.readValue at h
  split at h
  · obtain ⟨_, -, hr⟩ := Option.map_eq_some_iff.1 h
    cases hr
    exact .string _
  · obtain ⟨_, -, hr⟩ := Option.map_eq_some_iff.1 h
    cases hr
    exact .string _
  · obtain ⟨-, h⟩ := Option.ite_none_left_eq_some.1 h
    obtain ⟨_, hitems, hr⟩ := Option.map_eq_some_iff.1 h
    cases hr
    exact .array (ih.items hitems)
  · obtain ⟨-, h⟩ := Option.ite_none_left_eq_some.1 h
    obtain ⟨_, hentries, hr⟩ := Option.map_eq_some_iff.1 h
    cases hr
    exact (ih.entries keyed_nil hentries).distinct_table
  · dsimp only at h
    split at h
    · cases h
      exact .boolean _
    · split at h
      · cases h
        exact .boolean _
      · split at h
        · cases h
          exact .other
        · cases h

theorem readItems {items : List Value} (ih : ReadsDistinct steps)
    (h : readItems (steps + 1) room text = some (items, rest)) : ∀ v ∈ items, v.Distinct := by
  unfold Toml.readItems at h
  obtain ⟨text, -, h⟩ := Option.bind_eq_some_iff.1 h
  split at h
  · cases h
    exact nofun
  · obtain ⟨⟨v, rest⟩, hv, h⟩ := Option.bind_eq_some_iff.1 h
    obtain ⟨rest, -, h⟩ := Option.bind_eq_some_iff.1 h
    split at h
    · obtain ⟨⟨items, rest⟩, hitems, h⟩ := Option.bind_eq_some_iff.1 h
      cases h
      exact List.forall_mem_cons.2 ⟨ih.value hv, ih.items hitems⟩
    · cases h
      exact List.forall_mem_singleton.2 (ih.value hv)
    · cases h

theorem readEntries (ih : ReadsDistinct steps) (hk : Keyed entries)
    (h : readEntries (steps + 1) room entries text = some (entries', rest)) : Keyed entries' := by
  unfold Toml.readEntries at h
  obtain ⟨text, -, h⟩ := Option.bind_eq_some_iff.1 h
  split at h
  · cases h
    exact hk
  · obtain ⟨⟨path, rest⟩, -, h⟩ := Option.bind_eq_some_iff.1 h
    dsimp only at h
    split at h
    · obtain ⟨⟨v, rest⟩, hv, h⟩ := Option.bind_eq_some_iff.1 h
      obtain ⟨entries, hassign, h⟩ := Option.bind_eq_some_iff.1 h
      obtain ⟨rest, -, h⟩ := Option.bind_eq_some_iff.1 h
      have hk' := hk.assign (ih.value hv) hassign
      split at h
      · exact ih.entries hk' h
      · cases h
        exact hk'
      · cases h
    · cases h

end ReadsDistinct

theorem readsDistinct (steps : Nat) : ReadsDistinct steps := by
  induction steps with
  | zero => exact ⟨nofun, nofun, nofun⟩
  | succ steps ih => exact ⟨ih.readValue, ih.readItems, ih.readEntries⟩

/-- **A statement** keeps the keys of the file distinct. -/
theorem Keyed.readStatement {d d' : Document} (h : Keyed d.entries)
    (hd : d.readStatement text = some (d', rest)) : Keyed d'.entries := by
  unfold Document.readStatement at hd
  dsimp only at hd
  split at hd
  · obtain ⟨⟨path, rest⟩, -, hd⟩ := Option.bind_eq_some_iff.1 hd
    dsimp only at hd
    split at hd
    · obtain ⟨entries, hopen, hd⟩ := Option.bind_eq_some_iff.1 hd
      obtain ⟨rest, -, hd⟩ := Option.bind_eq_some_iff.1 hd
      cases hd
      exact h.openNext hopen
    · cases hd
  · obtain ⟨⟨path, rest⟩, -, hd⟩ := Option.bind_eq_some_iff.1 hd
    dsimp only at hd
    split at hd
    · obtain ⟨entries, hopen, hd⟩ := Option.bind_eq_some_iff.1 hd
      obtain ⟨rest, -, hd⟩ := Option.bind_eq_some_iff.1 hd
      cases hd
      exact h.openTable hopen
    · cases hd
  · obtain ⟨⟨path, rest⟩, -, hd⟩ := Option.bind_eq_some_iff.1 hd
    dsimp only at hd
    split at hd
    · obtain ⟨⟨v, rest⟩, hv, hd⟩ := Option.bind_eq_some_iff.1 hd
      obtain ⟨entries, hassign, hd⟩ := Option.bind_eq_some_iff.1 hd
      obtain ⟨rest, -, hd⟩ := Option.bind_eq_some_iff.1 hd
      cases hd
      exact h.atHeader (fun _ _ hk => hk.assign ((readsDistinct _).value hv)) hassign
    · cases hd

/-- A run of statements keeps the keys of the file distinct. -/
theorem keyed_of_read {d d' : Document} (h : Keyed d.entries)
    (hd : Document.read steps d text = some d') : Keyed d'.entries := by
  induction steps generalizing d text with
  | zero => cases hd
  | succ steps ih =>
    unfold Document.read at hd
    obtain ⟨text, -, hd⟩ := Option.bind_eq_some_iff.1 hd
    split at hd
    · cases hd
      exact h
    · obtain ⟨⟨d, rest⟩, hstatement, hd⟩ := Option.bind_eq_some_iff.1 hd
      exact ih (h.readStatement hstatement) hd

/-- **A file gives each key once**, at every depth. -/
theorem distinct_of_readDocument {entries : List (String × Value)} {text : String}
    (h : readDocument text = some entries) : (Value.table entries).Distinct := by
  obtain ⟨d, hd, rfl⟩ := Option.map_eq_some_iff.1 h
  exact (keyed_of_read keyed_nil hd).distinct_table

end PageSlots.Settings.Toml
