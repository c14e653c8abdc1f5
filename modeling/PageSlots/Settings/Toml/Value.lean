/-!
# Values of a settings file

A settings file is a table. The tables of a file are put together from
several places: from headers `[a.b]`, from dotted keys `a.b = …` and from
arrays of tables `[[a]]`. What may be added to a table depends on how the
table came to be, so a file that is being read keeps that with each table
(`Item`). When it is complete it is a plain `Value`.
-/

namespace PageSlots.Settings.Toml

/-- **A value.** -/
inductive Value where
  | string (text : String)
  | boolean (value : Bool)
  /-- A number, a date or a time. No setting has such a value, so it is not
  kept. -/
  | other
  | array (items : List Value)
  | table (entries : List (String × Value))
  deriving Inhabited

/-- How a table came to be. -/
inductive Origin where
  /-- By a header of its own. -/
  | header
  /-- By the header of a table in it. -/
  | implied
  /-- By a dotted key. -/
  | dotted
  deriving DecidableEq

/-- An entry of a file that is being read. -/
inductive Item where
  /-- A value, to which nothing can be added. -/
  | value (v : Value)
  /-- A table. -/
  | table (origin : Origin) (entries : List (String × Item))
  /-- An array of tables, the last one first. -/
  | tables (last : List (String × Item)) (earlier : List (List (String × Item)))

/-- The entries of a table that is being read. -/
abbrev Items := List (String × Item)

mutual

/-- The plain value of an item. -/
def Item.toValue : Item → Value
  | .value v => v
  | .table _ entries => .table (itemValues entries)
  | .tables last earlier => .array (tableValues earlier ++ [.table (itemValues last)])

/-- The plain values of the entries of a table. -/
def itemValues : List (String × Item) → List (String × Value)
  | [] => []
  | (key, item) :: rest => (key, item.toValue) :: itemValues rest

/-- The plain values of tables, the last one first. -/
def tableValues : List (List (String × Item)) → List Value
  | [] => []
  | entries :: earlier => tableValues earlier ++ [.table (itemValues entries)]

end

/-- Replace the entry with a key, or add it. -/
def putItem (key : String) (item : Item) : Items → Items
  | [] => [(key, item)]
  | (k, old) :: rest => if k = key then (key, item) :: rest else (k, old) :: putItem key item rest

/-- Change the table that a path of headers leads to. -/
def atHeader (f : Items → Option Items) : List String → Items → Option Items
  | [], entries => f entries
  | key :: path, entries =>
    match entries.lookup key with
    | some (.table origin inner) =>
      (atHeader f path inner).map fun inner => putItem key (.table origin inner) entries
    | some (.tables last earlier) =>
      (atHeader f path last).map fun last => putItem key (.tables last earlier) entries
    | _ => none

/-- **Open the table of a header.** A table can be opened by its header
once; a table that was implied before counts as not yet opened. -/
def openTable : List String → Items → Option Items
  | [], _ => none
  | [key], entries =>
    match entries.lookup key with
    | none => some (putItem key (.table .header []) entries)
    | some (.table .implied inner) => some (putItem key (.table .header inner) entries)
    | _ => none
  | key :: path, entries =>
    match entries.lookup key with
    | none =>
      (openTable path []).map fun inner => putItem key (.table .implied inner) entries
    | some (.table origin inner) =>
      (openTable path inner).map fun inner => putItem key (.table origin inner) entries
    | some (.tables last earlier) =>
      (openTable path last).map fun last => putItem key (.tables last earlier) entries
    | some (.value _) => none

/-- **Open the next table of an array of tables.** -/
def openNext : List String → Items → Option Items
  | [], _ => none
  | [key], entries =>
    match entries.lookup key with
    | none => some (putItem key (.tables [] []) entries)
    | some (.tables last earlier) => some (putItem key (.tables [] (last :: earlier)) entries)
    | _ => none
  | key :: path, entries =>
    match entries.lookup key with
    | none =>
      (openNext path []).map fun inner => putItem key (.table .implied inner) entries
    | some (.table origin inner) =>
      (openNext path inner).map fun inner => putItem key (.table origin inner) entries
    | some (.tables last earlier) =>
      (openNext path last).map fun last => putItem key (.tables last earlier) entries
    | some (.value _) => none

/-- **Give a dotted key a value.** A key has one value, and a dotted key
leads only through tables that dotted keys have made. -/
def assign (v : Value) : List String → Items → Option Items
  | [], _ => none
  | [key], entries =>
    match entries.lookup key with
    | none => some (putItem key (.value v) entries)
    | some _ => none
  | key :: path, entries =>
    match entries.lookup key with
    | none => (assign v path []).map fun inner => putItem key (.table .dotted inner) entries
    | some (.table .dotted inner) =>
      (assign v path inner).map fun inner => putItem key (.table .dotted inner) entries
    | some _ => none

end PageSlots.Settings.Toml
