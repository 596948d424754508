/-!
Values of a TOML document, and how its tables come into being.

A table is opened by a header, implied by a longer header, made by a dotted key, or written inline.
How it came into being decides what may still be put into it: each table is defined in one place
only, and nothing is defined twice.
-/

namespace RemoteScreen.Toml

inductive Origin
  | header
  -- Named on the way to another table.
  | implied
  | dotted
  | inline
deriving DecidableEq, Repr

-- The table was only named on the way to something else.
def Origin.isImplicit : Origin → Bool
  | .implied | .dotted => true
  | .header | .inline => false

inductive Value
  | text (s : String)
  | integer (n : Int)
  | float
  | boolean (b : Bool)
  | moment
  | array (items : List Value)
  | table (origin : Origin) (entries : List (String × Value))
  -- Tables that headers in double brackets open one after the other.
  | tables (items : List (List (String × Value)))
deriving Repr

-- The entries of a table in the order of their definition.
abbrev Entries := List (String × Value)

namespace Entries

def find? (key : String) : Entries → Option Value
  | [] => none
  | (k, v) :: rest => if k = key then some v else find? key rest

-- Puts a value under a key, in the place of the one that was there.
def put (key : String) (value : Value) : Entries → Entries
  | [] => [(key, value)]
  | (k, v) :: rest => if k = key then (k, value) :: rest else (k, v) :: put key value rest

def define? (key : String) (value : Value) (entries : Entries) : Option Entries :=
  match entries.find? key with
  | some _ => none
  | none => some (entries.put key value)

-- Changes the table at the end of a path. Tables missing on the way are made: as dotted ones on the
-- path of a dotted key, which may not pass through a table defined elsewhere, and as implied ones
-- on the path of a header. No path enters a table written inline from outside. Of tables in
-- sequence the path goes through the last.
def within (dotted : Bool) (change : Origin → Entries → Option (Origin × Entries)) :
    List String → Origin → Entries → Option (Origin × Entries)
  | [], origin, entries => change origin entries
  | key :: rest, origin, entries =>
    match entries.find? key with
    | none => do
      let (o, child) ← within dotted change rest (if dotted then .dotted else .implied) []
      return (origin, entries.put key (.table o child))
    | some (.table o child) =>
      if o = .inline ∨ dotted ∧ !o.isImplicit then none
      else do
        let (o, child) ← within dotted change rest o child
        return (origin, entries.put key (.table o child))
    | some (.tables items) =>
      match items.getLast? with
      | none => none
      | some last => do
        let (_, last) ← within dotted change rest .header last
        return (origin, entries.put key (.tables (items.dropLast ++ [last])))
    | some _ => none

-- Defines the value of a dotted key. The table that takes it must be the one at hand, or one made
-- by dotted keys.
def assign? (path : List String) (key : String) (value : Value) (origin : Origin)
    (entries : Entries) : Option (Origin × Entries) :=
  within true (fun o child =>
    if path ≠ [] ∧ o ≠ .dotted then none else (child.define? key value).map (o, ·)) path origin
    entries

-- Opens a table by its header. It may have been implied, but not defined.
def openTable? (path : List String) (key : String) (entries : Entries) : Option Entries :=
  (within false (fun o parent =>
    match parent.find? key with
    | none => some (o, parent.put key (.table .header []))
    | some (.table .implied child) => some (o, parent.put key (.table .header child))
    | some _ => none) path .header entries).map Prod.snd

-- Opens the next of the tables in sequence under a header in double brackets.
def openNext? (path : List String) (key : String) (entries : Entries) : Option Entries :=
  (within false (fun o parent =>
    match parent.find? key with
    | none => some (o, parent.put key (.tables [[]]))
    | some (.tables items) => some (o, parent.put key (.tables (items ++ [[]])))
    | some _ => none) path .header entries).map Prod.snd

-- Defines a dotted key in the table that the last header opened.
def assignWithin? (opened path : List String) (key : String) (value : Value)
    (entries : Entries) : Option Entries :=
  (within false (fun o child => assign? path key value o child) opened .header entries).map
    Prod.snd

end Entries

end RemoteScreen.Toml
