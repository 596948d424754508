import RemoteScreen.Text.Hexadecimal
import RemoteScreen.Toml.Document

/-!
Sections of a configuration and the settings in them.

A section may be given as a table, by setting names, or as an array, by the order of its settings.
Settings left out keep their default and unknown ones are passed over, but a setting of the wrong
type or out of its range spoils the whole configuration.
-/

namespace RemoteScreen.Config

open Toml (Value Entries)

-- The values given to the settings of a section, whose names are listed in order. A date or time
-- gives none.
def section? (names : List String) : Value → Option Entries
  | .table _ entries => some entries
  | .array items => some (names.zip items)
  | .tables items => some (names.zip (items.map (.table .header)))
  | .moment => some []
  | _ => none

-- The section of a document with the given name; one that is left out gives no values.
def find? (document : Entries) (name : String) (names : List String) : Option Entries :=
  match document.find? name with
  | none => some []
  | some value => section? names value

def text? (entries : Entries) (name default : String) : Option String :=
  match entries.find? name with
  | none => some default
  | some (.text s) => some s
  | some _ => none

def boolean? (entries : Entries) (name : String) (default : Bool) : Option Bool :=
  match entries.find? name with
  | none => some default
  | some (.boolean b) => some b
  | some _ => none

-- A setting that counts, below `bound`.
def count? (entries : Entries) (name : String) (bound default : Nat) : Option Nat :=
  match entries.find? name with
  | none => some default
  | some (.integer n) => if 0 ≤ n ∧ n < bound then some n.toNat else none
  | some _ => none

-- The text of a configuration file; there is none if it is not well-formed.
def fileText? (file : List UInt8) : Option String :=
  String.fromUTF8? ⟨file.toArray⟩

inductive Written
  | text (s : String)
  | count (n : Nat)
  | boolean (b : Bool)

-- Sections by name, each with its settings by name, in the order in which they are written.
abbrev Sections := List (String × List (String × Written))

-- Escapes what cannot stand in a quoted text as it is. Line ends can, since a text that holds some
-- is written over several lines.
def escape (c : Char) : List Char :=
  match c with
  | '\n' => ['\n']
  | '\t' => ['\\', 't']
  | '\r' => ['\\', 'r']
  | '"' => ['\\', '"']
  | '\\' => ['\\', '\\']
  | _ =>
    if c.toNat < 0x20 ∨ c.toNat = 0x7f then ['\\', 'u'] ++ Hexadecimal.padded 4 c.toNat else [c]

-- A text with a line end in it is written over several lines.
def Written.render : Written → String
  | text s =>
    let body := String.ofList (s.toList.flatMap escape)
    if s.toList.contains '\n' then "\"\"\"\n" ++ body ++ "\"\"\"" else "\"" ++ body ++ "\""
  | count n => toString n
  | boolean b => if b then "true" else "false"

def renderSection (name : String) (settings : List (String × Written)) : String :=
  "[" ++ name ++ "]\n"
    ++ String.join (settings.map fun (key, value) => key ++ " = " ++ value.render ++ "\n")

def render (sections : Sections) : String :=
  String.intercalate "\n" (sections.map fun (name, settings) => renderSection name settings)

end RemoteScreen.Config
