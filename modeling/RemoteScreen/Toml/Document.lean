import RemoteScreen.Toml.Number

/-!
Reading a whole TOML document.

A document is read line by line: a header opens a table, and a key with its value goes into the
table opened last. There is no answer if anything in it is malformed or defined twice.
-/

namespace RemoteScreen.Toml

-- What is left behind space and comments between the items of an array.
def skipFiller (text : List Char) : List Char :=
  match skipSpace text with
  | '#' :: rest =>
    match _h : lineEnd? (rest.dropWhile isCommented) with
    | some left => if left.length < text.length then skipFiller left else '#' :: rest
    | none => '#' :: rest
  | rest => rest
termination_by text.length

-- The rest of an array behind its bracket or a comma.
def items? (item : Reader Value) (text : List Char) : Option (List Value × List Char) :=
  match skipFiller text with
  | ']' :: rest => some ([], rest)
  | start =>
    match item start with
    | none => none
    | some (value, rest) =>
      match skipFiller rest with
      | ',' :: rest =>
        if rest.length < text.length then
          (items? item rest).map fun (values, rest) => (value :: values, rest)
        else none
      | ']' :: rest => some ([value], rest)
      | _ => none
termination_by text.length

def pair? (item : Reader Value) : Reader (List String × String × Value) := fun text => do
  let ((path, key), rest) ← key? text
  let rest ← mark? '=' (skipBlanks rest)
  let (value, rest) ← item (skipBlanks rest)
  return ((path, key, value), rest)

-- The rest of an inline table behind its brace or a comma.
def pairs? (item : Reader Value) (entries : Entries) (text : List Char) :
    Option (Entries × List Char) :=
  match pair? item text with
  | none => none
  | some ((path, key, value), rest) =>
    match entries.assign? path key value .inline with
    | none => none
    | some (_, entries) =>
      match skipBlanks rest with
      | ',' :: rest =>
        if rest.length < text.length then pairs? item entries rest else none
      | '\x7d' :: rest => some (entries, rest)
      | _ => none
termination_by text.length

def inlineTable? (item : Reader Value) : Reader Value := fun text =>
  match skipBlanks text with
  | '\x7d' :: rest => some (.table .inline [], rest)
  | text => (pairs? item [] text).map fun (entries, rest) => (.table .inline entries, rest)

-- A value with no more than `depth` levels of arrays and inline tables.
def value? : (depth : Nat) → Reader Value
  | depth, text =>
    match text with
    | '"' :: _ => (text? text).map fun (s, rest) => (.text s, rest)
    | '\'' :: _ => (text? text).map fun (s, rest) => (.text s, rest)
    | '[' :: rest =>
      match depth with
      | 0 => none
      | depth + 1 =>
        (items? (value? depth) rest).map fun (values, rest) => (.array values, rest)
    | '\x7b' :: rest =>
      match depth with
      | 0 => none
      | depth + 1 => inlineTable? (value? depth) rest
    | 't' :: 'r' :: 'u' :: 'e' :: rest => some (.boolean true, rest)
    | 'f' :: 'a' :: 'l' :: 's' :: 'e' :: rest => some (.boolean false, rest)
    | _ => number? text

def header? (closing : List Char) (text : List Char) :
    Option ((List String × String) × List Char) := do
  let (key, rest) ← key? text
  let rest := skipBlanks rest
  if closing.isPrefixOf rest then return (key, rest.drop closing.length) else none

-- The document read so far: its entries, and the table opened last.
structure Draft where
  entries : Entries := []
  opened : List String := []

-- Takes in one line of a document; what is left starts the next line.
def Draft.line? (d : Draft) (text : List Char) : Option (Draft × List Char) :=
  match text with
  | '#' :: _ => (closeLine? text).map (d, ·)
  | '[' :: '[' :: rest => do
    let ((path, key), rest) ← header? [']', ']'] rest
    let left ← closeLine? rest
    let entries ← d.entries.openNext? path key
    return (⟨entries, path ++ [key]⟩, left)
  | '[' :: rest => do
    let ((path, key), rest) ← header? [']'] rest
    let left ← closeLine? rest
    let entries ← d.entries.openTable? path key
    return (⟨entries, path ++ [key]⟩, left)
  | _ =>
    match lineEnd? text with
    | some left => some (d, left)
    | none => do
      let ((path, key, value), rest) ← pair? (value? (depthLimit - 1)) text
      let left ← closeLine? rest
      let entries ← d.entries.assignWithin? d.opened path key value
      return (⟨entries, d.opened⟩, left)

def Draft.lines? (d : Draft) (text : List Char) : Option Draft :=
  match skipBlanks text with
  | [] => some d
  | start =>
    match d.line? start with
    | none => none
    | some (d, left) => if left.length < text.length then d.lines? left else none
termination_by text.length

-- The entries of a document. A byte order mark may stand in front.
def parse? (s : String) : Option Entries :=
  let text :=
    match s.toList with
    | '\ufeff' :: rest => rest
    | all => all
  (({} : Draft).lines? text).map Draft.entries

end RemoteScreen.Toml
