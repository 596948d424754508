/-!
Readers for the small parts of a TOML document: blanks, comments, line ends, keys and texts.

A reader takes what it reads off the front of the characters and hands back the rest.
-/

namespace RemoteScreen.Toml

abbrev Reader (α : Type) := List Char → Option (α × List Char)

def isBlank (c : Char) : Bool :=
  c == ' ' || c == '\t'

-- What is left behind blanks.
def skipBlanks (text : List Char) : List Char :=
  text.dropWhile isBlank

-- What is left behind a line end.
def lineEnd? : List Char → Option (List Char)
  | '\n' :: rest => some rest
  | '\r' :: '\n' :: rest => some rest
  | _ => none

def isCommented (c : Char) : Bool :=
  c == '\t' || (0x20 ≤ c.toNat && c.toNat ≤ 0x7e) || 0x80 ≤ c.toNat

-- What is left behind a comment, if there is one.
def skipComment : List Char → List Char
  | '#' :: rest => rest.dropWhile isCommented
  | text => text

-- What is left behind the end of a line, with blanks and a comment before it. The end of the
-- document ends a line too.
def closeLine? (text : List Char) : Option (List Char) :=
  match skipComment (skipBlanks text) with
  | [] => some []
  | rest => lineEnd? rest

-- What is left behind blanks and line ends.
def skipSpace : List Char → List Char
  | '\n' :: rest => skipSpace rest
  | '\r' :: '\n' :: rest => skipSpace rest
  | c :: rest => if isBlank c then skipSpace rest else c :: rest
  | [] => []

def isBare (c : Char) : Bool :=
  c.isAlphanum || c == '-' || c == '_'

-- Characters that stand for themselves in a literal text.
def isLiteral (c : Char) : Bool :=
  c != '\'' && isCommented c

-- Characters that stand for themselves in a basic text.
def isPlain (c : Char) : Bool :=
  c != '"' && c != '\\' && isCommented c

def hexValue? (c : Char) : Option Nat :=
  if '0' ≤ c ∧ c ≤ '9' then some (c.toNat - '0'.toNat)
  else if 'a' ≤ c ∧ c ≤ 'f' then some (c.toNat - 'a'.toNat + 10)
  else if 'A' ≤ c ∧ c ≤ 'F' then some (c.toNat - 'A'.toNat + 10)
  else none

-- The character whose code point is written in `count` digits.
def codePoint? (count : Nat) (text : List Char) : Option (Char × List Char) := do
  let digits ← (text.take count).mapM hexValue?
  let value := digits.foldl (· * 16 + ·) 0
  if digits.length = count ∧ value.isValidChar then
    return (Char.ofNat value, text.drop count)
  else none

def escaped? : Reader Char
  | 'b' :: rest => some ('\x08', rest)
  | 't' :: rest => some ('\t', rest)
  | 'n' :: rest => some ('\n', rest)
  | 'f' :: rest => some ('\x0c', rest)
  | 'r' :: rest => some ('\r', rest)
  | '"' :: rest => some ('"', rest)
  | '\\' :: rest => some ('\\', rest)
  | 'u' :: rest => codePoint? 4 rest
  | 'U' :: rest => codePoint? 8 rest
  | _ => none

-- What is left behind a backslash at the end of a line: the line end and all space behind it.
def continued? (text : List Char) : Option (List Char) :=
  (lineEnd? (skipBlanks text)).map skipSpace

-- Quotes at the front of a text, no more than five.
def quotes (quote : Char) (text : List Char) : Nat :=
  ((text.take 5).takeWhile (· = quote)).length

-- The rest of a basic text on one line. The first number only bounds the recursion.
def basicRest? : Nat → Reader (List Char)
  | 0, _ => none
  | _ + 1, '"' :: rest => some ([], rest)
  | n + 1, '\\' :: rest => do
    let (c, rest) ← escaped? rest
    let (cs, rest) ← basicRest? n rest
    return (c :: cs, rest)
  | n + 1, c :: rest =>
    if isPlain c then (basicRest? n rest).map fun (cs, rest) => (c :: cs, rest) else none
  | _, [] => none

-- The rest of a basic text over several lines. Up to two quotes may stand before the three that
-- close it.
def basicLinesRest? : Nat → Reader (List Char)
  | 0, _ => none
  | n + 1, text =>
    match text with
    | '"' :: rest =>
      let count := quotes '"' text
      if 3 ≤ count then some (List.replicate (count - 3) '"', text.drop count)
      else (basicLinesRest? n rest).map fun (cs, rest) => ('"' :: cs, rest)
    | '\\' :: rest =>
      match continued? rest with
      | some rest => basicLinesRest? n rest
      | none => do
        let (c, rest) ← escaped? rest
        let (cs, rest) ← basicLinesRest? n rest
        return (c :: cs, rest)
    | c :: rest =>
      match lineEnd? text with
      | some rest => (basicLinesRest? n rest).map fun (cs, rest) => ('\n' :: cs, rest)
      | none =>
        if isPlain c then (basicLinesRest? n rest).map fun (cs, rest) => (c :: cs, rest)
        else none
    | [] => none

def literalRest? (text : List Char) : Option (List Char × List Char) :=
  match text.dropWhile isLiteral with
  | '\'' :: rest => some (text.takeWhile isLiteral, rest)
  | _ => none

def literalLinesRest? : Nat → Reader (List Char)
  | 0, _ => none
  | n + 1, text =>
    match text with
    | '\'' :: rest =>
      let count := quotes '\'' text
      if 3 ≤ count then some (List.replicate (count - 3) '\'', text.drop count)
      else (literalLinesRest? n rest).map fun (cs, rest) => ('\'' :: cs, rest)
    | c :: rest =>
      match lineEnd? text with
      | some rest => (literalLinesRest? n rest).map fun (cs, rest) => ('\n' :: cs, rest)
      | none =>
        if isLiteral c then (literalLinesRest? n rest).map fun (cs, rest) => (c :: cs, rest)
        else none
    | [] => none

-- What is left behind a line end right at the start of a text over several lines.
def skipFirstLineEnd (text : List Char) : List Char :=
  (lineEnd? text).getD text

def text? : Reader String
  | '"' :: '"' :: '"' :: rest =>
    (basicLinesRest? (rest.length + 1) (skipFirstLineEnd rest)).map fun (cs, rest) =>
      (String.ofList cs, rest)
  | '"' :: rest =>
    (basicRest? (rest.length + 1) rest).map fun (cs, rest) => (String.ofList cs, rest)
  | '\'' :: '\'' :: '\'' :: rest =>
    (literalLinesRest? (rest.length + 1) (skipFirstLineEnd rest)).map fun (cs, rest) =>
      (String.ofList cs, rest)
  | '\'' :: rest => (literalRest? rest).map fun (cs, rest) => (String.ofList cs, rest)
  | _ => none

def simpleKey? (text : List Char) : Option (String × List Char) :=
  match text with
  | '"' :: rest =>
    (basicRest? (rest.length + 1) rest).map fun (cs, rest) => (String.ofList cs, rest)
  | '\'' :: rest => (literalRest? rest).map fun (cs, rest) => (String.ofList cs, rest)
  | _ =>
    let bare := text.takeWhile isBare
    if bare = [] then none else some (String.ofList bare, text.dropWhile isBare)

-- Nesting of values and parts of a key stay below this.
def depthLimit : Nat := 80

-- The parts of a dotted key, no more than `room`, with blanks around each.
def keyParts? : (room : Nat) → Reader (List String)
  | 0, _ => none
  | room + 1, text => do
    let (part, rest) ← simpleKey? (skipBlanks text)
    match skipBlanks rest with
    | '.' :: rest =>
      let (parts, rest) ← keyParts? room rest
      return (part :: parts, rest)
    | rest => return ([part], rest)

-- A dotted key: the parts before the last one, and the last.
def key? : Reader (List String × String) := fun text => do
  let (parts, rest) ← keyParts? (depthLimit - 1) text
  let last ← parts.getLast?
  return ((parts.dropLast, last), rest)

end RemoteScreen.Toml
