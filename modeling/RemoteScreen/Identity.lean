import RemoteScreen.Fault
import RemoteScreen.Octets
import RemoteScreen.Text.Numeral
import RemoteScreen.Text.Quoted

/-!
Link identities, the six octets that name a station, and their text form.

A text names an identity if it falls at its colons and hyphens into exactly six numerals of base
sixteen, each below 256. The parts are judged from the left, so a bad part is reported before a
missing or a surplus one further on.
-/

namespace RemoteScreen

structure Identity where
  a : UInt8
  b : UInt8
  c : UInt8
  d : UInt8
  e : UInt8
  f : UInt8
deriving DecidableEq, Repr, Inhabited

namespace Identity

-- The identity that every station answers to.
def broadcast : Identity :=
  ⟨255, 255, 255, 255, 255, 255⟩

def zero : Identity :=
  ⟨0, 0, 0, 0, 0, 0⟩

def octets (i : Identity) : Octets :=
  [i.a, i.b, i.c, i.d, i.e, i.f]

def take? : Octets → Option (Identity × Octets)
  | a :: b :: c :: d :: e :: f :: rest => some (⟨a, b, c, d, e, f⟩, rest)
  | _ => none

@[simp]
theorem length_octets (i : Identity) : i.octets.length = 6 :=
  rfl

@[simp]
theorem take?_octets_append (i : Identity) (rest : Octets) :
    take? (i.octets ++ rest) = some (i, rest) :=
  rfl

theorem octets_inj {identity identity' : Identity} :
    identity.octets = identity'.octets ↔ identity = identity' := by
  cases identity
  cases identity'
  simp [octets]

-- The octets in pairs of digits with colons between them.
def text (i : Identity) : String :=
  String.ofList (List.intercalate [':'] (i.octets.map Hexadecimal.octet))

def describe (i : Identity) : String :=
  "MacAddr([" ++ String.intercalate ", " (i.octets.map fun o => toString o.toNat) ++ "])"

def isSeparator (c : Char) : Bool :=
  c == ':' || c == '-'

-- The parts between separators. There is one part more than there are separators.
def parts : List Char → List (List Char)
  | [] => [[]]
  | c :: rest =>
    match isSeparator c, parts rest with
    | true, all => [] :: all
    | false, first :: others => (c :: first) :: others
    | false, [] => [[c]]

inductive Defect
  | tooShort
  | tooLong
  | badPart (defect : Numeral.Defect)

def Defect.message (text : String) : Defect → String
  | tooShort => "link identity too short: " ++ text
  | tooLong => "link identity too long: " ++ text
  | badPart defect => "link identity " ++ text ++ ": " ++ defect.message

def readOctets : (count : Nat) → List (List Char) → Except Defect (Octets × List (List Char))
  | 0, parts => .ok ([], parts)
  | _ + 1, [] => .error .tooShort
  | count + 1, part :: rest =>
    match Numeral.read 16 256 part with
    | .error defect => .error (.badPart defect)
    | .ok value =>
      match readOctets count rest with
      | .error defect => .error defect
      | .ok (octets, surplus) => .ok (UInt8.ofNat value :: octets, surplus)

def ofText (s : String) : Except Fault Identity :=
  match readOctets 6 (parts s.toList) with
  | .error defect => .error (.configuration (defect.message s))
  | .ok ([a, b, c, d, e, f], []) => .ok ⟨a, b, c, d, e, f⟩
  | .ok _ => .error (.configuration (Defect.tooLong.message s))

def isUsable (i : Identity) : Bool :=
  i != broadcast && i != zero

def ofSetting (s : String) : Except Fault Identity :=
  match ofText s with
  | .error fault => .error fault
  | .ok identity =>
    if identity.isUsable then .ok identity
    else .error (.configuration ("identity " ++ identity.text ++ " cannot be used by a station"))

end Identity

-- The link type tag that a text gives in base sixteen, with or without its mark.
def Ethertype.ofText (s : String) : Except Fault UInt16 :=
  let digits :=
    match s.toList with
    | '0' :: 'x' :: rest => rest
    | '0' :: 'X' :: rest => rest
    | all => all
  match Numeral.read 16 65536 digits with
  | .ok value => .ok (UInt16.ofNat value)
  | .error defect =>
    .error (.configuration ("ethertype " ++ Quoted.text s ++ ": " ++ defect.message))

end RemoteScreen
