import RemoteScreen.Identity
import RemoteScreen.Proofs.Text.Numeral

namespace RemoteScreen.Identity

def Separates (c : Char) : Prop :=
  c = ':' ∨ c = '-'

-- A text falls into the parts between all its separators.
inductive Falls : List Char → List (List Char) → Prop
  | last {part : List Char} : (∀ c ∈ part, ¬ Separates c) → Falls part [part]
  | next {part rest : List Char} {separator : Char} {parts : List (List Char)} :
    (∀ c ∈ part, ¬ Separates c) → Separates separator → Falls rest parts →
    Falls (part ++ separator :: rest) (part :: parts)

-- A part that gives an octet.
def Gives (part : List Char) (octet : UInt8) : Prop :=
  Numeral.Writes 16 part octet.toNat

-- A text that falls into six parts, which give the octets of an identity in their order.
def Names (text : List Char) (i : Identity) : Prop :=
  ∃ parts, Falls text parts ∧ parts.length = 6 ∧ List.Forall₂ Gives parts i.octets

-- The characters of which texts are made that name identities.
def alphabet : List Char :=
  Numeral.small.take 16 ++ Numeral.capital.take 16 ++ ['+', ':', '-']

-- Ways for a text to name no identity.
inductive Spoilt : List Char → Prop
  | empty {text : List Char} {parts : List (List Char)} :
    Falls text parts → [] ∈ parts → Spoilt text
  | seventh {text : List Char} {parts : List (List Char)} :
    Falls text parts → 6 < parts.length → Spoilt text
  | plus {text : List Char} {parts : List (List Char)} :
    Falls text parts → ['+'] ∈ parts → Spoilt text
  | hyphen {rest : List Char} : Spoilt ('-' :: rest)
  | foreign {text : List Char} {c : Char} :
    c ∈ text → c ∉ alphabet → Spoilt text

variable {s : String} {i : Identity} {text part : List Char} {parts : List (List Char)} {c : Char}

theorem isSeparator_iff : isSeparator c ↔ Separates c := by
  simp [isSeparator, Separates]

theorem parts_cons_separator (h : Separates c) (rest : List Char) :
    Identity.parts (c :: rest) = [] :: Identity.parts rest := by
  rw [Identity.parts, isSeparator_iff.mpr h]

theorem parts_cons_free {first rest : List Char} {others : List (List Char)} (h : ¬ Separates c)
    (hp : Identity.parts rest = first :: others) :
    Identity.parts (c :: rest) = (c :: first) :: others := by
  rw [Identity.parts, eq_false_of_ne_true <| mt isSeparator_iff.mp h, hp]

-- A character in front of a text ends a part of its own, or it belongs to the first part.
theorem falls_parts (text : List Char) : Falls text (Identity.parts text) := by
  induction text with
  | nil => exact .last (List.forall_mem_nil _)
  | cons c rest hi =>
    by_cases hc : Separates c
    case pos =>
      rw [parts_cons_separator hc]
      exact .next (List.forall_mem_nil _) hc hi
    case neg =>
      generalize hp : Identity.parts rest = parts at hi
      cases hi
      case last hf =>
        rw [parts_cons_free hc hp]
        exact .last (List.forall_mem_cons.mpr ⟨hc, hf⟩)
      case next hf hs hr =>
        rw [parts_cons_free hc hp]
        exact .next (List.forall_mem_cons.mpr ⟨hc, hf⟩) hs hr

theorem parts_of_free (h : ∀ c ∈ part, ¬ Separates c) : Identity.parts part = [part] := by
  induction part with
  | nil => rfl
  | cons c rest hi =>
    rw [List.forall_mem_cons] at h
    exact parts_cons_free h.left (hi h.right)

theorem parts_append_separator (h : ∀ c ∈ part, ¬ Separates c) (hc : Separates c)
    (rest : List Char) : Identity.parts (part ++ c :: rest) = part :: Identity.parts rest := by
  induction part with
  | nil => exact parts_cons_separator hc rest
  | cons d front hi =>
    rw [List.forall_mem_cons] at h
    exact parts_cons_free h.left (hi h.right)

theorem Falls.eq_parts (h : Falls text parts) : parts = Identity.parts text := by
  induction h
  case last hf => exact (parts_of_free hf).symm
  case next hf hs _ hi => rw [parts_append_separator hf hs, ← hi]

theorem falls_iff : Falls text parts ↔ parts = Identity.parts text :=
  ⟨Falls.eq_parts, fun h => h ▸ falls_parts text⟩

theorem readOctets_of_gives {octets : Octets} (h : List.Forall₂ Gives parts octets)
    (surplus : List (List Char)) :
    readOctets parts.length (parts ++ surplus) = .ok (octets, surplus) := by
  induction h
  case nil => rfl
  case cons part octet _ _ gives _ hi =>
    have hr : Numeral.read 16 256 part = .ok octet.toNat :=
      Numeral.read_eq_ok_iff.mpr ⟨gives, octet.toNat_lt⟩
    simp only [List.length_cons, List.cons_append, readOctets, hr, hi, UInt8.ofNat_toNat]

theorem exists_gives_of_readOctets {count : Nat} {octets : Octets} {surplus : List (List Char)}
    (h : readOctets count parts = .ok (octets, surplus)) :
    ∃ front, parts = front ++ surplus ∧ front.length = count ∧
      List.Forall₂ Gives front octets := by
  induction count generalizing parts octets with
  | zero =>
    cases h
    exact ⟨[], rfl, rfl, .nil⟩
  | succ count hi =>
    cases parts
    case nil => contradiction
    case cons part rest =>
      rw [readOctets] at h
      split at h
      case h_1 => contradiction
      case h_2 value hv =>
        split at h
        case h_1 => contradiction
        case h_2 hr =>
          cases h
          have ⟨writes, bound⟩ := Numeral.read_eq_ok_iff.mp hv
          have gives : Gives part (UInt8.ofNat value) := by
            rwa [Gives, UInt8.toNat_ofNat_of_lt' bound]
          have ⟨front, he, hl, hf⟩ := hi hr
          exact ⟨part :: front, congrArg _ he, congrArg _ hl, .cons gives hf⟩

theorem names_iff : Names text i ↔ readOctets 6 (Identity.parts text) = .ok (i.octets, []) := by
  constructor
  case mp =>
    rintro ⟨parts, falls, hl, gives⟩
    have hr := readOctets_of_gives gives []
    rwa [hl, List.append_nil, falls.eq_parts] at hr
  case mpr =>
    intro h
    have ⟨front, he, hl, gives⟩ := exists_gives_of_readOctets h
    rw [List.append_nil] at he
    exact ⟨front, falls_iff.mpr he.symm, hl, gives⟩

theorem ofText_eq_ok_iff : ofText s = .ok i ↔ Names s.toList i := by
  rw [names_iff, ofText]
  split
  case h_1 hr => rw [hr]; exact ⟨nofun, nofun⟩
  case h_2 a b c d e f hr =>
    have ho : [a, b, c, d, e, f] = (Identity.mk a b c d e f).octets := rfl
    rw [hr, ho, Except.ok.injEq, Except.ok.injEq, Prod.mk.injEq, octets_inj, eq_self, and_true]
  case h_3 hn hr =>
    refine ⟨nofun, fun he => ?_⟩
    rw [hr, Except.ok.injEq] at he
    exact (hn _ _ _ _ _ _ he).elim

theorem exists_defect_of_ofText {fault : Fault} (h : ofText s = .error fault) :
    ∃ defect : Defect, fault = .configuration (defect.message s) := by
  rw [ofText] at h
  split at h
  case h_1 =>
    cases h
    exact ⟨_, rfl⟩
  case h_2 => contradiction
  case h_3 =>
    cases h
    exact ⟨_, rfl⟩

theorem not_separates_of_digit {d : Nat} (h : Numeral.Digit 16 c d) : ¬ Separates c := by
  obtain ⟨_, h | h⟩ := h
  all_goals
    rintro (rfl | rfl)
    all_goals exact absurd (List.mem_of_getElem? h) (by decide)

theorem digit_digitChar {d : Nat} (h : d < 16) : Numeral.Digit 16 (Nat.digitChar d) d := by
  have hd : ∀ d < 16, Numeral.digit? 16 (Nat.digitChar d) = some d := by decide
  exact Numeral.digit?_eq_some_iff.mp (hd d h)

theorem gives_octet (o : UInt8) : Gives (Hexadecimal.octet o) o := by
  have hl := o.toNat_lt
  have high : Numeral.Digit 16 (Nat.digitChar (o.toNat / 16)) (o.toNat / 16) :=
    digit_digitChar (by omega)
  have low : Numeral.Digit 16 (Nat.digitChar (o.toNat % 16)) (o.toNat % 16) :=
    digit_digitChar (by omega)
  refine .inl ⟨by simp [Hexadecimal.octet], _, .cons high (.cons low .nil), ?_⟩
  simp [Nat.ofDigits_cons]
  omega

theorem free_octet (o : UInt8) : ∀ c ∈ Hexadecimal.octet o, ¬ Separates c := by
  have hl := o.toNat_lt
  simp only [Hexadecimal.octet, List.forall_mem_cons]
  exact ⟨not_separates_of_digit (digit_digitChar (by omega)),
    not_separates_of_digit (digit_digitChar (by omega)), List.forall_mem_nil _⟩

theorem falls_intercalate (hn : parts ≠ []) (hf : ∀ part ∈ parts, ∀ c ∈ part, ¬ Separates c) :
    Falls (List.intercalate [':'] parts) parts := by
  induction parts with
  | nil => contradiction
  | cons part rest hi =>
    rw [List.forall_mem_cons] at hf
    cases rest
    case nil =>
      rw [List.intercalate_singleton]
      exact .last hf.left
    case cons next others =>
      rw [List.intercalate_cons_cons, List.append_assoc]
      exact .next hf.left (.inl rfl) (hi (List.cons_ne_nil _ _) hf.right)

theorem names_text (i : Identity) : Names i.text.toList i := by
  have free : ∀ part ∈ i.octets.map Hexadecimal.octet, ∀ c ∈ part, ¬ Separates c := by
    rw [List.forall_mem_map]
    exact fun o _ => free_octet o
  refine ⟨i.octets.map Hexadecimal.octet, ?_, rfl, ?_⟩
  · rw [text, String.toList_ofList]
    exact falls_intercalate (List.cons_ne_nil _ _) free
  · rw [List.forall₂_map_left_iff, List.forall₂_same]
    exact fun o _ => gives_octet o

-- Every character of a text either separates parts or belongs to one.
theorem Falls.mem (h : Falls text parts) (hc : c ∈ text) :
    Separates c ∨ ∃ part ∈ parts, c ∈ part := by
  induction h
  case last part _ => exact .inr ⟨part, List.mem_singleton_self _, hc⟩
  case next part rest separator parts _ hs _ hi =>
    rw [List.mem_append, List.mem_cons] at hc
    obtain hp | rfl | hr := hc
    · exact .inr ⟨part, List.mem_cons_self, hp⟩
    · exact .inl hs
    · obtain hs | ⟨part, hm, hc⟩ := hi hr
      · exact .inl hs
      · exact .inr ⟨part, List.mem_cons_of_mem _ hm, hc⟩

theorem mem_alphabet_of_digit {d : Nat} (h : Numeral.Digit 16 c d) : c ∈ alphabet := by
  obtain ⟨hd, h | h⟩ := h
  all_goals have hm := List.mem_of_getElem? <| (List.getElem?_take_of_lt hd).trans h
  · exact List.mem_append_left _ <| List.mem_append_left _ hm
  · exact List.mem_append_left _ <| List.mem_append_right _ hm

theorem mem_alphabet_of_separates (h : Separates c) : c ∈ alphabet := by
  apply List.mem_append_right
  obtain rfl | rfl := h <;> decide

theorem plus_mem_alphabet : '+' ∈ alphabet :=
  List.mem_append_right _ List.mem_cons_self

theorem Names.exists_gives (h : Names text i) (falls : Falls text parts) (hp : part ∈ parts) :
    ∃ octet, Gives part octet := by
  obtain ⟨parts', falls', _, gives⟩ := h
  rw [falls.eq_parts, ← falls'.eq_parts] at hp
  exact Numeral.exists_of_forall₂ gives hp

theorem Spoilt.not_names (h : Spoilt text) : ¬ Names text i := by
  intro names
  cases h with
  | empty falls hm =>
    have ⟨_, gives⟩ := names.exists_gives falls hm
    exact Numeral.not_writes_nil gives
  | seventh falls hl =>
    obtain ⟨parts, falls', six, _⟩ := names
    rw [falls.eq_parts, ← falls'.eq_parts, six] at hl
    contradiction
  | plus falls hm =>
    have ⟨_, gives⟩ := names.exists_gives falls hm
    exact Numeral.not_writes_lone_plus gives
  | @hyphen rest =>
    have hm : [] ∈ Identity.parts ('-' :: rest) := by
      rw [parts_cons_separator (.inr rfl)]
      exact List.mem_cons_self
    have ⟨_, gives⟩ := names.exists_gives (falls_parts _) hm
    exact Numeral.not_writes_nil gives
  | foreign hc hn =>
    obtain hs | ⟨part, hp, hc⟩ := (falls_parts text).mem hc
    case inl => exact hn (mem_alphabet_of_separates hs)
    case inr =>
      have ⟨_, gives⟩ := names.exists_gives (falls_parts text) hp
      obtain rfl | ⟨d, digit⟩ := gives.plus_or_digit hc
      · exact hn plus_mem_alphabet
      · exact hn (mem_alphabet_of_digit digit)

-- The fault says what is wrong with the text.
def Refuses (s : String) : Prop :=
  ∃ defect : Defect, ofText s = .error (.configuration (defect.message s))

theorem refuses_iff : Refuses s ↔ ¬ ∃ i, Names s.toList i := by
  constructor
  case mp =>
    rintro ⟨_, he⟩ ⟨i, names⟩
    rw [ofText_eq_ok_iff.mpr names] at he
    contradiction
  case mpr =>
    intro hn
    cases h : ofText s
    case ok i => exact absurd ⟨i, ofText_eq_ok_iff.mp h⟩ hn
    case error =>
      have ⟨defect, hf⟩ := exists_defect_of_ofText h
      exact ⟨defect, hf ▸ h⟩

-- What comes of reading a text.
structure Reads (s : String) : Prop where
  named   : ∀ i, ofText s = .ok i ↔ Names s.toList i
  refused : Refuses s ↔ ¬ ∃ i, Names s.toList i
  spoilt  : Spoilt s.toList → Refuses s

-- An identity is written as a text that names it, and no text is read but those that name one.
theorem written_and_read : (∀ i : Identity, ofText i.text = .ok i) ∧ ∀ s, Reads s := by
  refine ⟨fun i => ofText_eq_ok_iff.mpr i.names_text, fun s => ?_⟩
  constructor
  case named   => exact fun i => ofText_eq_ok_iff
  case refused => exact refuses_iff
  case spoilt  => exact fun h => refuses_iff.mpr fun ⟨_, names⟩ => h.not_names names

-- Signs, cases, zeros and separators may be mixed.
example : ofText "+2-0:5e-0010:0:Ff" = .ok ⟨0x02, 0x00, 0x5e, 0x10, 0x00, 0xff⟩ := by
  cbv

end RemoteScreen.Identity
