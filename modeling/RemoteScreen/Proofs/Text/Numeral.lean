import Mathlib.Data.List.Forall2
import Mathlib.Data.Nat.Digits.Defs
import Mathlib.Tactic.Ring
import RemoteScreen.Text.Numeral

namespace RemoteScreen.Numeral

variable {radix bound start value d : Nat} {c : Char} {text digits : List Char}

-- The digits of all bases in their order. A base has as many of them as it counts.

def small : List Char :=
  "0123456789abcdefghijklmnopqrstuvwxyz".toList

def capital : List Char :=
  "0123456789ABCDEFGHIJKLMNOPQRSTUVWXYZ".toList

-- A digit of a base stands for its place among the digits.
def Digit (radix : Nat) (c : Char) (d : Nat) : Prop :=
  d < radix ∧ (small[d]? = some c ∨ capital[d]? = some c)

-- Digits, the most significant of them first, and at least one.
def Spells (radix : Nat) (digits : List Char) (value : Nat) : Prop :=
  digits ≠ [] ∧ ∃ values, List.Forall₂ (Digit radix) digits values ∧
    value = Nat.ofDigits radix values.reverse

-- One plus sign may stand in front of the digits.
def Writes (radix : Nat) (text : List Char) (value : Nat) : Prop :=
  Spells radix text value ∨ ∃ digits, text = '+' :: digits ∧ Spells radix digits value

-- Numerals have their places in the character set in a row, and so have the letters after `letter`.
theorem getElem?_eq_some_iff {alphabet : List Char} {letter : Nat}
    (h : ∀ d : Fin alphabet.length,
      alphabet[d].toNat = if d.val < 10 then d.val + 48 else d.val + letter) :
    alphabet[d]? = some c ↔
      d < alphabet.length ∧ c.toNat = if d < 10 then d + 48 else d + letter := by
  rw [List.getElem?_eq_some_iff]
  constructor
  case mp =>
    rintro ⟨hd, rfl⟩
    exact ⟨hd, h ⟨d, hd⟩⟩
  case mpr =>
    rintro ⟨hd, hc⟩
    exact ⟨hd, Char.toNat_inj.mp <| (h ⟨d, hd⟩).trans hc.symm⟩

theorem digit?_eq_some_iff : digit? radix c = some d ↔ Digit radix c d := by
  have le (a b : Char) : a ≤ b ↔ a.toNat ≤ b.toNat := Iff.rfl
  have hs : small[d]? = some c ↔ d < 36 ∧ c.toNat = if d < 10 then d + 48 else d + 87 :=
    getElem?_eq_some_iff (by decide +kernel)
  have hc : capital[d]? = some c ↔ d < 36 ∧ c.toNat = if d < 10 then d + 48 else d + 55 :=
    getElem?_eq_some_iff (by decide +kernel)
  rw [Digit, hs, hc]
  simp only [digit?, le, Char.reduceToNat, Option.ite_none_right_eq_some, Option.some_inj]
  generalize c.toNat = n
  by_cases numeral : 48 ≤ n ∧ n ≤ 57
  case pos =>
    rw [if_pos numeral]
    split <;> omega
  case neg =>
    rw [if_neg numeral]
    by_cases letter : 97 ≤ n ∧ n ≤ 122
    case pos =>
      rw [if_pos letter]
      split <;> omega
    case neg =>
      rw [if_neg letter]
      split <;> split <;> omega

theorem not_digit_plus : ¬ Digit radix '+' d := by
  rintro ⟨_, h | h⟩
  all_goals exact absurd (List.mem_of_getElem? h) (by decide)

theorem ofDigits_cons_reverse (d : Nat) (values : List Nat) :
    Nat.ofDigits radix (d :: values).reverse
      = d * radix ^ values.length + Nat.ofDigits radix values.reverse := by
  rw [List.reverse_cons, Nat.ofDigits_append, Nat.ofDigits_singleton, List.length_reverse]
  ring

-- The digit at hand joins those in front of it.
theorem number_cons (start d : Nat) (values : List Nat) :
    start * radix ^ (d :: values).length + Nat.ofDigits radix (d :: values).reverse
      = (start * radix + d) * radix ^ values.length + Nat.ofDigits radix values.reverse := by
  rw [ofDigits_cons_reverse, List.length_cons]
  ring

theorem extend_of_digits {values : List Nat} (h : List.Forall₂ (Digit radix) text values)
    (hb : start * radix ^ values.length + Nat.ofDigits radix values.reverse < bound) :
    extend radix bound start text
      = .ok (start * radix ^ values.length + Nat.ofDigits radix values.reverse) := by
  induction h generalizing start
  case nil => simp [extend]
  case cons c d rest values digit _ hi =>
    rw [number_cons] at hb ⊢
    have hr : 0 < radix ^ values.length := Nat.pow_pos <| Nat.zero_lt_of_lt digit.left
    have hl : start * radix + d < bound := by
      calc start * radix + d
        _ ≤ (start * radix + d) * radix ^ values.length := Nat.le_mul_of_pos_right _ hr
        _ ≤ _ := Nat.le_add_right ..
        _ < bound := hb
    rw [extend, digit?_eq_some_iff.mpr digit]
    simp only [if_pos hl]
    exact hi hb

theorem exists_digits_of_extend (h : extend radix bound start text = .ok value) :
    ∃ values, List.Forall₂ (Digit radix) text values ∧
      value = start * radix ^ values.length + Nat.ofDigits radix values.reverse ∧
      ((text = [] → start < bound) → value < bound) := by
  induction text generalizing start with
  | nil =>
    cases h
    exact ⟨[], .nil, by simp, fun hb => hb rfl⟩
  | cons c rest hi =>
    rw [extend] at h
    split at h
    case h_1 => contradiction
    case h_2 d hd =>
      split at h
      case isFalse => contradiction
      case isTrue hl =>
        have ⟨values, hv, he, hb⟩ := hi h
        refine ⟨d :: values, .cons (digit?_eq_some_iff.mp hd) hv, ?_, fun _ => hb fun _ => hl⟩
        rw [number_cons, he]

theorem extend_zero_eq_ok_iff (h : text ≠ []) :
    extend radix bound 0 text = .ok value ↔ Spells radix text value ∧ value < bound := by
  constructor
  case mp =>
    intro he
    have ⟨values, hv, hn, hb⟩ := exists_digits_of_extend he
    rw [Nat.zero_mul, Nat.zero_add] at hn
    exact ⟨⟨h, values, hv, hn⟩, hb fun hn => absurd hn h⟩
  case mpr =>
    rintro ⟨⟨_, values, hv, rfl⟩, hb⟩
    have he : Nat.ofDigits radix values.reverse
        = 0 * radix ^ values.length + Nat.ofDigits radix values.reverse := by
      rw [Nat.zero_mul, Nat.zero_add]
    rw [he] at hb ⊢
    exact extend_of_digits hv hb

theorem writes_plus_iff : Writes radix ('+' :: digits) value ↔ Spells radix digits value := by
  constructor
  case mp =>
    rintro (⟨_, _, digit, _⟩ | ⟨_, he, h⟩)
    case inl => cases digit with | cons plus _ => exact absurd plus not_digit_plus
    case inr =>
      cases he
      exact h
  case mpr => exact fun h => .inr ⟨digits, rfl, h⟩

theorem not_writes_nil : ¬ Writes radix [] value := by
  rintro (⟨h, _⟩ | ⟨_, h, _⟩) <;> contradiction

theorem not_writes_lone_plus : ¬ Writes radix ['+'] value := by
  rw [writes_plus_iff]
  exact fun h => h.left rfl

theorem exists_of_forall₂ {α β : Type} {r : α → β → Prop} {as : List α} {bs : List β}
    (h : List.Forall₂ r as bs) {a : α} (ha : a ∈ as) : ∃ b, r a b := by
  obtain ⟨i, hi, rfl⟩ := List.getElem_of_mem ha
  exact ⟨_, h.get hi (h.length_eq ▸ hi)⟩

theorem Spells.exists_digit (h : Spells radix digits value) (hc : c ∈ digits) :
    ∃ d, Digit radix c d :=
  have ⟨_, _, hd, _⟩ := h
  exists_of_forall₂ hd hc

theorem Writes.plus_or_digit (h : Writes radix text value) (hc : c ∈ text) :
    c = '+' ∨ ∃ d, Digit radix c d := by
  obtain h | ⟨digits, rfl, h⟩ := h
  case inl => exact .inr (h.exists_digit hc)
  case inr =>
    rw [List.mem_cons] at hc
    exact hc.imp_right h.exists_digit

-- A text is read just if it writes a value that is not too large.
theorem read_eq_ok_iff :
    read radix bound text = .ok value ↔ Writes radix text value ∧ value < bound := by
  fun_cases read
  case case1 => simp [not_writes_nil]
  case case2 => simp [not_writes_lone_plus]
  case case3 rest hr =>
    have hn : rest ≠ [] := fun h => hr (h ▸ rfl)
    rw [extend_zero_eq_ok_iff hn, writes_plus_iff]
  case case4 hn _ hp =>
    have hw : Writes radix text value ↔ Spells radix text value := by
      refine or_iff_left ?_
      rintro ⟨digits, h, _⟩
      exact hp digits h
    rw [extend_zero_eq_ok_iff hn, hw]

end RemoteScreen.Numeral
