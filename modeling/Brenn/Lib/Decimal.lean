import Mathlib

/-!
Fixed-width decimals as text.

Texts of one width compare as the numbers they spell, so records of such fields with
fixed separators compare field by field. A reader of a fixed number of digits takes back what was
written and refuses anything else in their place.
-/

namespace Brenn.Lib

/-! ### Comparing texts -/

section Lexicographic

variable {α : Type*} [LinearOrder α]

/-- Texts whose heads have one length compare by their heads first. -/
theorem append_lt_append_iff {head head' rest rest' : List α} (same : head.length = head'.length) :
    head ++ rest < head' ++ rest' ↔ head < head' ∨ (head = head' ∧ rest < rest') := by
  induction head generalizing head' with
  | nil =>
    obtain rfl : head' = [] := List.eq_nil_of_length_eq_zero same.symm
    simp
  | cons first head ih =>
    cases head' with
    | nil => simp at same
    | cons first' head' =>
      simp only [List.cons_append, List.cons_lt_cons_iff, ih (Nat.succ.inj same), List.cons.injEq]
      constructor
      · rintro (smaller | ⟨rfl, smaller | ⟨rfl, smaller⟩⟩)
        · exact .inl (.inl smaller)
        · exact .inl (.inr ⟨rfl, smaller⟩)
        · exact .inr ⟨⟨rfl, rfl⟩, smaller⟩
      · rintro ((smaller | ⟨rfl, smaller⟩) | ⟨⟨rfl, rfl⟩, smaller⟩)
        · exact .inl smaller
        · exact .inr ⟨rfl, .inl smaller⟩
        · exact .inr ⟨rfl, .inr ⟨rfl, smaller⟩⟩

end Lexicographic

/-! ### Writing -/

def digit (n : Nat) : Char := Char.ofNat (48 + n)

/-- A number's last `width` digits. -/
def fixed : Nat → Nat → List Char
  | 0, _ => []
  | width + 1, n => fixed width (n / 10) ++ [digit (n % 10)]

@[simp]
theorem length_fixed (width n : Nat) : (fixed width n).length = width := by
  induction width generalizing n with
  | zero => rfl
  | succ width ih => simp [fixed, ih]

theorem digit_lt_digit : ∀ a < 10, ∀ b < 10, (digit a < digit b ↔ a < b) := by decide

theorem digit_inj : ∀ a < 10, ∀ b < 10, digit a = digit b → a = b := by decide

theorem fixed_inj {width a b : Nat} (fits : a < 10 ^ width) (fits' : b < 10 ^ width)
    (same : fixed width a = fixed width b) : a = b := by
  induction width generalizing a b with
  | zero => simp at fits fits'; omega
  | succ width ih =>
    rw [Nat.pow_succ] at fits fits'
    obtain ⟨heads, lasts⟩ := List.append_inj same (by simp)
    have tens := ih (by omega) (by omega) heads
    have units := digit_inj _ (Nat.mod_lt a (by decide)) _ (Nat.mod_lt b (by decide)) (List.cons.inj lasts).1
    omega

theorem fixed_lt_fixed {width a b : Nat} (fits : a < 10 ^ width) (fits' : b < 10 ^ width) :
    fixed width a < fixed width b ↔ a < b := by
  induction width generalizing a b with
  | zero =>
    simp only [Nat.pow_zero, Nat.lt_one_iff] at fits fits'
    simp [fixed, fits, fits']
  | succ width ih =>
    rw [Nat.pow_succ] at fits fits'
    have tens : a / 10 < 10 ^ width ∧ b / 10 < 10 ^ width := by omega
    have units := digit_lt_digit _ (Nat.mod_lt a (by decide)) _ (Nat.mod_lt b (by decide))
    rw [fixed, fixed, append_lt_append_iff (by simp), ih tens.1 tens.2]
    have last : ([digit (a % 10)] < [digit (b % 10)]) ↔ a % 10 < b % 10 := by
      rw [List.cons_lt_cons_iff, units]
      simp
    rw [last]
    constructor
    · rintro (smaller | ⟨same, smaller⟩)
      · omega
      · have := fixed_inj tens.1 tens.2 same
        omega
    · intro smaller
      rcases Nat.lt_or_ge (a / 10) (b / 10) with before | after
      · exact .inl before
      · exact .inr ⟨by rw [show a / 10 = b / 10 by omega], by omega⟩

/-- Records that begin with a field of one width compare by it first. -/
theorem field_lt_field {width a b : Nat} (fits : a < 10 ^ width) (fits' : b < 10 ^ width) {separator : Char}
    {rest rest' : List Char} : fixed width a ++ separator :: rest < fixed width b ++ separator :: rest' ↔
      a < b ∨ (a = b ∧ rest < rest') := by
  rw [append_lt_append_iff (by simp), fixed_lt_fixed fits fits', List.cons_lt_cons_iff]
  simp only [lt_irrefl, true_and, false_or]
  constructor
  · rintro (smaller | ⟨same, smaller⟩)
    · exact .inl smaller
    · exact .inr ⟨fixed_inj fits fits' same, smaller⟩
  · rintro (smaller | ⟨rfl, smaller⟩)
    · exact .inl smaller
    · exact .inr ⟨rfl, smaller⟩

/-- A number in `width` digits or as many as it has. -/
def padded (width n : Nat) : List Char := if n < 10 ^ width then fixed width n else Nat.toDigits 10 n

theorem padded_eq_fixed {width n : Nat} (fits : n < 10 ^ width) : padded width n = fixed width n := if_pos fits

/-! ### Bytes -/

/-- The bytes a text is encoded as. -/
def utf8 (text : List Char) : List UInt8 := text.flatMap String.utf8EncodeChar

theorem utf8EncodeChar_of_ascii {c : Char} (ascii : c.toNat < 128) : String.utf8EncodeChar c = [c.toUInt8] := by
  have narrow : c.val.toNat ≤ 127 := Nat.le_of_lt_succ ascii
  unfold String.utf8EncodeChar
  dsimp only
  rw [if_pos narrow]
  rfl

theorem toNat_toUInt8 {c : Char} (ascii : c.toNat < 128) : c.toUInt8.toNat = c.toNat := by
  show c.toNat % 256 = c.toNat
  exact Nat.mod_eq_of_lt (by omega)

theorem toUInt8_lt_toUInt8 {c d : Char} (ascii : c.toNat < 128) (ascii' : d.toNat < 128) : c.toUInt8 < d.toUInt8 ↔ c < d := by
  rw [UInt8.lt_iff_toNat_lt, toNat_toUInt8 ascii, toNat_toUInt8 ascii']
  rfl

theorem toUInt8_inj {c d : Char} (ascii : c.toNat < 128) (ascii' : d.toNat < 128) : c.toUInt8 = d.toUInt8 ↔ c = d := by
  rw [← UInt8.toNat_inj, toNat_toUInt8 ascii, toNat_toUInt8 ascii', Char.toNat_inj]

/-- Texts of ASCII compare as their bytes. -/
theorem utf8_lt_utf8 {text later : List Char} (ascii : ∀ c ∈ text, c.toNat < 128) (ascii' : ∀ c ∈ later, c.toNat < 128) :
    utf8 text < utf8 later ↔ text < later := by
  induction text generalizing later with
  | nil =>
    cases later with
    | nil => simp [utf8]
    | cons d later => simp [utf8, utf8EncodeChar_of_ascii (ascii' d List.mem_cons_self)]
  | cons c text ih =>
    have narrow := ascii c List.mem_cons_self
    cases later with
    | nil => simp [utf8, utf8EncodeChar_of_ascii narrow]
    | cons d later =>
      have narrow' := ascii' d List.mem_cons_self
      have rest := ih (fun c listed => ascii c (List.mem_cons_of_mem _ listed))
        fun c listed => ascii' c (List.mem_cons_of_mem _ listed)
      unfold utf8 at rest ⊢
      rw [List.flatMap_cons, List.flatMap_cons, utf8EncodeChar_of_ascii narrow, utf8EncodeChar_of_ascii narrow',
        List.singleton_append, List.singleton_append, List.cons_lt_cons_iff, List.cons_lt_cons_iff, rest,
        toUInt8_lt_toUInt8 narrow narrow', toUInt8_inj narrow narrow']

theorem digit_ascii : ∀ n < 10, (digit n).toNat < 128 := by decide

theorem fixed_ascii {width n : Nat} : ∀ c ∈ fixed width n, c.toNat < 128 := by
  induction width generalizing n with
  | zero => simp [fixed]
  | succ width ih =>
    intro c listed
    rcases List.mem_append.mp listed with before | last
    · exact ih c before
    · rw [List.mem_singleton.mp last]
      exact digit_ascii _ (Nat.mod_lt n (by decide))

/-! ### Reading -/

def digitValue (c : Char) : Option Nat := if '0' ≤ c ∧ c ≤ '9' then some (c.toNat - 48) else none

theorem digitValue_digit : ∀ n < 10, digitValue (digit n) = some n := by decide

/-- Read `width` digits onto a number. -/
def number : Nat → Nat → List Char → Option (Nat × List Char)
  | 0, acc, text => some (acc, text)
  | _ + 1, _, [] => none
  | width + 1, acc, c :: text => (digitValue c).bind fun value => number width (10 * acc + value) text

theorem number_append {width more acc : Nat} {head text : List Char} {read : Nat}
    (reads : number width acc head = some (read, [])) :
    number (width + more) acc (head ++ text) = number more read text := by
  induction width generalizing acc head with
  | zero =>
    cases reads
    simp
  | succ width ih =>
    cases head with
    | nil => cases reads
    | cons c head =>
      obtain ⟨value, valued, rest⟩ := Option.bind_eq_some_iff.mp reads
      rw [Nat.succ_add, List.cons_append, number, valued, Option.bind_some]
      exact ih rest

/-- A number is read back onto what was read before it. -/
theorem number_fixed (width acc n : Nat) (fits : n < 10 ^ width) (text : List Char) :
    number width acc (fixed width n ++ text) = some (acc * 10 ^ width + n, text) := by
  induction width generalizing n text with
  | zero =>
    simp only [Nat.pow_zero, Nat.lt_one_iff] at fits
    simp [fixed, number, fits]
  | succ width ih =>
    rw [Nat.pow_succ] at fits
    have tens : n / 10 < 10 ^ width := by omega
    have reads := ih (n / 10) tens []
    rw [List.append_nil] at reads
    rw [fixed, List.append_assoc, number_append reads, List.singleton_append, number,
      digitValue_digit _ (Nat.mod_lt n (by decide)), Option.bind_some, number, Nat.pow_succ]
    congr 2
    rw [Nat.mul_add, ← Nat.mul_assoc, Nat.mul_comm 10 acc, Nat.mul_assoc, Nat.mul_comm 10 (10 ^ width)]
    omega

/-- Read one fixed character. -/
def literal (expected : Char) : List Char → Option (List Char)
  | [] => none
  | c :: text => if c = expected then some text else none

@[simp]
theorem literal_cons (c : Char) (text : List Char) : literal c (c :: text) = some text := if_pos rfl

end Brenn.Lib
