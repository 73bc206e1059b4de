import Mathlib

/-!
Compact JSON text and its length in bytes.

A value is given by its text. Lengths are those of the UTF-8 encoding. A byte of a string takes at
most six bytes of its literal, so the length of a composed text is bounded by a sum over its parts.
-/

namespace Brenn.Lib.Json

/-! ### Writing -/

/-- A lowercase hexadecimal digit. -/
def hexDigit (n : Nat) : Char := if n < 10 then Char.ofNat (48 + n) else Char.ofNat (87 + n)

/-- A number's last `width` hexadecimal digits. -/
def hex : Nat → Nat → List Char
  | 0, _ => []
  | width + 1, n => hex width (n / 16) ++ [hexDigit (n % 16)]

/-- One character inside a string literal: quote, backslash and control characters are escaped, the
    common control characters by a letter. -/
def escape (c : Char) : List Char :=
  match c.toNat with
  | 0x22 => ['\x5c', '\x22']
  | 0x5c => ['\x5c', '\x5c']
  | 0x08 => ['\x5c', 'b']
  | 0x09 => ['\x5c', 't']
  | 0x0a => ['\x5c', 'n']
  | 0x0c => ['\x5c', 'f']
  | 0x0d => ['\x5c', 'r']
  | code => if code < 32 then ['\x5c', 'u', '0', '0', hexDigit (code / 16), hexDigit (code % 16)] else [c]

def string (text : String) : List Char := '\x22' :: (text.toList.flatMap escape ++ ['\x22'])

def number (n : Nat) : List Char := Nat.toDigits 10 n

def array (items : List (List Char)) : List Char := '[' :: ([','].intercalate items ++ [']'])

def object (fields : List (String × List Char)) : List Char :=
  '\x7b' :: ([','].intercalate (fields.map fun field => string field.1 ++ ':' :: field.2) ++ ['\x7d'])

/-- A field that is left out where it has no value. -/
def optionalField (key : String) (value : Option (List Char)) : List (String × List Char) := value.toList.map (key, ·)

/-! ### Lengths -/

/-- The length of a text in bytes. -/
def size (text : List Char) : Nat := String.utf8Len text

@[simp] theorem size_nil : size [] = 0 := rfl

@[simp]
theorem size_cons (c : Char) (text : List Char) : size (c :: text) = size text + c.utf8Size :=
  String.utf8Len_cons c text

@[simp]
theorem size_append (first second : List Char) : size (first ++ second) = size first + size second :=
  String.utf8Len_append first second

theorem size_toList (text : String) : size text.toList = text.utf8ByteSize := by
  rw [size, ← String.utf8ByteSize_ofList, String.ofList_toList]

theorem size_of_narrow {text : List Char} (narrow : ∀ c ∈ text, c.utf8Size = 1) : size text = text.length := by
  induction text with
  | nil => rfl
  | cons c text ih =>
    rw [size_cons, ih fun d among => narrow d (List.mem_cons_of_mem c among), narrow c List.mem_cons_self]
    rfl

theorem hexDigit_narrow : ∀ n < 16, (hexDigit n).utf8Size = 1 := by decide

@[simp]
theorem size_hex (width n : Nat) : size (hex width n) = width := by
  induction width generalizing n with
  | zero => rfl
  | succ width ih => rw [hex, size_append, ih, size_cons, size_nil, hexDigit_narrow _ (Nat.mod_lt n (by decide))]

theorem size_escape (c : Char) : size (escape c) ≤ 6 * c.utf8Size := by
  have wide := Char.utf8Size_pos c
  unfold escape
  split
  case h_8 =>
    split
    next control =>
      have high := hexDigit_narrow (c.toNat / 16) (by omega)
      have low := hexDigit_narrow (c.toNat % 16) (by omega)
      have letters : size ['\x5c', 'u', '0', '0'] = 4 := rfl
      simp only [size_cons, size_nil] at letters ⊢
      omega
    · simp only [size_cons, size_nil]
      omega
  all_goals exact Nat.le_trans (show (2 : Nat) ≤ 6 * 1 by decide) (Nat.mul_le_mul_left 6 wide)

/-- A byte of a string takes at most six bytes of its literal. -/
theorem size_string (text : String) : size (string text) ≤ 6 * text.utf8ByteSize + 2 := by
  have inner : ∀ chars : List Char, size (chars.flatMap escape) ≤ 6 * size chars := by
    intro chars
    induction chars with
    | nil => exact Nat.le_refl _
    | cons c chars ih =>
      have here := size_escape c
      rw [List.flatMap_cons, size_append, size_cons]
      omega
  have quoted : size (string text) = size (text.toList.flatMap escape) + 2 := by
    rw [string, size_cons, size_append]
    rfl
  rw [quoted, ← size_toList]
  exact Nat.add_le_add_right (inner _) 2

/-- Control characters without a letter of their own take all six. -/
theorem size_string_control (count : Nat) : size (string (String.ofList (List.replicate count '\x01'))) = 6 * count + 2 := by
  have inner : size ((List.replicate count '\x01').flatMap escape) = 6 * count := by
    induction count with
    | zero => rfl
    | succ count ih =>
      have one : size (escape '\x01') = 6 := by decide
      rw [List.replicate_succ, List.flatMap_cons, size_append, ih, one]
      omega
  rw [string, String.toList_ofList, size_cons, size_append, inner]
  rfl

theorem size_number {n width : Nat} (some : 0 < width) (fits : n < 10 ^ width) : size (number n) ≤ width := by
  have narrow : ∀ c ∈ Nat.toDigits 10 n, c.utf8Size = 1 := by
    intro c among
    have digit := Nat.isDigit_of_mem_toDigits (by decide) (Nat.le_refl 10) among
    rw [Char.utf8Size_eq_one_iff]
    simp only [Char.isDigit, Bool.and_eq_true, decide_eq_true_eq] at digit
    exact UInt32.le_trans digit.2 (by decide)
  rw [number, size_of_narrow narrow]
  exact Nat.toDigits_length 10 n width some fits

theorem size_u64 (n : UInt64) : size (number n.toNat) ≤ 20 :=
  size_number (by decide) (Nat.lt_trans n.toNat_lt (by decide))

theorem size_intercalate (items : List (List Char)) :
    size ([','].intercalate items) ≤ (items.map fun item => size item + 1).sum := by
  induction items with
  | nil => exact Nat.le_refl _
  | cons item items ih =>
    cases items with
    | nil => simp
    | cons other items =>
      have comma : size [','] = 1 := rfl
      rw [List.intercalate_cons_cons, size_append, size_append, comma, List.map_cons, List.sum_cons]
      exact Nat.add_le_add_left ih _

theorem size_le_intercalate {items : List (List Char)} {item : List Char} (among : item ∈ items) :
    size item ≤ size ([','].intercalate items) := by
  induction items with
  | nil => cases among
  | cons first items ih =>
    cases items with
    | nil =>
      obtain rfl := List.mem_singleton.mp among
      simp
    | cons second items =>
      rw [List.intercalate_cons_cons, size_append, size_append]
      rcases List.mem_cons.mp among with rfl | later
      · omega
      · have inner := ih later
        omega

theorem size_array {α : Type*} (items : List α) (text : α → List Char) :
    size (array (items.map text)) ≤ (items.map fun item => size (text item) + 1).sum + 2 := by
  have bracketed : size (array (items.map text)) = size ([','].intercalate (items.map text)) + 2 := by
    rw [array, size_cons, size_append]
    rfl
  have parts := size_intercalate (items.map text)
  rw [List.map_map] at parts
  rw [bracketed]
  exact Nat.add_le_add_right parts 2

/-- What some fields of an object can come to: key, colon, value and comma. -/
def cost (fields : List (String × List Char)) : Nat :=
  (fields.map fun field => size (string field.1) + size field.2 + 2).sum

@[simp] theorem cost_nil : cost [] = 0 := rfl

@[simp]
theorem cost_cons (key : String) (value : List Char) (fields : List (String × List Char)) :
    cost ((key, value) :: fields) = size (string key) + size value + 2 + cost fields := rfl

@[simp]
theorem cost_append (first second : List (String × List Char)) : cost (first ++ second) = cost first + cost second := by
  simp [cost]

theorem size_object (fields : List (String × List Char)) : size (object fields) ≤ cost fields + 2 := by
  have braced : size (object fields) =
      size ([','].intercalate (fields.map fun field => string field.1 ++ ':' :: field.2)) + 2 := by
    rw [object, size_cons, size_append]
    rfl
  have colon : ∀ field : String × List Char,
      size (string field.1 ++ ':' :: field.2) + 1 = size (string field.1) + size field.2 + 2 := by
    intro field
    have narrow : Char.utf8Size ':' = 1 := rfl
    rw [size_append, size_cons, narrow]
    omega
  have parts := size_intercalate (fields.map fun field => string field.1 ++ ':' :: field.2)
  simp only [List.map_map, Function.comp_def, colon] at parts
  rw [braced]
  exact Nat.add_le_add_right parts 2

theorem size_le_object {fields : List (String × List Char)} {key : String} {value : List Char}
    (among : (key, value) ∈ fields) : size value ≤ size (object fields) := by
  have listed : string key ++ ':' :: value ∈ fields.map fun field => string field.1 ++ ':' :: field.2 :=
    List.mem_map.mpr ⟨(key, value), among, rfl⟩
  have written := size_le_intercalate listed
  rw [size_append, size_cons] at written
  rw [object, size_cons, size_append]
  omega

theorem cost_optionalField (key : String) {value : Option (List Char)} {bound : Nat}
    (bounded : ∀ text ∈ value, size text ≤ bound) : cost (optionalField key value) ≤ size (string key) + bound + 2 := by
  cases value with
  | none => exact Nat.zero_le _
  | some text =>
    have small := bounded text rfl
    simp only [optionalField, Option.toList_some, List.map_cons, List.map_nil, cost_cons, cost_nil]
    omega

end Brenn.Lib.Json
