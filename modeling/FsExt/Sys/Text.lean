import Mathlib.Data.List.Basic

set_option autoImplicit false

namespace Sys

def utf8 (text : List Char) : List UInt8 := text.flatMap String.utf8EncodeChar

def decodeUtf8 (octets : List UInt8) : Option (List Char) := octets.toByteArray.utf8Decode?.map Array.toList

theorem decode_utf8 (text : List Char) : decodeUtf8 (utf8 text) = some text := by
  have decoded : (utf8 text).toByteArray.utf8Decode? = some text.toArray := List.utf8Decode?_utf8Encode
  rw [decodeUtf8, decoded]
  rfl

theorem decoded_utf8 (octets : List UInt8) (text : List Char) (decoded : decodeUtf8 octets = some text) :
    octets = utf8 text := by
  obtain ⟨chars, found, rfl⟩ := Option.map_eq_some_iff.mp decoded
  have there : octets.toByteArray.utf8Decode?.isSome = true := by rw [found]; rfl
  have encoded := ByteArray.utf8Encode_get_utf8Decode? (h := there)
  simp only [found, Option.get_some] at encoded
  have same : (utf8 chars.toList).toByteArray = octets.toByteArray := encoded
  exact (List.toByteArray_inj.mp same).symm

theorem utf8_injective (left right : List Char) (same : utf8 left = utf8 right) : left = right := by
  have decoded := decode_utf8 left
  rw [same, decode_utf8] at decoded
  exact (Option.some.inj decoded).symm

theorem utf8_char_zero (char : Char) : 0 ∈ String.utf8EncodeChar char ↔ char = '\x00' := by
  have octet : ∀ value, (0 : UInt8) = UInt8.ofNat value ↔ value % 256 = 0 := fun value => by
    rw [← UInt8.toNat_inj, UInt8.toNat_ofNat', eq_comm]
    rfl
  have zero : char = '\x00' ↔ char.val.toNat = 0 := by
    rw [← Char.toNat_inj]
    exact Iff.rfl
  rw [zero]
  unfold String.utf8EncodeChar
  simp only
  split
  · simp only [List.mem_cons, List.not_mem_nil, or_false, octet]
    omega
  · split
    · simp only [List.mem_cons, List.not_mem_nil, or_false, octet]
      omega
    · split
      · simp only [List.mem_cons, List.not_mem_nil, or_false, octet]
        omega
      · simp only [List.mem_cons, List.not_mem_nil, or_false, octet]
        omega

theorem utf8_zero (text : List Char) : 0 ∈ utf8 text ↔ '\x00' ∈ text := by
  simp only [utf8, List.mem_flatMap, utf8_char_zero]
  exact ⟨fun ⟨_, member, same⟩ => same ▸ member, fun member => ⟨_, member, rfl⟩⟩

def utf16Char (char : Char) : List UInt16 :=
  if char.toNat < 0x10000 then [.ofNat char.toNat]
  else [.ofNat (0xD800 + (char.toNat - 0x10000) / 0x400), .ofNat (0xDC00 + (char.toNat - 0x10000) % 0x400)]

def utf16 (text : List Char) : List UInt16 := text.flatMap utf16Char

def highSurrogate (unit : UInt16) : Prop := 0xD800 ≤ unit.toNat ∧ unit.toNat < 0xDC00

def lowSurrogate (unit : UInt16) : Prop := 0xDC00 ≤ unit.toNat ∧ unit.toNat < 0xE000

instance (unit : UInt16) : Decidable (highSurrogate unit) := inferInstanceAs (Decidable (_ ∧ _))

instance (unit : UInt16) : Decidable (lowSurrogate unit) := inferInstanceAs (Decidable (_ ∧ _))

def scalar (unit : UInt16) : Option Char :=
  if highSurrogate unit ∨ lowSurrogate unit then none else some (.ofNat unit.toNat)

def paired (high low : UInt16) : Char := .ofNat (0x10000 + (high.toNat - 0xD800) * 0x400 + (low.toNat - 0xDC00))

-- None for a surrogate that is not part of a pair.
def scalars : List UInt16 → List (Option Char)
  | [] => []
  | [unit] => [scalar unit]
  | unit :: next :: rest =>
      if highSurrogate unit ∧ lowSurrogate next then some (paired unit next) :: scalars rest
      else scalar unit :: scalars (next :: rest)

theorem scalars_plain (unit : UInt16) (rest : List UInt16) (plain : ¬ highSurrogate unit) :
    scalars (unit :: rest) = scalar unit :: scalars rest := by
  cases rest with
  | nil => rfl
  | cons next rest => rw [scalars, if_neg fun pair => plain pair.1]

theorem char_not_surrogate (char : Char) : char.toNat < 0xD800 ∨ 0xDFFF < char.toNat ∧ char.toNat < 0x110000 :=
  char.valid

theorem scalars_char (char : Char) (rest : List UInt16) :
    scalars (utf16Char char ++ rest) = some char :: scalars rest := by
  have valid := char_not_surrogate char
  have rebuilt : Char.ofNat char.toNat = char := Char.ofNat_toNat char
  rw [utf16Char]
  split
  · rename_i basic
    have kept : (UInt16.ofNat char.toNat).toNat = char.toNat := by
      rw [UInt16.toNat_ofNat', Nat.mod_eq_of_lt (by omega)]
    have notHigh : ¬ highSurrogate (.ofNat char.toNat) := by
      rw [highSurrogate]
      omega
    have notLow : ¬ lowSurrogate (.ofNat char.toNat) := by
      rw [lowSurrogate]
      omega
    rw [List.singleton_append, scalars_plain _ _ notHigh, scalar, if_neg (by simp [notHigh, notLow]), kept, rebuilt]
  · rename_i beyond
    have high : (UInt16.ofNat (0xD800 + (char.toNat - 0x10000) / 0x400)).toNat =
        0xD800 + (char.toNat - 0x10000) / 0x400 := by
      rw [UInt16.toNat_ofNat', Nat.mod_eq_of_lt (by omega)]
    have low : (UInt16.ofNat (0xDC00 + (char.toNat - 0x10000) % 0x400)).toNat =
        0xDC00 + (char.toNat - 0x10000) % 0x400 := by
      rw [UInt16.toNat_ofNat', Nat.mod_eq_of_lt (by omega)]
    have pair : highSurrogate (.ofNat (0xD800 + (char.toNat - 0x10000) / 0x400)) ∧
        lowSurrogate (.ofNat (0xDC00 + (char.toNat - 0x10000) % 0x400)) := by
      rw [highSurrogate, lowSurrogate]
      omega
    have value : 0x10000 + (0xD800 + (char.toNat - 0x10000) / 0x400 - 0xD800) * 0x400 +
        (0xDC00 + (char.toNat - 0x10000) % 0x400 - 0xDC00) = char.toNat := by omega
    rw [List.cons_append, List.singleton_append, scalars, if_pos pair, paired, high, low, value, rebuilt]

theorem scalars_utf16 (text : List Char) : scalars (utf16 text) = text.map some := by
  induction text with
  | nil => rfl
  | cons char text ih => rw [utf16, List.flatMap_cons, scalars_char, ← utf16, ih, List.map_cons]

theorem scalars_text (text : List Char) (other : Char) :
    ((scalars (utf16 text)).map fun char => char.getD other) = text := by
  rw [scalars_utf16, List.map_map]
  exact List.map_id text

theorem utf16_char_length (char : Char) : 1 ≤ (utf16Char char).length := by
  rw [utf16Char]
  split <;> simp

theorem utf8_length_le (text : List Char) : (utf8 text).length ≤ 4 * (utf16 text).length := by
  induction text with
  | nil => exact Nat.le_refl 0
  | cons char text ih =>
      have octets : (String.utf8EncodeChar char).length ≤ 4 := by
        rw [String.length_utf8EncodeChar]
        exact Char.utf8Size_le_four char
      have units := utf16_char_length char
      rw [utf8, utf16, List.flatMap_cons, List.flatMap_cons, List.length_append, List.length_append]
      rw [utf8, utf16] at ih
      omega

theorem utf16_plain (text : List Char) (plain : 0 ∉ utf16 text) : '\x00' ∉ text := fun member =>
  plain (List.mem_flatMap.mpr ⟨_, member, .head _⟩)

end Sys
