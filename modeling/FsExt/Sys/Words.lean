import Mathlib

set_option autoImplicit false

namespace Sys

def octets : (width value : Nat) → List UInt8
  | 0, _ => []
  | width + 1, value => .ofNat (value % 256) :: octets width (value / 256)

def fromOctets : List UInt8 → Nat
  | [] => 0
  | octet :: rest => octet.toNat + 256 * fromOctets rest

@[simp] theorem octets_length (width value : Nat) : (octets width value).length = width := by
  induction width generalizing value with
  | zero => rfl
  | succ width ih => rw [octets, List.length_cons, ih]

theorem from_octets (width value : Nat) (fits : value < 256 ^ width) : fromOctets (octets width value) = value := by
  induction width generalizing value with
  | zero =>
      rw [Nat.pow_zero] at fits
      rw [octets, fromOctets]
      omega
  | succ width ih =>
      have low : (UInt8.ofNat (value % 256)).toNat = value % 256 := by
        rw [UInt8.toNat_ofNat']
        omega
      have high : value / 256 < 256 ^ width := by
        rw [Nat.pow_succ] at fits
        omega
      rw [octets, fromOctets, low, ih (value / 256) high]
      omega

def readWord (width position : Nat) (memory : List UInt8) : Option Nat :=
  if position + width ≤ memory.length then some (fromOctets ((memory.drop position).take width)) else none

theorem read_word (width value : Nat) (front rest : List UInt8) (fits : value < 256 ^ width) :
    readWord width front.length (front ++ (octets width value ++ rest)) = some value := by
  rw [readWord, if_pos (by simp only [List.length_append, octets_length]; omega), List.drop_left' rfl,
    List.take_left' (octets_length width value), from_octets width value fits]

def store (memory : List UInt8) (position : Nat) (data : List UInt8) : List UInt8 :=
  memory.take position ++ data ++ memory.drop (position + data.length)

theorem store_between (front old rest data : List UInt8) (same : old.length = data.length) :
    store (front ++ (old ++ rest)) front.length data = front ++ (data ++ rest) := by
  rw [store, List.take_left' rfl, ← same, ← List.drop_drop, List.drop_left' rfl, List.drop_left' rfl,
    List.append_assoc]

theorem signed_word (value : Int64) :
    (value.toUInt64.toNat : Int) = if 0 ≤ value.toInt then value.toInt else value.toInt + 2 ^ 64 := by
  have signed := BitVec.toInt_eq_toNat_cond value.toBitVec
  have bound := value.toUInt64.toNat_lt
  rw [Int64.toInt_toBitVec, Int64.toNat_toBitVec] at signed
  split at signed
  · rw [if_pos (by omega)]
    omega
  · rw [if_neg (by omega)]
    omega

theorem word_of_nonneg (value : Int64) (nonneg : 0 ≤ value.toInt) :
    (value.toUInt64.toNat : Int) = value.toInt ∧ value.toUInt64.toNat < 2 ^ 63 := by
  have word := signed_word value
  have bound := value.toInt_lt
  rw [if_pos nonneg] at word
  exact ⟨word, by omega⟩

theorem word_of_negative (value : Int64) (negative : value.toInt < 0) :
    (value.toUInt64.toNat : Int) = value.toInt + 2 ^ 64 ∧ 2 ^ 63 ≤ value.toUInt64.toNat := by
  have word := signed_word value
  have bound := value.le_toInt
  rw [if_neg (by omega)] at word
  exact ⟨word, by omega⟩

def wideOctets (units : List UInt16) : List UInt8 := units.flatMap fun unit => octets 2 unit.toNat

-- The string that starts at a byte: none if the end of the memory comes before
-- its terminator.
def readWide : List UInt8 → Option (List UInt16)
  | low :: high :: rest =>
      if low = 0 ∧ high = 0 then some [] else (readWide rest).map (.ofNat (fromOctets [low, high]) :: ·)
  | _ => none

@[simp] theorem wide_octets_length (units : List UInt16) : (wideOctets units).length = 2 * units.length := by
  induction units with
  | nil => rfl
  | cons unit units ih =>
      rw [wideOctets, List.flatMap_cons, List.length_append, octets_length, ← wideOctets, ih, List.length_cons]
      omega

theorem read_wide_end (rest : List UInt8) : readWide (0 :: 0 :: rest) = some [] := rfl

theorem read_wide_unit (unit : UInt16) (rest : List UInt8) (nonzero : unit ≠ 0) :
    readWide (octets 2 unit.toNat ++ rest) = (readWide rest).map (unit :: ·) := by
  have bound := unit.toNat_lt
  have value := from_octets 2 unit.toNat (by omega)
  have shape : octets 2 unit.toNat = [.ofNat (unit.toNat % 256), .ofNat (unit.toNat / 256 % 256)] := rfl
  rw [shape] at value ⊢
  have inhabited : ¬ (UInt8.ofNat (unit.toNat % 256) = 0 ∧ UInt8.ofNat (unit.toNat / 256 % 256) = 0) := by
    rintro ⟨low, high⟩
    rw [low, high] at value
    exact nonzero (UInt16.toNat_inj.mp value.symm)
  rw [List.cons_append, List.cons_append, List.nil_append, readWide, if_neg inhabited, value, UInt16.ofNat_toNat]

theorem read_wide_units (units : List UInt16) (rest : List UInt8) (plain : 0 ∉ units) :
    readWide (wideOctets units ++ rest) = (readWide rest).map (units ++ ·) := by
  induction units with
  | nil => simp [wideOctets]
  | cons unit units ih =>
      have nonzero : unit ≠ 0 := fun zero => plain (zero ▸ .head _)
      rw [wideOctets, List.flatMap_cons, ← wideOctets, List.append_assoc, read_wide_unit unit _ nonzero,
        ih fun inside => plain (.tail _ inside), Option.map_map]
      rfl

theorem read_wide_string (units : List UInt16) (rest : List UInt8) (plain : 0 ∉ units) :
    readWide (wideOctets units ++ (0 :: 0 :: rest)) = some units := by
  rw [read_wide_units units _ plain, read_wide_end, Option.map_some, List.append_nil]

end Sys
