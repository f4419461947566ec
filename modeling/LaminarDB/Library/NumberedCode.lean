import Mathlib

/-!
# Values written as numbers

A value of an encodable type is written as the digits of its number, with a mark at the end, so
that no proper prefix is a value.
-/

namespace LaminarDB.Library

open List Encodable

instance encodableByte : Encodable UInt8 :=
  ofLeftInverse UInt8.toNat UInt8.ofNat fun _ => UInt8.ofNat_toNat

instance encodableChar : Encodable Char :=
  ofLeftInverse Char.toNat Char.ofNat Char.ofNat_toNat

instance encodableText : Encodable String :=
  ofLeftInverse String.toList String.ofList fun _ => String.ofList_toList

namespace NumberedCode

theorem toNat_digits (number : Nat) :
    ((Nat.digits 128 number).map UInt8.ofNat).map UInt8.toNat = Nat.digits 128 number := by
  rw [map_map]
  refine (map_congr_left fun digit isDigit => ?_).trans (map_id _)
  have small : digit < 128 := Nat.digits_lt_base (by decide) isDigit
  exact UInt8.toNat_ofNat_of_lt' (small.trans (by decide))

variable {Value : Type} [Encodable Value]

def digits (value : Value) : List UInt8 := (Nat.digits 128 (encode value)).map UInt8.ofNat

def write (value : Value) : List UInt8 := digits value ++ [255]

def read (bytes : List UInt8) : Except String Value :=
  if bytes.getLast? = some 255 then
    match decode (Nat.ofDigits 128 (bytes.dropLast.map UInt8.toNat)) with
    | some value => .ok value
    | none => .error "no such value"
  else .error "no mark"

def checksum (bytes : List UInt8) : UInt32 := if bytes.getLast? = some 255 then 1 else 0

theorem read_write (value : Value) : read (write value) = .ok value := by
  rw [read, write, List.getLast?_concat, if_pos rfl, dropLast_concat, digits,
    toNat_digits, Nat.ofDigits_digits, encodek]

theorem checksum_take {value : Value} {length : Nat} (cut : length < (write value).length) :
    checksum ((write value).take length) ≠ checksum (write value) := by
  rw [write, length_append, length_singleton, Nat.lt_succ_iff] at cut
  rw [write, take_append_of_le_length cut, checksum, checksum, List.getLast?_concat,
    if_pos rfl, if_neg]
  · decide
  · intro isMark
    have among := mem_of_mem_take (mem_of_getLast? isMark)
    obtain ⟨digit, isDigit, isMark⟩ := mem_map.mp among
    have small : digit < 128 := Nat.digits_lt_base (by decide) isDigit
    have same := congrArg UInt8.toNat isMark
    rw [UInt8.toNat_ofNat_of_lt' (small.trans (by decide))] at same
    exact absurd (same ▸ small) (by decide)

end NumberedCode

end LaminarDB.Library
