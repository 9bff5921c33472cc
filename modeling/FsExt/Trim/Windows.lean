import FsExt.Sys.Words
import FsExt.Trim

set_option autoImplicit false

namespace FsExt.Trim.Windows

open Sys (wipe)

-- FSCTL_SET_ZERO_DATA and FSCTL_SET_SPARSE. The two fields of
-- FILE_ZERO_DATA_INFORMATION are a signed `LARGE_INTEGER`.
inductive ControlOp where
  | setZeroData (fileOffset beyondFinalZero : Int64)
  | setSparse

abbrev ControlAnswer (_ : ControlOp) : Type := Status

def trim (offset length : UInt64) : Sys.Program ControlOp ControlAnswer Status :=
  Sys.Program.perform (ControlOp.setZeroData offset.toInt64 (offset + length).toInt64)

def sparse : Sys.Program ControlOp ControlAnswer Status := Sys.Program.perform ControlOp.setSparse

-- A range that starts below zero or ends before it starts is an invalid
-- parameter; any other is made zero as far as the file goes, whether as a hole
-- or written out.
def controls : Sys.Program.Handler ControlOp ControlAnswer (List UInt8)
  | .setZeroData fileOffset beyondFinalZero, file =>
      if fileOffset.toInt < 0 ∨ beyondFinalZero.toInt < fileOffset.toInt then (.error .EINVAL, file)
      else (.ok (), wipe 0 fileOffset.toInt.toNat beyondFinalZero.toInt.toNat file)
  | .setSparse, file => (.ok (), file)

theorem control_end (offset length : Int64) :
    (offset.toUInt64 + length.toUInt64).toInt64.toInt = (offset.toInt + length.toInt).bmod (2 ^ 64) := by
  have words : (offset.toUInt64 + length.toUInt64).toInt64 = offset + length := rfl
  rw [words, Int64.toInt_add]

theorem run_trim (offset length : Int64) (file : List UInt8) :
    Sys.Program.run controls (trim offset.toUInt64 length.toUInt64) file =
      if 0 ≤ offset.toInt ∧ 0 ≤ length.toInt ∧ offset.toInt + length.toInt < 2 ^ 63 then
        (.ok (), wipe 0 offset.toInt.toNat (offset.toInt + length.toInt).toNat file)
      else (.error .EINVAL, file) := by
  have start : offset.toUInt64.toInt64 = offset := rfl
  have low := offset.le_toInt
  have high := offset.toInt_lt
  have low' := length.le_toInt
  have high' := length.toInt_lt
  have bound : (offset.toInt + length.toInt).bmod (2 ^ 64) =
      if offset.toInt + length.toInt < -2 ^ 63 then offset.toInt + length.toInt + 2 ^ 64
      else if offset.toInt + length.toInt < 2 ^ 63 then offset.toInt + length.toInt
      else offset.toInt + length.toInt - 2 ^ 64 := by
    rw [Int.bmod_def]
    split_ifs <;> omega
  rw [trim, Sys.Program.perform, Sys.Program.run_call, Sys.Program.run_ret]
  simp only [controls, start, control_end, bound]
  by_cases fine : 0 ≤ offset.toInt ∧ 0 ≤ length.toInt ∧ offset.toInt + length.toInt < 2 ^ 63
  · rw [if_pos fine, if_neg (show ¬ offset.toInt + length.toInt < -2 ^ 63 by omega), if_pos fine.2.2, if_neg (by omega)]
  · rw [if_neg fine, if_pos ?_]
    split_ifs <;> omega

end FsExt.Trim.Windows
