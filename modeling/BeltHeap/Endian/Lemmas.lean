import Mathlib.Algebra.Ring.Nat
import BeltHeap.Endian

/-
  What numbers are read back from their bytes.

  Main statements:
    * `littleValue_littleBytes` and `littleValue_lt`
    * `ByteOrder.decode_encode`
-/

------------------------------------------------------------
-- Little-Endian Numbers
------------------------------------------------------------

namespace BeltHeap

/- The bytes of a number give back its lowest bytes. -/
theorem littleValue_littleBytes
    (count : Nat)
    (value : Nat) :
    littleValue (littleBytes count value) =
      value % 256 ^ count := by
  induction count generalizing value with
  | zero => simp [littleBytes, littleValue, Nat.mod_one]
  | succ count ih =>
      have hByte :
          (UInt8.ofNat (value % 256)).toNat = value % 256 := by
        simp
      simp only [littleBytes, littleValue, hByte, ih]
      rw [Nat.pow_succ', Nat.mod_mul]

/- A number is below the power that its bytes allow. -/
theorem littleValue_lt
    (bs : List UInt8) :
    littleValue bs < 256 ^ bs.length := by
  induction bs with
  | nil => simp [littleValue]
  | cons b bs ih =>
      have := b.toNat_lt
      simp only [littleValue, List.length_cons, Nat.pow_succ']
      omega

------------------------------------------------------------
-- Byte Orders
------------------------------------------------------------

namespace ByteOrder

/- Decoding undoes encoding, up to the bytes that were cut off. -/
theorem decode_encode
    (order : ByteOrder)
    (count : Nat)
    (value : Nat) :
    order.decode (order.encode count value) =
      value % 256 ^ count := by
  cases order <;>
    simp [encode, decode, littleValue_littleBytes]

end ByteOrder

end BeltHeap
