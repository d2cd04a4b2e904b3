import BeltHeap.Word

/-
  Numbers as bytes, in the two orders a machine may use, and
  runs of bytes that others were written over.

  Key definitions include:
    * `ByteOrder`
    * `littleBytes`, `littleValue`
    * `ByteOrder.encode`, `ByteOrder.decode`
    * `Bytes.patched`
-/

------------------------------------------------------------
-- Little-Endian Numbers
------------------------------------------------------------

namespace BeltHeap

/- The lowest `count` bytes of a number, the lowest first. -/
def littleBytes : Nat → Nat → List UInt8
| 0, _ => []
| count + 1, value =>
    UInt8.ofNat (value % 256) :: littleBytes count (value / 256)

/- The number whose bytes are listed, the lowest first. -/
def littleValue : List UInt8 → Nat
| [] => 0
| b :: bs => b.toNat + 256 * littleValue bs

theorem length_littleBytes
    (count : Nat)
    (value : Nat) :
    (littleBytes count value).length = count := by
  induction count generalizing value with
  | zero => rfl
  | succ count ih => simp [littleBytes, ih]

/- Bytes are the bytes of the number they give. -/
theorem littleBytes_littleValue
    (bs : List UInt8) :
    littleBytes bs.length (littleValue bs) = bs := by
  induction bs with
  | nil => rfl
  | cons b bs ih =>
      have hLow :
          (b.toNat + 256 * littleValue bs) % 256 = b.toNat := by
        have := b.toNat_lt
        omega
      have hHigh :
          (b.toNat + 256 * littleValue bs) / 256 =
            littleValue bs := by
        have := b.toNat_lt
        omega
      simp [littleBytes, littleValue, hLow, hHigh, ih]

------------------------------------------------------------
-- Byte Orders
------------------------------------------------------------

/- The order in which a machine stores the bytes of a number. -/
inductive ByteOrder where
| littleEndian : ByteOrder
| bigEndian : ByteOrder
deriving DecidableEq, Repr

namespace ByteOrder

/- The name of a byte order. -/
def name : ByteOrder → String
| .littleEndian => "little_endian"
| .bigEndian => "big_endian"

/- The byte order with a name. -/
def ofName? : String → Option ByteOrder
| "little_endian" => some .littleEndian
| "big_endian" => some .bigEndian
| _ => none

/- The lowest `count` bytes of a number, as the machine has them. -/
def encode
    (order : ByteOrder)
    (count : Nat)
    (value : Nat) : List UInt8 :=
  match order with
  | .littleEndian => littleBytes count value
  | .bigEndian => (littleBytes count value).reverse

/- The number that the machine stores as these bytes. -/
def decode
    (order : ByteOrder)
    (bs : List UInt8) : Nat :=
  match order with
  | .littleEndian => littleValue bs
  | .bigEndian => littleValue bs.reverse

theorem length_encode
    (order : ByteOrder)
    (count : Nat)
    (value : Nat) :
    (order.encode count value).length = count := by
  cases order <;> simp [encode, length_littleBytes]

/- Encoding undoes decoding. -/
theorem encode_decode
    (order : ByteOrder)
    (bs : List UInt8) :
    order.encode bs.length (order.decode bs) = bs := by
  cases order with
  | littleEndian =>
      simpa [encode, decode] using littleBytes_littleValue bs
  | bigEndian =>
      have h := littleBytes_littleValue bs.reverse
      rw [List.length_reverse] at h
      simp [encode, decode, h]

end ByteOrder

------------------------------------------------------------
-- Runs of Bytes
------------------------------------------------------------

/- Bytes with others written over them from an offset on. -/
def Bytes.patched
    (offset : Nat)
    (patch bs : List UInt8) : List UInt8 :=
  bs.take offset ++ patch ++ bs.drop (offset + patch.length)

end BeltHeap
