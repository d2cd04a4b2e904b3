import BeltHeap.Proofs.Headers

/-
  The bytes of a header and the header of bytes: bytes that are
  read as a header are its bytes, but for those that are
  reserved, and a header that is read from its own bytes is
  refused for the first thing that is wrong with it.

  Main declarations:
    * `BootImageHeader.toBytes_of_describes`
    * `BootImageHeader.decided_toBytes`
    * `BootImageHeader.codec_is_exact`
-/

------------------------------------------------------------
-- Bytes that Were Read
------------------------------------------------------------

namespace BeltHeap

namespace BootImageHeader

variable {h : BootImageHeader}
variable {bs : List UInt8}

/- A flag that stands for a byte order is the flag of it. -/
theorem orderFlag_of_orderOfFlag
    {flag : UInt8}
    {order : ByteOrder}
    (hOrder : orderOfFlag? flag.toNat = .ok order) :
    orderFlag order = flag := by
  unfold orderOfFlag? at hOrder
  split at hOrder
  · rename_i hZero
    cases hOrder
    exact (UInt8.toNat_inj.mp hZero).symm
  split at hOrder
  · rename_i hOne
    cases hOrder
    exact (UInt8.toNat_inj.mp hOne).symm
  · cases hOrder

theorem length_slice
    {offset count : Nat}
    (hWithin : offset + count ≤ bs.length) :
    (slice bs offset count).length = count := by
  unfold slice
  rw [List.length_take, List.length_drop]
  omega

/- A number that was read from a slice is written as the slice. -/
theorem encode_decode_slice
    (order : ByteOrder)
    {offset count : Nat}
    (hWithin : offset + count ≤ bs.length) :
    order.encode count (order.decode (slice bs offset count)) =
      slice bs offset count := by
  have hEncoded := order.encode_decode (slice bs offset count)
  rwa [length_slice hWithin] at hEncoded

theorem drop_eq_slice_append
    (bs : List UInt8)
    (offset count : Nat) :
    bs.drop offset =
      slice bs offset count ++ bs.drop (offset + count) := by
  unfold slice
  rw [← List.drop_drop, List.take_append_drop]

/- The first six bytes: the magic ones, a flag and a width. -/
theorem take_six
    (hLong : 6 ≤ bs.length) :
    bs.take 6 = slice bs 0 4 ++ [bs.getD 4 0, bs.getD 5 0] := by
  match bs, hLong with
  | a :: b :: c :: d :: e :: f :: rest, _ => rfl

/-
  A header is written as the bytes that it was read from, with
  zeros for those that are reserved.
-/
theorem toBytes_of_describes
    (hDescribes : Describes bs h)
    (hLength : bs.length = size) :
    h.toBytes = Bytes.patched 6 [0, 0] bs := by
  unfold size at hLength
  have hFlag := orderFlag_of_orderOfFlag hDescribes.order
  have hFields := hDescribes.fields
  have hEnd : bs.drop 48 = [] :=
    List.drop_eq_nil_of_le (Nat.le_of_eq hLength)
  have hWidth :
      UInt8.ofNat (bs.getD 5 0).toNat = bs.getD 5 0 :=
    UInt8.ofNat_toNat
  have hFirst :
      bs.take 6 =
        slice bs 0 4 ++ [bs.getD 4 0, bs.getD 5 0] :=
    take_six (by omega)
  have hRest :
      bs.drop 8 =
        slice bs 8 4 ++ (slice bs 12 4 ++ (slice bs 16 8 ++
          (slice bs 24 8 ++ (slice bs 32 8 ++
            slice bs 40 8)))) := by
    rw [drop_eq_slice_append bs 8 4,
      drop_eq_slice_append bs 12 4,
      drop_eq_slice_append bs 16 8,
      drop_eq_slice_append bs 24 8,
      drop_eq_slice_append bs 32 8,
      drop_eq_slice_append bs 40 8, hEnd, List.append_nil]
  have hFound :
      h.toBytes =
        magic ++ [bs.getD 4 0, bs.getD 5 0, 0, 0] ++
          bs.drop 8 := by
    rw [hRest, ← hFlag, ← hWidth, ← hFields]
    simp (disch := omega) only
      [toBytes, fields, List.append_assoc, encode_decode_slice,
        hWidth]
  rw [hFound]
  unfold Bytes.patched
  rw [hFirst, hDescribes.magic]
  simp

------------------------------------------------------------
-- Headers that Were Written
------------------------------------------------------------

/- The width of a header is in its bytes. -/
theorem wordSize_toBytes
    (hFits : Fits h) :
    (h.toBytes.getD 5 0).toNat = h.wordSize :=
  congrArg wordSize (fields_toBytes hFits)

/- Reading the bytes of a header comes down to its checks. -/
theorem run_parse_toBytes
    (hFits : Fits h) :
    (parse h.toBytes).run =
      if h.wordSize ≠ 4 ∧ h.wordSize ≠ 8 then
        .ok (.error (.badWordSize h.wordSize))
      else (do h.check; pure h : ExceptT _ _ _).run := by
  have hMagic : slice h.toBytes 0 4 = magic := rfl
  have hOrder :
      orderOfFlag? (h.toBytes.getD 4 0).toNat =
        .ok h.byteOrder :=
    orderOfFlag_orderFlag h.byteOrder
  unfold parse
  dsimp only
  rw [if_neg (not_not_intro hMagic), hOrder]
  dsimp only
  rw [fields_toBytes hFits, wordSize_toBytes hFits]
  split <;> rfl

/-
  What becomes of a header that is read from its own bytes: it
  comes back, or the first check that it fails is named.
-/
inductive Decided
    (h : BootImageHeader) :
    Except Fault (Except BootImageError BootImageHeader) →
      Prop where
| read
    (hAll : ∀ c ∈ Check.all, c.Holds h) :
    Decided h (.ok (.ok h))
| refused
    {e : BootImageError}
    (hRefused : Refused h Check.all e) :
    Decided h (.ok (.error e))

/- If heap and code have a size, that becomes of it. -/
theorem decided_toBytes
    (hFits : Fits h)
    (hMapped : h.heapSize + h.codeSize < Word.limit) :
    Decided h (parse h.toBytes).run := by
  rw [run_parse_toBytes hFits]
  split
  · rename_i hWord
    refine .refused (.here (c := .wordSize) fun hHolds => ?_)
    exact hHolds.elim hWord.1 hWord.2
  rename_i hWord
  have hHolds : Check.wordSize.Holds h := by
    change h.wordSize = 4 ∨ h.wordSize = 8
    omega
  have hVerdict := verdict_check h
  rw [ExceptT.run_bind]
  generalize h.check.run = checked at hVerdict
  cases hVerdict with
  | accepted hAll _ =>
      exact .read (List.forall_mem_cons.mpr ⟨hHolds, hAll⟩)
  | refused hRefused _ => exact .refused (.later hHolds hRefused)
  | fault hOversized =>
      exact absurd hMapped (Nat.not_lt_of_le hOversized.mapped)

------------------------------------------------------------
-- Exact Bytes
------------------------------------------------------------

/-
  Bytes that are read as a header are the bytes of that header,
  but for the two that are reserved.  A header with sizes that
  add up to a word is read back from its bytes if it passes all
  checks, and refused with the error of the first one that it
  fails if it does not.
-/
theorem codec_is_exact :
    (∀ (bs : List UInt8) (h : BootImageHeader),
      bs.length = size → Makes (parse bs) h →
        h.toBytes = Bytes.patched 6 [0, 0] bs) ∧
    ∀ h : BootImageHeader,
      Fits h → h.heapSize + h.codeSize < Word.limit →
        (Makes (parse h.toBytes) h ↔
          ∀ c ∈ Check.all, c.Holds h) ∧
        ((¬ ∀ c ∈ Check.all, c.Holds h) →
          ∃ e,
            Refused h Check.all e ∧
              (parse h.toBytes).run = .ok (.error e)) := by
  refine ⟨fun bs h hLength hMakes => ?_, fun h hFits hMapped => ?_⟩
  · exact toBytes_of_describes (makes_parse hMakes).1 hLength
  have hDecided := decided_toBytes hFits hMapped
  unfold Makes
  generalize (parse h.toBytes).run = outcome at hDecided
  cases hDecided with
  | read hAll =>
      exact ⟨iff_of_true rfl hAll, fun hNot => absurd hAll hNot⟩
  | @refused e hRefused =>
      exact
        ⟨iff_of_false nofun hRefused.not_all,
          fun _ => ⟨e, hRefused, rfl⟩⟩

/- A header in which all bytes of the numbers differ. -/
def lopsided : BootImageHeader where
  byteOrder := .bigEndian
  wordSize := 4
  version := BootImageError.expectedVersion
  pageSize := 0x100
  heapSize := 0x1122334455667700
  codeSize := 0x0102030405060800
  heapOffset := 0x8899aabbccddeeff
  bootHeapStart := 0xf1e2d3c4b5a69700

/- The lopsided header passes all checks. -/
theorem holds_lopsided :
    ∀ c ∈ Check.all, c.Holds lopsided := by
  intro c _
  cases c with
  | wordSize => exact .inl rfl
  | version => rfl
  | pageSize => exact ⟨8, rfl⟩
  | alignment =>
      exact
        ⟨Nat.dvd_of_mod_eq_zero rfl, Nat.dvd_of_mod_eq_zero rfl⟩
  | heapOffset =>
      exact show size ≤ 0x8899aabbccddeeff by decide

/-
  The lopsided header is read back, also if the reserved bytes
  are used.
-/
theorem codec_is_exact_lopsided :
    Makes (parse lopsided.toBytes) lopsided ∧
      Makes (parse (Bytes.patched 6 [7, 9] lopsided.toBytes))
        lopsided ∧
      lopsided.toBytes =
        Bytes.patched 6 [0, 0]
          (Bytes.patched 6 [7, 9] lopsided.toBytes) := by
  have hFits : Fits lopsided := by constructor <;> decide
  have hUsed :
      Makes (parse (Bytes.patched 6 [7, 9] lopsided.toBytes))
        lopsided := by
    unfold Makes
    decide +kernel
  exact
    ⟨(codec_is_exact.2 lopsided hFits (by decide)).1.mpr
        holds_lopsided,
      hUsed, codec_is_exact.1 _ _ (by decide) hUsed⟩

end BootImageHeader

end BeltHeap
