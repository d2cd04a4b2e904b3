import BeltHeap.Endian.Lemmas
import BeltHeap.Observer.BootImage
import BeltHeap.Proofs.Creating

/-
  Headers of boot images: what becomes of bytes that are read as
  a header, and that a header is read back from its own bytes.

  Main declarations:
    * `BootImageHeader.Accepted`, `BootImageHeader.Oversized`
    * `BootImageHeader.Check`, `BootImageHeader.Refused`
    * `BootImageHeader.verdict_check`
    * `BootImageHeader.Describes`
    * `BootImageHeader.outcome_parse`
    * `BootImageHeader.error_parse`
    * `BootImageHeader.describes_toBytes`
-/

------------------------------------------------------------
-- Checked Headers
------------------------------------------------------------

namespace BeltHeap

namespace BootImageHeader

/- The fields of a header that is accepted. -/
structure Accepted (h : BootImageHeader) : Prop where
  version : h.version = BootImageError.expectedVersion
  pageSize : Word.isPowerOfTwo h.pageSize = true
  mapped : h.heapSize + h.codeSize < Word.limit
  start : h.bootHeapStart % h.pageSize = 0
  whole : (h.heapSize + h.codeSize) % h.pageSize = 0
  offset : size ≤ h.heapOffset

/-
  The fields of a header that passes what is checked before the
  sizes of heap and code are added up, though their sum is not a
  word.
-/
structure Oversized (h : BootImageHeader) : Prop where
  version : h.version = BootImageError.expectedVersion
  pageSize : Word.isPowerOfTwo h.pageSize = true
  mapped : Word.limit ≤ h.heapSize + h.codeSize

variable {h k : BootImageHeader}
variable {bs : List UInt8}

/- No accepted header is oversized. -/
theorem Accepted.not_oversized
    (hAccepted : Accepted h) :
    ¬ Oversized h :=
  fun hOversized =>
    absurd hAccepted.mapped (Nat.not_lt_of_le hOversized.mapped)

/- What is checked of a header. -/
inductive Check where
| wordSize | version | pageSize | alignment | heapOffset

namespace Check

/- A header passes a check. -/
def Holds
    (h : BootImageHeader) : Check → Prop
| .wordSize => h.wordSize = 4 ∨ h.wordSize = 8
| .version => h.version = BootImageError.expectedVersion
| .pageSize => ∃ k, h.pageSize = 2 ^ k
| .alignment =>
    h.pageSize ∣ h.bootHeapStart ∧
      h.pageSize ∣ h.heapSize + h.codeSize
| .heapOffset => size ≤ h.heapOffset

/- The error for a header that does not. -/
def error
    (h : BootImageHeader) : Check → BootImageError
| .wordSize => .badWordSize h.wordSize
| .version => .unsupportedVersion h.version
| .pageSize => .badPageSize h.pageSize
| .alignment =>
    .unaligned h.bootHeapStart (h.heapSize + h.codeSize)
      h.pageSize
| .heapOffset => .badHeapOffset h.heapOffset

/- The checks of the fields that are read in the byte order. -/
def ofFields : List Check :=
  [.version, .pageSize, .alignment, .heapOffset]

/- All checks, in the order in which they are made. -/
def all : List Check :=
  .wordSize :: ofFields

end Check

/-
  The error is that of the first check on a list that a header
  does not pass.
-/
inductive Refused
    (h : BootImageHeader) :
    List Check → BootImageError → Prop where
| here
    {c : Check}
    {cs : List Check}
    (hFails : ¬ c.Holds h) :
    Refused h (c :: cs) (c.error h)
| later
    {c : Check}
    {cs : List Check}
    {e : BootImageError}
    (hHolds : c.Holds h)
    (hRefused : Refused h cs e) :
    Refused h (c :: cs) e

/- A refused header does not pass all checks. -/
theorem Refused.not_all
    {cs : List Check}
    {e : BootImageError}
    (hRefused : Refused h cs e) :
    ¬ ∀ c ∈ cs, c.Holds h := by
  intro hAll
  induction hRefused with
  | here hFails => exact hFails (hAll _ List.mem_cons_self)
  | later _ _ ih =>
      exact ih fun c hMem => hAll c (List.mem_cons_of_mem _ hMem)

/-
  The fields of a header pass all checks, or the first one that
  they do not pass is named, or their sum is a fault.
-/
inductive Verdict
    (h : BootImageHeader) :
    Except Fault (Except BootImageError Unit) → Prop where
| accepted
    (hAll : ∀ c ∈ Check.ofFields, c.Holds h)
    (hMapped : h.heapSize + h.codeSize < Word.limit) :
    Verdict h (.ok (.ok ()))
| refused
    {e : BootImageError}
    (hRefused : Refused h Check.ofFields e)
    (hSmall : ¬ Oversized h) :
    Verdict h (.ok (.error e))
| fault
    (hOversized : Oversized h) :
    Verdict h (.error .addOverflow)

/- Accepted headers are those that pass the checks. -/
theorem accepted_iff :
    Accepted h ↔
      (∀ c ∈ Check.ofFields, c.Holds h) ∧
        h.heapSize + h.codeSize < Word.limit := by
  unfold Check.ofFields
  rw [List.forall_mem_cons, List.forall_mem_cons,
    List.forall_mem_cons, List.forall_mem_cons]
  constructor
  · intro hAccepted
    exact
      ⟨⟨hAccepted.version,
          Word.isPowerOfTwo_iff.mp hAccepted.pageSize,
          ⟨Nat.dvd_of_mod_eq_zero hAccepted.start,
            Nat.dvd_of_mod_eq_zero hAccepted.whole⟩,
          hAccepted.offset, fun _ hNone => nomatch hNone⟩,
        hAccepted.mapped⟩
  · rintro ⟨⟨hVersion, hPower, ⟨hStart, hWhole⟩, hOffset, -⟩,
      hMapped⟩
    exact
      ⟨hVersion, Word.isPowerOfTwo_iff.mpr hPower, hMapped,
        Nat.mod_eq_zero_of_dvd hStart,
        Nat.mod_eq_zero_of_dvd hWhole, hOffset⟩

/- Checking a header gives a verdict on it. -/
theorem verdict_check
    (h : BootImageHeader) :
    Verdict h h.check.run := by
  unfold check
  split
  · rename_i hVersion
    exact
      .refused (.here (c := .version) hVersion)
        fun hAll => hVersion hAll.version
  rename_i hVersion
  have hSame := Decidable.not_not.mp hVersion
  split
  · rename_i hPower
    rw [Bool.not_eq_true'] at hPower
    have hNot := Bool.eq_false_iff.mp hPower
    exact
      .refused
        (.later (c := .version) hSame
          (.here (c := .pageSize) fun hIs =>
            hNot (Word.isPowerOfTwo_iff.mpr hIs)))
        fun hAll => hNot hAll.pageSize
  rename_i hPower
  rw [Bool.not_eq_true', Bool.not_eq_false] at hPower
  have hPages := Word.isPowerOfTwo_iff.mp hPower
  by_cases hMapped : h.heapSize + h.codeSize < Word.limit
  · have hSum : h.mappedSize = .ok (h.heapSize + h.codeSize) :=
      if_pos hMapped
    have hSmall : ¬ Oversized h :=
      fun hAll => absurd hMapped (Nat.not_lt_of_le hAll.mapped)
    rw [hSum]
    simp only [liftM, monadLift, MonadLift.monadLift,
      ExceptT.lift, ExceptT.mk, bind, ExceptT.bind, Functor.map,
      Except.map, Except.bind, ExceptT.bindCont]
    split
    · rename_i hOdd
      refine
        .refused
          (.later (c := .version) hSame
            (.later (c := .pageSize) hPages
              (.here (c := .alignment) fun hEven => ?_)))
          hSmall
      exact
        hOdd.elim
          (fun hNot => hNot (Nat.mod_eq_zero_of_dvd hEven.1))
          fun hNot => hNot (Nat.mod_eq_zero_of_dvd hEven.2)
    · rename_i hEven
      rw [not_or, Decidable.not_not, Decidable.not_not] at hEven
      have hAligned :=
        And.intro (Nat.dvd_of_mod_eq_zero hEven.1)
          (Nat.dvd_of_mod_eq_zero hEven.2)
      split
      · rename_i hLow
        exact
          .refused
            (.later (c := .version) hSame
              (.later (c := .pageSize) hPages
                (.later (c := .alignment) hAligned
                  (.here (c := .heapOffset)
                    (Nat.not_le_of_lt hLow)))))
            hSmall
      · rename_i hHigh
        have hAccepted : Accepted h :=
          ⟨hSame, hPower, hMapped, hEven.1, hEven.2,
            Nat.le_of_not_lt hHigh⟩
        exact .accepted (accepted_iff.mp hAccepted).1 hMapped
  · have hFault : h.mappedSize = .error .addOverflow :=
      if_neg hMapped
    rw [hFault]
    exact .fault ⟨hSame, hPower, Nat.le_of_not_lt hMapped⟩

------------------------------------------------------------
-- Described Headers
------------------------------------------------------------

/-
  Bytes that are a header with these fields: they start with the
  magic bytes, and name a byte order and a size of words.
-/
structure Describes
    (bs : List UInt8)
    (h : BootImageHeader) : Prop where
  magic : slice bs 0 4 = magic
  order : orderOfFlag? (bs.getD 4 0).toNat = .ok h.byteOrder
  word : h.wordSize = 4 ∨ h.wordSize = 8
  fields : fields h.byteOrder (bs.getD 5 0).toNat bs = h

/- Some bytes describe no more than one header. -/
theorem Describes.unique
    (hDescribes : Describes bs h)
    (hOther : Describes bs k) :
    h = k := by
  have hOrder := hOther.order
  rw [hDescribes.order] at hOrder
  rw [← hDescribes.fields, ← hOther.fields, Except.ok.inj hOrder]

/- What becomes of bytes that are read as a header. -/
inductive Outcome
    (bs : List UInt8) :
    Except Fault (Except BootImageError BootImageHeader) →
      Prop where
| accepted
    {h : BootImageHeader}
    (hDescribes : Describes bs h)
    (hAccepted : Accepted h) :
    Outcome bs (.ok (.ok h))
| refused
    {e : BootImageError}
    (hNot :
      ∀ h, Describes bs h → ¬ Accepted h ∧ ¬ Oversized h) :
    Outcome bs (.ok (.error e))
| fault
    {h : BootImageHeader}
    (hDescribes : Describes bs h)
    (hOversized : Oversized h) :
    Outcome bs (.error .addOverflow)

/- Parsing some bytes has one of these outcomes. -/
theorem outcome_parse
    (bs : List UInt8) :
    Outcome bs (parse bs).run := by
  unfold parse
  dsimp only
  split
  · rename_i hMagic
    exact .refused fun _ hAll => absurd hAll.magic hMagic
  rename_i hMagic
  have hFirst := Decidable.not_not.mp hMagic
  cases hOrder : orderOfFlag? (bs.getD 4 0).toNat with
  | error e =>
      refine .refused fun h hAll => ?_
      rw [hAll.order] at hOrder
      cases hOrder
  | ok order =>
      dsimp only
      split
      · rename_i hWord
        refine .refused fun h hAll => ?_
        have hSize := congrArg wordSize hAll.fields
        change (bs.getD 5 0).toNat = h.wordSize at hSize
        rw [hSize] at hWord
        exact
          (hAll.word.elim (fun hFour => hWord.1 hFour)
            fun hEight => hWord.2 hEight).elim
      · rename_i hWord
        have hSize :
            (bs.getD 5 0).toNat = 4 ∨ (bs.getD 5 0).toNat = 8 := by
          omega
        have hDescribes :
            Describes bs
              (fields order (bs.getD 5 0).toNat bs) :=
          ⟨hFirst, hOrder, hSize, rfl⟩
        have hVerdict :=
          verdict_check (fields order (bs.getD 5 0).toNat bs)
        rw [ExceptT.run_bind]
        generalize (check _).run = checked at hVerdict
        cases hVerdict with
        | accepted hAll hMapped =>
            exact
              .accepted hDescribes
                (accepted_iff.mpr ⟨hAll, hMapped⟩)
        | refused hRefused hSmall =>
            refine .refused fun h hOther => ?_
            rw [hOther.unique hDescribes]
            exact
              ⟨fun hAccepted =>
                  hRefused.not_all (accepted_iff.mp hAccepted).1,
                hSmall⟩
        | fault hOversized => exact .fault hDescribes hOversized

/- Headers are only made of bytes that they describe. -/
theorem makes_parse
    (hMakes : Makes (parse bs) h) :
    Describes bs h ∧ Accepted h := by
  have hOutcome := outcome_parse bs
  unfold Makes at hMakes
  generalize (parse bs).run = outcome at hOutcome hMakes
  cases hOutcome with
  | accepted hDescribes hAccepted =>
      cases hMakes
      exact ⟨hDescribes, hAccepted⟩
  | refused _ => cases hMakes
  | fault _ _ => cases hMakes

/-
  Bytes are at fault if they describe a header whose sizes do
  not add up to a word.
-/
theorem error_parse
    {f : Fault} :
    (parse bs).run = .error f ↔
      f = .addOverflow ∧ ∃ h, Describes bs h ∧ Oversized h := by
  have hOutcome := outcome_parse bs
  generalize (parse bs).run = outcome at hOutcome
  cases hOutcome with
  | accepted hDescribes hAccepted =>
      refine ⟨nofun, ?_⟩
      rintro ⟨_, k, hOther, hOversized⟩
      rw [← hDescribes.unique hOther] at hOversized
      exact absurd hOversized hAccepted.not_oversized
  | refused hNot =>
      refine ⟨nofun, ?_⟩
      rintro ⟨_, k, hOther, hOversized⟩
      exact absurd hOversized (hNot k hOther).2
  | @fault h hDescribes hOversized =>
      constructor
      · intro hSame
        cases hSame
        exact ⟨rfl, h, hDescribes, hOversized⟩
      · rintro ⟨rfl, _⟩
        rfl

/-
  Reading a header off the front of some bytes breaks off
  exactly where the fields are oversized.
-/
theorem error_readFrom
    {f : Fault} :
    (readFrom bs).run = .error f ↔
      f = .addOverflow ∧ size ≤ bs.length ∧
        ∃ h, Describes (bs.take size) h ∧ Oversized h := by
  unfold readFrom
  split
  · rename_i hShort
    refine ⟨nofun, ?_⟩
    rintro ⟨_, hLong, _⟩
    exact absurd hShort (Nat.not_lt_of_le hLong)
  · rename_i hLong
    rw [error_parse]
    have hSize := Nat.le_of_not_lt hLong
    exact and_congr_right fun _ => (and_iff_right hSize).symm

------------------------------------------------------------
-- Headers as Bytes
------------------------------------------------------------

/- The fields of a header fit the bytes that they are given. -/
structure Fits (h : BootImageHeader) : Prop where
  wordSize : h.wordSize < 256
  version : h.version < 256 ^ 4
  pageSize : h.pageSize < 256 ^ 4
  heapSize : h.heapSize < 256 ^ 8
  codeSize : h.codeSize < 256 ^ 8
  heapOffset : h.heapOffset < 256 ^ 8
  bootHeapStart : h.bootHeapStart < 256 ^ 8

theorem decode_lt
    (order : ByteOrder)
    (bs : List UInt8)
    {n : Nat}
    (hLength : bs.length ≤ n) :
    order.decode bs < 256 ^ n := by
  have hPower := Nat.pow_le_pow_right (n := 256) (by omega) hLength
  refine Nat.lt_of_lt_of_le ?_ hPower
  cases order with
  | littleEndian => exact littleValue_lt bs
  | bigEndian =>
      have hReversed := littleValue_lt bs.reverse
      rwa [List.length_reverse] at hReversed

theorem length_slice_le
    (bs : List UInt8)
    (offset count : Nat) :
    (slice bs offset count).length ≤ count :=
  List.length_take_le _ _

/- Fields that were read fit. -/
theorem Describes.fits
    (hDescribes : Describes bs h) :
    Fits h := by
  rw [← hDescribes.fields]
  exact
    { wordSize := (bs.getD 5 0).toNat_lt
      version := decode_lt _ _ (length_slice_le _ _ _)
      pageSize := decode_lt _ _ (length_slice_le _ _ _)
      heapSize := decode_lt _ _ (length_slice_le _ _ _)
      codeSize := decode_lt _ _ (length_slice_le _ _ _)
      heapOffset := decode_lt _ _ (length_slice_le _ _ _)
      bootHeapStart := decode_lt _ _ (length_slice_le _ _ _) }

/- Bytes behind the first ones. -/
theorem slice_behind
    {first : List UInt8}
    {offset count : Nat}
    (hBehind : first.length ≤ offset) :
    slice (first ++ bs) offset count =
      slice bs (offset - first.length) count := by
  unfold slice
  rw [List.drop_append, List.drop_eq_nil_of_le hBehind,
    List.nil_append]

/- The first bytes. -/
theorem slice_first
    {first : List UInt8}
    {count : Nat}
    (hLength : first.length = count) :
    slice (first ++ bs) 0 count = first := by
  subst hLength
  exact List.take_left

/- All bytes. -/
theorem slice_whole
    {count : Nat}
    (hLength : bs.length = count) :
    slice bs 0 count = bs := by
  subst hLength
  exact List.take_length

theorem length_toBytes
    (h : BootImageHeader) :
    h.toBytes.length = size := by
  simp [toBytes, magic, ByteOrder.length_encode, size]

/- A byte order is the one that its flag stands for. -/
theorem orderOfFlag_orderFlag
    (order : ByteOrder) :
    orderOfFlag? (orderFlag order).toNat = .ok order := by
  cases order <;> rfl

/- The fields of a header are found in its bytes. -/
theorem fields_toBytes
    (hFits : Fits h) :
    fields h.byteOrder (h.toBytes.getD 5 0).toNat h.toBytes =
      h := by
  have hSize : (UInt8.ofNat h.wordSize).toNat = h.wordSize := by
    simpa using hFits.wordSize
  have hMagic : magic.length = 4 := rfl
  change fields h.byteOrder (UInt8.ofNat h.wordSize).toNat _ = h
  -- Each field is found behind the fields written before it.
  simp (disch := simp [ByteOrder.length_encode, hMagic]) only
    [fields, toBytes, List.append_assoc, slice_behind,
      slice_first, slice_whole, ByteOrder.length_encode, hMagic,
      List.length_cons, List.length_nil, Nat.reduceAdd,
      Nat.reduceSub, ByteOrder.decode_encode, hSize,
      Nat.mod_eq_of_lt hFits.version,
      Nat.mod_eq_of_lt hFits.pageSize,
      Nat.mod_eq_of_lt hFits.heapSize,
      Nat.mod_eq_of_lt hFits.codeSize,
      Nat.mod_eq_of_lt hFits.heapOffset,
      Nat.mod_eq_of_lt hFits.bootHeapStart]

/- The bytes of a header are its own. -/
theorem describes_toBytes
    (hFits : Fits h)
    (hWord : h.wordSize = 4 ∨ h.wordSize = 8) :
    Describes h.toBytes h where
  magic := rfl
  order := orderOfFlag_orderFlag h.byteOrder
  word := hWord
  fields := fields_toBytes hFits

end BootImageHeader

end BeltHeap
