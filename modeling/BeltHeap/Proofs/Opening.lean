import BeltHeap.Observer.ReadOnlyImage
import BeltHeap.Proofs.Headers

/-
  Boot image files that are opened: which of them are images, and
  which are a fault because a word cannot hold their sizes.

  Main declarations:
    * `BootImageHeader.Overlong`
    * `ReadOnlyImage.opened_ofFile`
    * `ReadOnlyImage.makes_ofFile`
    * `ReadOnlyImage.faults_are_sums_out_of_range`
-/

------------------------------------------------------------
-- Opened Files
------------------------------------------------------------

namespace BeltHeap

/-
  The fields of a header that is accepted, though the number of
  bytes that its file would need is not a word.
-/
structure BootImageHeader.Overlong
    (h : BootImageHeader) : Prop where
  accepted : Accepted h
  file : Word.limit ≤ h.heapOffset + (h.heapSize + h.codeSize)

namespace ReadOnlyImage

open BootImageHeader

variable {bs : List UInt8}
variable {image : ReadOnlyImage}

/-
  An image is made of the bytes of a file: of a header that is
  accepted, and of as many bytes from its offset on as it says.
-/
structure MadeOf
    (image : ReadOnlyImage)
    (bs : List UInt8) : Prop where
  long : size ≤ bs.length
  describes : Describes (bs.take size) image.header
  accepted : Accepted image.header
  whole :
    image.header.heapOffset +
        (image.header.heapSize + image.header.codeSize) ≤
      bs.length
  contents :
    image.contents =
      (slice bs image.header.heapOffset
        (image.header.heapSize +
          image.header.codeSize)).toArray

/- Some bytes make no more than one image. -/
theorem MadeOf.unique
    {other : ReadOnlyImage}
    (hMade : MadeOf image bs)
    (hOther : MadeOf other bs) :
    image = other := by
  have hHeader := hMade.describes.unique hOther.describes
  have hContents := hMade.contents
  rw [hHeader, ← hOther.contents] at hContents
  cases image
  cases other
  congr

/- Files are opened, refused with an error, or a fault. -/
inductive Opened
    (bs : List UInt8) :
    Except Fault (Except BootImageError ReadOnlyImage) →
      Prop where
| opened
    {image : ReadOnlyImage}
    (hMade : MadeOf image bs)
    (hWord : ¬ Overlong image.header) :
    Opened bs (.ok (.ok image))
| refused
    {e : BootImageError}
    (hNot :
      size ≤ bs.length →
        ∀ h, Describes (bs.take size) h →
          ¬ Oversized h ∧ ¬ Overlong h ∧
            (Accepted h →
              bs.length <
                h.heapOffset + (h.heapSize + h.codeSize))) :
    Opened bs (.ok (.error e))
| fault
    {h : BootImageHeader}
    (hLong : size ≤ bs.length)
    (hDescribes : Describes (bs.take size) h)
    (hSum : Oversized h ∨ Overlong h) :
    Opened bs (.error .addOverflow)

/- What is left of opening a file once its header is accepted. -/
theorem opened_measured
    {h : BootImageHeader}
    (hLong : size ≤ bs.length)
    (hDescribes : Describes (bs.take size) h)
    (hAccepted : Accepted h) :
    Opened bs
      (ExceptT.run do
        let needed ← h.imageSize
        if bs.length < needed then
          throw (.truncated needed bs.length)
        else
          let mapped ← h.mappedSize
          pure
            { header := h
              contents :=
                (slice bs h.heapOffset mapped).toArray }) := by
  have hMapped :
      h.mappedSize = .ok (h.heapSize + h.codeSize) :=
    if_pos hAccepted.mapped
  have hNeeded :
      h.imageSize =
        Word.add h.heapOffset (h.heapSize + h.codeSize) := by
    unfold imageSize
    rw [hMapped]
    rfl
  rw [hNeeded, hMapped]
  by_cases hFile :
      h.heapOffset + (h.heapSize + h.codeSize) < Word.limit
  · rw [show Word.add _ _ = .ok _ from if_pos hFile]
    change
      Opened bs
        (ExceptT.run
          (if bs.length < _ then throw _ else pure _))
    split
    · rename_i hShort
      refine .refused fun _ k hOther => ?_
      rw [hOther.unique hDescribes]
      refine
        ⟨hAccepted.not_oversized, fun hAll => ?_, fun _ => hShort⟩
      exact absurd hFile (Nat.not_lt_of_le hAll.file)
    · rename_i hWhole
      refine
        .opened
          ⟨hLong, hDescribes, hAccepted,
            Nat.le_of_not_lt hWhole, rfl⟩
          fun hAll => ?_
      exact absurd hFile (Nat.not_lt_of_le hAll.file)
  · rw [show Word.add _ _ = .error _ from if_neg hFile]
    exact
      .fault hLong hDescribes
        (.inr ⟨hAccepted, Nat.le_of_not_lt hFile⟩)

/- Opening a file has one of these outcomes. -/
theorem opened_ofFile
    (bs : List UInt8) :
    Opened bs (ofFile (some bs)).run := by
  unfold ofFile readFrom
  dsimp only
  split
  · rename_i hShort
    exact .refused fun hLong => absurd hShort (by omega)
  · rename_i hLong
    have hOutcome := outcome_parse (bs.take size)
    rw [ExceptT.run_bind]
    generalize (parse _).run = outcome at hOutcome
    cases hOutcome with
    | accepted hDescribes hAccepted =>
        exact
          opened_measured (Nat.le_of_not_lt hLong) hDescribes
            hAccepted
    | refused hNot =>
        refine .refused fun _ h hDescribes => ?_
        have hThis := hNot h hDescribes
        exact
          ⟨hThis.2, fun hAll => hThis.1 hAll.accepted,
            fun hAccepted => absurd hAccepted hThis.1⟩
    | fault hDescribes hOversized =>
        exact
          .fault (Nat.le_of_not_lt hLong) hDescribes
            (.inl hOversized)

/- Files make images of what they hold, if a word can hold it. -/
theorem makes_ofFile :
    Makes (ofFile (some bs)) image ↔
      MadeOf image bs ∧ ¬ Overlong image.header := by
  have hOpened := opened_ofFile bs
  unfold Makes
  generalize (ofFile (some bs)).run = outcome at hOpened
  constructor
  · rintro rfl
    cases hOpened with
    | opened hMade hWord => exact ⟨hMade, hWord⟩
  · rintro ⟨hMade, hWord⟩
    cases hOpened with
    | opened hOther _ => rw [hOther.unique hMade]
    | refused hNot =>
        have hShort :=
          (hNot hMade.long _ hMade.describes).2.2 hMade.accepted
        exact absurd hShort (Nat.not_lt_of_le hMade.whole)
    | fault _ hDescribes hSum =>
        rw [hDescribes.unique hMade.describes] at hSum
        rcases hSum with hOversized | hOverlong
        · exact absurd hOversized hMade.accepted.not_oversized
        · exact absurd hOverlong hWord

------------------------------------------------------------
-- Sums That Are No Words
------------------------------------------------------------

/- Files are at fault if their headers, or their sizes, are. -/
theorem error_ofFile
    {f : Fault} :
    (ofFile (some bs)).run = .error f ↔
      f = .addOverflow ∧ size ≤ bs.length ∧
        ∃ h, Describes (bs.take size) h ∧
          (Oversized h ∨ Overlong h) := by
  have hOpened := opened_ofFile bs
  generalize (ofFile (some bs)).run = outcome at hOpened
  cases hOpened with
  | opened hMade hWord =>
      refine ⟨nofun, ?_⟩
      rintro ⟨_, _, k, hOther, hSum⟩
      rw [← hMade.describes.unique hOther] at hSum
      rcases hSum with hOversized | hOverlong
      · exact absurd hOversized hMade.accepted.not_oversized
      · exact absurd hOverlong hWord
  | refused hNot =>
      refine ⟨nofun, ?_⟩
      rintro ⟨_, hLong, k, hOther, hSum⟩
      rcases hNot hLong k hOther with ⟨hSmall, hWord, _⟩
      exact absurd hSum (not_or.mpr ⟨hSmall, hWord⟩)
  | @fault h hLong hDescribes hSum =>
      constructor
      · intro hSame
        cases hSame
        exact ⟨rfl, hLong, h, hDescribes, hSum⟩
      · rintro ⟨rfl, _⟩
        rfl

/-
  Bytes become a header, and files an image, or they are refused
  with an error, unless a word cannot hold the sum of the sizes
  of heap and code, or the end of the code in the file.  A file
  that becomes an image has all of its heap and code.
-/
theorem faults_are_sums_out_of_range
    (bs : List UInt8) :
    (∀ f,
      (parse bs).run = .error f ↔
        f = .addOverflow ∧
          ∃ h, Describes bs h ∧ Oversized h) ∧
    (∀ f,
      (readFrom bs).run = .error f ↔
        f = .addOverflow ∧ size ≤ bs.length ∧
          ∃ h, Describes (bs.take size) h ∧ Oversized h) ∧
    (∀ f,
      (ofFile (some bs)).run = .error f ↔
        f = .addOverflow ∧ size ≤ bs.length ∧
          ∃ h, Describes (bs.take size) h ∧
            (Oversized h ∨ Overlong h)) ∧
    ∀ image,
      Makes (ofFile (some bs)) image →
        image.header.heapOffset + image.header.heapSize +
            image.header.codeSize ≤
          bs.length := by
  refine
    ⟨fun _ => error_parse, fun _ => error_readFrom,
      fun _ => error_ofFile, fun image hMakes => ?_⟩
  have hWhole := (makes_ofFile.mp hMakes).1.whole
  rw [← Nat.add_assoc] at hWhole
  exact hWhole

/- A header whose heap and code are larger than all addresses. -/
def oversized : BootImageHeader where
  byteOrder := .littleEndian
  wordSize := 8
  version := BootImageError.expectedVersion
  pageSize := 4096
  heapSize := Word.limit - 4096
  codeSize := 4096
  heapOffset := 16
  bootHeapStart := 0x40000000

/- A header of a file that would be larger than all addresses. -/
def overlong : BootImageHeader :=
  { oversized with
    heapSize := 4096
    codeSize := 0
    heapOffset := Word.limit - 4096 }

/- Bytes may be a fault as a header, and files as an image. -/
theorem sums_may_be_out_of_range :
    (∃ bs : List UInt8,
      bs.length = size ∧
        (parse bs).run = .error .addOverflow ∧
        (readFrom bs).run = .error .addOverflow) ∧
    ∃ (bs : List UInt8) (h : BootImageHeader),
      Makes (readFrom bs) h ∧
        (ofFile (some bs)).run = .error .addOverflow :=
  ⟨⟨oversized.toBytes, by decide +kernel⟩,
    overlong.toBytes, overlong, by
      unfold Makes
      decide +kernel⟩

end ReadOnlyImage

end BeltHeap
