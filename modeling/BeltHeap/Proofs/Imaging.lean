import BeltHeap.Proofs.Opening
import BeltHeap.Proofs.Watching

/-
  Boot images that are written and read back.  A file that was
  written is opened as an image of what was written, and every
  range of it is read back, from the image and through a cache
  over it.

  Main declarations:
    * `ReadOnlyImage.supply`
    * `PageCache.Used`
    * `ReadOnlyImage.stocks_of_used`
    * `ReadOnlyImage.makes_of_writeImage`
    * `ReadOnlyImage.written_images_are_read_back`
-/

------------------------------------------------------------
-- Images as Supplies
------------------------------------------------------------

namespace BeltHeap

namespace ReadOnlyImage

open ObserverM BootImageHeader

variable {i : ReadOnlyImage}
variable {a n : Nat}

/- The byte that an image holds at an address. -/
def held
    (i : ReadOnlyImage)
    (b : Nat) : Option UInt8 :=
  if i.start ≤ b then i.contents[b - i.start]? else none

/- An image that is made of whole pages. -/
structure Paged (i : ReadOnlyImage) : Prop where
  size_pos : 0 < i.header.pageSize
  size_lt : i.header.pageSize < Word.signedLimit
  start : i.start % i.header.pageSize = 0
  whole : i.contents.size % i.header.pageSize = 0

/- The bytes that an image has in a range. -/
def bytesAt
    (i : ReadOnlyImage)
    (a n : Nat) : List UInt8 :=
  slice i.contents.toList (a - i.start) n

/- An image answers from its bytes, and never changes. -/
theorem read_eq
    (r : Logged ReadOnlyImage) :
    ReadOnlyImage.read a n r =
      (if r.state.start ≤ a ∧
          a - r.state.start + n ≤ r.state.contents.size then
        .ok (r.state.bytesAt a n)
      else .error (.error (.unmapped a n)), r) := by
  unfold ReadOnlyImage.read covers
  rw [Activity.run_bind]
  change
    (if (decide _ && decide _) = true then pure _
      else ObserverM.fail _ : ObserverM ReadOnlyImage _) r = _
  simp only [Bool.and_eq_true, decide_eq_true_eq]
  split
  · change (Except.ok _, r) = _
    unfold bytesAt slice
    rw [Array.toList_extract, List.extract_eq_take_drop,
      Nat.add_sub_cancel_left]
  · rfl

theorem length_bytesAt
    (hEnd : a - i.start + n ≤ i.contents.size) :
    (i.bytesAt a n).length = n := by
  unfold bytesAt slice
  rw [List.length_take, List.length_drop, Array.length_toList]
  omega

/- The bytes of a range are those that the image holds. -/
theorem getElem?_bytesAt
    {k : Nat}
    (hStart : i.start ≤ a) :
    (i.bytesAt a n)[k]? =
      if k < n then i.held (a + k) else none := by
  unfold bytesAt slice held
  rw [List.getElem?_take, List.getElem?_drop,
    Array.getElem?_toList,
    if_pos (show i.start ≤ a + k by omega),
    show a + k - i.start = a - i.start + k by omega]

theorem shows_bytesAt
    (hStart : i.start ≤ a) :
    Shows i.held a (i.bytesAt a n) := by
  intro k b hByte
  rw [getElem?_bytesAt hStart] at hByte
  split at hByte
  · exact hByte
  · cases hByte

/- Only the bytes of an image show what it holds. -/
theorem eq_bytesAt
    {bs : List UInt8}
    (hStart : i.start ≤ a)
    (hLength : bs.length = n)
    (hShows : Shows i.held a bs) :
    bs = i.bytesAt a n := by
  apply List.ext_getElem?
  intro k
  rw [getElem?_bytesAt hStart]
  split
  · rename_i hLt
    rw [← hLength] at hLt
    rw [List.getElem?_eq_getElem hLt]
    exact (hShows k _ (List.getElem?_eq_getElem hLt)).symm
  · rename_i hGe
    exact List.getElem?_eq_none (by omega)

/- A range is read if it lies in the image, or else may fail. -/
theorem meets_serve
    {lax : Prop}
    (hServed :
      lax ∨
        (i.start ≤ a ∧ a - i.start + n ≤ i.contents.size)) :
    Meets lax (fun t => lax ∧ t = i) (ReadOnlyImage.read a n) i
      fun bs t => t = i ∧ bs.length = n ∧ Shows i.held a bs := by
  refine ⟨fun log => ?_, fun log f hRun => ?_⟩
  · rw [read_eq]
    split
    · rename_i hIn
      exact ⟨rfl, length_bytesAt hIn.2, shows_bytesAt hIn.1⟩
    · rename_i hOut
      exact ⟨hServed.resolve_right hOut, rfl⟩
  · rw [read_eq] at hRun
    split at hRun <;> cases hRun

/-
  An image supplies the pages that lie in it.  Others are served
  as well where reads may fail.
-/
def supply
    (hPaged : Paged i)
    (lax : Prop) : Supply ReadOnlyImage where
  alive := (· = i)
  holds := Holding i.held
  pageSize := i.header.pageSize
  epoch := 0
  byteOrder := i.header.byteOrder
  wordSize := i.header.wordSize
  served index :=
    lax ∨
      (i.start ≤ index * i.header.pageSize ∧
        index * i.header.pageSize - i.start +
            i.header.pageSize ≤
          i.contents.size ∧
        index * i.header.pageSize < Word.limit)
  mayFail := lax
  mayFault := lax
  size_pos := hPaged.size_pos
  epoch_eq _ := rfl
  byteOrder_eq := by
    rintro _ rfl
    rfl
  wordSize_eq := by
    rintro _ rfl
    rfl
  fits _ := .inr hPaged.size_lt
  placed hServed := hServed.imp id fun hIn => hIn.2.2
  reads := by
    rintro index i hServed rfl
    exact
      meets_serve (hServed.imp id fun hIn => ⟨hIn.1, hIn.2.1⟩)

/- The pages that a range in an image meets lie in it. -/
theorem covers_supply
    (hPaged : Paged i)
    (hStart : i.start ≤ a)
    (hEnd : a - i.start + n ≤ i.contents.size)
    (hWord : a + n < Word.limit) :
    (i.supply hPaged False).Covers a n := by
  intro index hLow hHigh
  rcases Nat.dvd_of_mod_eq_zero hPaged.start with ⟨first, hFirst⟩
  rcases Nat.dvd_of_mod_eq_zero hPaged.whole with ⟨count, hCount⟩
  change a < (index + 1) * i.header.pageSize at hLow
  change index * i.header.pageSize < a + n at hHigh
  refine .inr ?_
  rw [Nat.mul_comm] at hFirst hCount
  -- The pages are counted from the start of the image.
  have hBehind : first ≤ index := by
    refine Nat.le_of_lt_succ ?_
    refine Nat.lt_of_mul_lt_mul_right (a := i.header.pageSize) ?_
    rw [← hFirst]
    exact Nat.lt_of_le_of_lt hStart hLow
  have hBefore : index < first + count := by
    refine Nat.lt_of_mul_lt_mul_right (a := i.header.pageSize) ?_
    rw [Nat.add_mul]
    omega
  have hFrom := Nat.mul_le_mul_right i.header.pageSize hBehind
  have hUpTo := Nat.mul_le_mul_right i.header.pageSize hBefore
  rw [Nat.succ_mul, Nat.add_mul] at hUpTo
  omega

end ReadOnlyImage

------------------------------------------------------------
-- Caches in Use
------------------------------------------------------------

/- Do what is asked of a cache over any source. -/
def Request.performOn
    {σ : Type}
    [MemorySource σ] :
    Request → ObserverM (PageCache σ) Unit
| .read a count => do
    let _ ← PageCache.read a count
    pure ()
| .readInto a count => do
    let _ ← PageCache.readInto a count
    pure ()
| .readNumber width a => do
    let _ ← PageCache.readNumber width a
    pure ()
| .readWord a => do
    let _ ← PageCache.readWord a
    pure ()
| .write a bs => PageCache.write a bs
| .invalidate index => PageCache.invalidate index
| .invalidateRange a count => PageCache.invalidateRange a count
| .invalidateAll => PageCache.invalidateAll
| .suspend => PageCache.onSource MemorySource.suspend
| .resume => PageCache.onSource MemorySource.resume
| .kill => PageCache.onSource MemorySource.kill

/-
  Over a live process a request is performed as over any source.
-/
theorem Request.perform_eq_performOn
    {σ : Type}
    [ProcessChannel σ]
    (request : Request) :
    request.perform (σ := σ) = request.performOn := by
  cases request <;> rfl

/-
  The caches over a source that come from a new one by requests
  that may fail but are not at fault.
-/
inductive PageCache.Used
    {σ : Type}
    [MemorySource σ]
    (source : σ) : Logged (PageCache σ) → Prop where
| start
    {pool : BufferPool}
    {cache : PageCache σ}
    {log : Log}
    (hMake : PageCache.make source pool = .ok cache) :
    Used source ⟨cache, log⟩
| request
    {r t : Logged (PageCache σ)}
    {request : Request}
    {result : Except Interruption Unit}
    (hUsed : Used source r)
    (hRun : request.performOn r = (result, t))
    (hSafe : ∀ f, result ≠ .error (.fault f)) :
    Used source t

namespace ReadOnlyImage

open ObserverM BootImageHeader PageCache

variable {i : ReadOnlyImage}
variable {c : PageCache ReadOnlyImage}
variable {r : Logged (PageCache ReadOnlyImage)}

/- What cannot be done leaves the cache as it is. -/
theorem upholds_unsupported
    {kept : PageCache ReadOnlyImage → Prop}
    {post : Unit → PageCache ReadOnlyImage → Prop}
    {operation : String}
    (hKept : kept c) :
    Upholds kept (onSource (unsupported operation)) c post :=
  fun _ => hKept

/- No request changes what a cache over an image holds. -/
theorem upholds_performOn
    {hPaged : Paged i}
    (request : Request)
    (hStocks : (i.supply hPaged True).Stocks c) :
    Upholds (i.supply hPaged True).Stocks request.performOn c
      fun _ => (i.supply hPaged True).Stocks := by
  have hCovers :
      ∀ a n, (i.supply hPaged True).Covers a n :=
    fun _ _ _ _ _ => .inl trivial
  cases request with
  | read a n =>
      exact
        upholds_stocks
          (meets_reads a n hStocks (hCovers a n) (.inl trivial)
            (.inl trivial))
  | readInto a n =>
      exact
        upholds_stocks
          (meets_readInto a n hStocks (hCovers a n)
            (.inl trivial))
  | readNumber width a =>
      exact
        upholds_stocks
          (meets_readNumber width a hStocks (hCovers a width)
            (.inl trivial))
  | readWord a =>
      exact
        upholds_stocks
          (meets_readWord a hStocks (hCovers a) (.inl trivial))
  | write a bs =>
      refine upholds_attempt (upholds_unsupported hStocks)
        (fun _ _ hOn => invalidatesRange hOn a bs.length) ?_
        fun _ _ => upholds_fault
      intro e d hOn
      refine upholds_bind (invalidatesRange hOn a bs.length) ?_
      intro _ g hAgain
      exact upholds_fail hAgain
  | invalidate index => exact invalidates hStocks _
  | invalidateRange a n => exact invalidatesRange hStocks a n
  | invalidateAll => exact invalidates hStocks _
  | suspend => exact upholds_unsupported hStocks
  | resume => exact upholds_unsupported hStocks
  | kill => exact upholds_unsupported hStocks

/- Every cache in use over an image holds what the image has. -/
theorem stocks_of_used
    (hPaged : Paged i)
    (hUsed : Used i r) :
    (i.supply hPaged False).Stocks r.state := by
  have hStocks : (i.supply hPaged True).Stocks r.state := by
    induction hUsed with
    | start hMake => exact Supply.stocks_make rfl rfl hMake
    | request _ hRun hSafe ih =>
        exact (upholds_performOn _ ih).of_run hRun hSafe
  exact
    ⟨hStocks.certain, hStocks.alive, hStocks.pageSize,
      hStocks.shelf⟩

/- Work that an image cannot refuse is answered. -/
theorem answered
    {α : Type}
    {hPaged : Paged i}
    {work : ObserverM (PageCache ReadOnlyImage) α}
    {answer : α → Prop}
    (hWork :
      Meets (i.supply hPaged False).mayFault
        (i.supply hPaged False).Spares work r.state fun x d =>
          (i.supply hPaged False).Stocks d ∧ answer x) :
    ∃ x t, work r = (.ok x, t) ∧ answer x := by
  have hMeets :
      Meets False (fun _ => False) work r.state fun x _ =>
        answer x :=
    hWork.imp id (fun _ hSpares => hSpares.1)
      fun _ _ hPost => hPost.2
  exact hMeets.answers

/-
  Every range of an image that ends before the last address is
  read through any cache in use over the image.
-/
theorem reads_of_used
    {a n : Nat}
    (hPaged : Paged i)
    (hUsed : Used i r)
    (hStart : i.start ≤ a)
    (hEnd : a - i.start + n ≤ i.contents.size)
    (hWord : a + n < Word.limit)
    (hBuffer : n < Word.signedLimit) :
    (∃ t, PageCache.read a n r = (.ok (i.bytesAt a n), t)) ∧
    (∃ t, PageCache.readInto a n r = (.ok (i.bytesAt a n), t)) ∧
    ∃ t,
      PageCache.readNumber n a r =
        (.ok (i.header.byteOrder.decode (i.bytesAt a n)), t) := by
  have hStocks := stocks_of_used hPaged hUsed
  have hCovers := covers_supply hPaged hStart hEnd hWord
  refine ⟨?_, ?_, ?_⟩
  · rcases answered
        (meets_reads a n hStocks hCovers (.inr hWord)
          (.inr hBuffer)) with
      ⟨bs, t, hRun, hLength, hShows⟩
    rw [eq_bytesAt hStart hLength hShows] at hRun
    exact ⟨t, hRun⟩
  · rcases answered
        (meets_readInto a n hStocks hCovers (.inr hWord)) with
      ⟨bs, t, hRun, hLength, hShows⟩
    rw [eq_bytesAt hStart hLength hShows] at hRun
    exact ⟨t, hRun⟩
  · rcases answered
        (meets_readNumber n a hStocks hCovers (.inr hWord)) with
      ⟨_, t, hRun, bs, hLength, hShows, rfl⟩
    rw [eq_bytesAt hStart hLength hShows] at hRun
    exact ⟨t, hRun⟩

------------------------------------------------------------
-- Written Images
------------------------------------------------------------

variable {h : BootImageHeader}
variable {bs contents : List UInt8}

/- What is written for a header and the bytes that belong to it. -/
theorem writeImage_ok
    (hAccepted : Accepted h)
    (hEnd :
      h.heapOffset + (h.heapSize + h.codeSize) <
        Word.signedLimit)
    (hLength : contents.length = h.heapSize + h.codeSize) :
    h.writeImage contents =
      .ok
        (h.toBytes ++ List.replicate (h.heapOffset - size) 0 ++
          contents) := by
  have hMapped :
      h.mappedSize = .ok (h.heapSize + h.codeSize) :=
    if_pos hAccepted.mapped
  have hPadding :
      Word.sub h.heapOffset size = .ok (h.heapOffset - size) :=
    if_pos hAccepted.offset
  have hZeros :
      Word.entries (h.heapOffset - size) 1 =
        .ok (h.heapOffset - size) :=
    if_pos (by omega)
  unfold writeImage
  rw [hMapped]
  change (if contents.length ≠ _ then throw _ else _) = _
  rw [if_neg (Decidable.not_not.mpr hLength), hPadding]
  change (Word.entries _ 1 >>= _) = _
  rw [hZeros]
  rfl

/- A file that was written is opened as what was written. -/
theorem makes_of_writeImage
    (hMakes : Makes (parse bs) h)
    (hEnd :
      h.heapOffset + (h.heapSize + h.codeSize) <
        Word.signedLimit)
    (hLength : contents.length = h.heapSize + h.codeSize) :
    ∃ file,
      h.writeImage contents = .ok file ∧
        Makes (ofFile (some file))
          { header := h, contents := contents.toArray } := by
  rcases makes_parse hMakes with ⟨hDescribes, hAccepted⟩
  refine ⟨_, writeImage_ok hAccepted hEnd hLength, ?_⟩
  have hOffset := hAccepted.offset
  have hFirst :
      (h.toBytes ++
          List.replicate (h.heapOffset - size) 0).length =
        h.heapOffset := by
    rw [List.length_append, length_toBytes,
      List.length_replicate]
    omega
  refine makes_ofFile.mpr ⟨⟨?_, ?_, hAccepted, ?_, ?_⟩, ?_⟩
  · rw [List.length_append, hFirst]
    omega
  · rw [List.append_assoc, ← length_toBytes h, List.take_left]
    exact describes_toBytes hDescribes.fits hDescribes.word
  · rw [List.length_append, hFirst, hLength]
  · rw [slice_behind (Nat.le_of_eq hFirst), hFirst,
      Nat.sub_self, slice_whole hLength]
  · intro hOverlong
    have hFar := hOverlong.file
    change Word.limit ≤ h.heapOffset + (h.heapSize + h.codeSize)
      at hFar
    unfold Word.limit at hFar
    unfold Word.signedLimit at hEnd
    omega

/-
  An image with as many bytes as its header says is made of
  whole pages.
-/
theorem paged_of_makes
    (hMakes : Makes (parse bs) h)
    (hLength : contents.length = h.heapSize + h.codeSize) :
    Paged { header := h, contents := contents.toArray } := by
  rcases makes_parse hMakes with ⟨hDescribes, hAccepted⟩
  have hSmall : 256 ^ 4 < Word.signedLimit := by decide
  have hWhole := hAccepted.whole
  rw [← hLength] at hWhole
  exact
    { size_pos := Word.pos_of_isPowerOfTwo hAccepted.pageSize
      size_lt := Nat.lt_trans hDescribes.fits.pageSize hSmall
      start := hAccepted.start
      whole := hWhole }

/-
  A header that is accepted can be written with the heap and code
  that belong to it, as long as the file has less than half of
  all addresses.  The file is opened as an image that gives back
  every range of them and nothing else, and so does every cache
  in use over the image.
-/
theorem written_images_are_read_back
    (hMakes : Makes (parse bs) h)
    (hEnd :
      h.heapOffset + (h.heapSize + h.codeSize) <
        Word.signedLimit)
    (hLength : contents.length = h.heapSize + h.codeSize) :
    ∃ file i,
      h.writeImage contents = .ok file ∧
      Makes (ofFile (some file)) i ∧
      i.header = h ∧
      (∀ a n (r : Logged ReadOnlyImage), r.state = i →
        ReadOnlyImage.read a n r =
          (if h.bootHeapStart ≤ a ∧
              a - h.bootHeapStart + n ≤ contents.length then
            .ok (slice contents (a - h.bootHeapStart) n)
          else .error (.error (.unmapped a n)), r)) ∧
      (∀ pool, ∃ cache, PageCache.make i pool = .ok cache) ∧
      ∀ r, Used i r →
        ∀ a n, h.bootHeapStart ≤ a →
          a - h.bootHeapStart + n ≤ contents.length →
          a + n < Word.limit →
          (∃ t,
            PageCache.read a n r =
              (.ok (slice contents (a - h.bootHeapStart) n),
                t)) ∧
          (∃ t,
            PageCache.readInto a n r =
              (.ok (slice contents (a - h.bootHeapStart) n),
                t)) ∧
          ∃ t,
            PageCache.readNumber n a r =
              (.ok
                (h.byteOrder.decode
                  (slice contents (a - h.bootHeapStart) n)),
                t) := by
  have hAccepted := (makes_parse hMakes).2
  have hPaged := paged_of_makes hMakes hLength
  rcases makes_of_writeImage hMakes hEnd hLength with
    ⟨file, hWritten, hOpened⟩
  refine ⟨file, _, hWritten, hOpened, rfl, ?_, ?_, ?_⟩
  · rintro a n r hState
    rw [read_eq, hState]
    rfl
  · intro pool
    exact ⟨_, if_pos hAccepted.pageSize⟩
  · intro r hUsed a n hStart hPart hWord
    exact
      reads_of_used hPaged hUsed hStart hPart hWord (by omega)

/- A header of a small image with pages of four bytes. -/
def smallHeader : BootImageHeader where
  byteOrder := .bigEndian
  wordSize := 4
  version := BootImageError.expectedVersion
  pageSize := 4
  heapSize := 8
  codeSize := 4
  heapOffset := 50
  bootHeapStart := 16

/- The heap and the code of the small image. -/
def smallContents : List UInt8 :=
  [1, 2, 3, 4, 5, 6, 7, 8, 9, 10, 11, 12]

/-
  The last bytes of the small image are read across its last two
  pages.
-/
theorem written_images_are_read_back_small :
    ∃ file i,
      smallHeader.writeImage smallContents = .ok file ∧
      Makes (ofFile (some file)) i ∧
      ∀ pool, ∃ cache,
        PageCache.make i pool = .ok cache ∧
        (∃ t,
          PageCache.read 22 6 ⟨cache, {}⟩ =
            (.ok [7, 8, 9, 10, 11, 12], t)) ∧
        ∃ t,
          PageCache.readNumber 2 23 ⟨cache, {}⟩ =
            (.ok (8 * 256 + 9), t) := by
  have hMakes : Makes (parse smallHeader.toBytes) smallHeader := by
    unfold Makes
    decide +kernel
  have hLength :
      smallContents.length =
        smallHeader.heapSize + smallHeader.codeSize :=
    rfl
  rcases written_images_are_read_back hMakes (by decide)
      hLength with
    ⟨file, i, hWritten, hOpened, _, _, hMake, hReads⟩
  refine ⟨file, i, hWritten, hOpened, fun pool => ?_⟩
  rcases hMake pool with ⟨cache, hCache⟩
  have hUsed : Used i ⟨cache, {}⟩ := .start hCache
  exact
    ⟨cache, hCache,
      (hReads _ hUsed 22 6 (by decide) (by decide)
        (by decide)).1,
      (hReads _ hUsed 23 2 (by decide) (by decide)
        (by decide)).2.2⟩

end ReadOnlyImage

end BeltHeap
