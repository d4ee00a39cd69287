import Chip8.Proofs.Bitmap.Superposition
import Chip8.Session.Snapshot

/-!
# Packed images

`packInPlace` writes the packed form of a bitmap over a buffer, three bytes at a time, with 64 bits
for every number, and hands the buffer back as it was if it does not fit. It comes to what
`packInto` does (`packInPlace_eq`). Since the pixels of a binary bitmap are 0 or 1, no product is
ever cut off, and every byte of the image is the channel of its pixel or zero (`IsImage`): nothing
is left of what the buffer or the snapshot held before. As long as the colour is not black, the
image shows which pixels are lit, and hence the whole bitmap (`packed_image_is_exact`).
-/

namespace Chip8

/-- The intensity of a channel: red, green or blue. -/
def Color.channel (color : Color) : Fin 3 → UInt8
  | 0 => color.red
  | 1 => color.green
  | 2 => color.blue

namespace Bitmap

/-! ## Packing in place -/

/-- The bytes of a pixel, one for each channel. -/
def pixelBytes (color : Color) (p : UInt8) : Bytes :=
  [saturatingMul p color.red, saturatingMul p color.green, saturatingMul p color.blue]

/-- Writes pixels over a buffer from its front, three bytes for each, for as long as there is a
pixel left and room for it. The rest of the buffer stays as it is. -/
def packLoop (color : Color) : Bytes → Bytes → Bytes
  | p :: pixels, _ :: _ :: _ :: room => pixelBytes color p ++ packLoop color pixels room
  | _, room => room

/-- The number of bytes of the packed form, if 64 bits are enough for it. -/
def packedSize? (b : Bitmap) : Option Nat := do
  let count ← word64 (b.width * b.height)
  word64 (count * 3)

/-- Writes the packed form over a buffer, which must have exactly its size. The result is the buffer
afterwards and whether it was refused. -/
def packInPlace (b : Bitmap) (color : Color) (buffer : Array UInt8) :
    Option (Array UInt8 × Except AccessError Unit) := do
  let size ← b.packedSize?
  if buffer.size = size then
    some ((packLoop color b.pixels.toList buffer.toList).toArray, .ok ())
  else
    some (buffer, .error (.bufferSize size buffer.size))

end Bitmap

/-- Takes a screen over into the snapshot, whose bytes are brought to the right size and written
over. -/
def Snapshot.updateInPlace (s : Snapshot) (screen : Bitmap) (color : Color) :
    Option (Snapshot × List LogEntry) := do
  let size ← screen.packedSize?
  let (bytes, result) ← screen.packInPlace color (resize s.bytes size)
  match result with
  | .ok () => some (⟨bytes⟩, [])
  | .error e => some (⟨bytes⟩, [.snapshotRefused e])

namespace Bitmap

/-- With room for just the pixels, nothing is left of the buffer. -/
theorem packLoop_eq (color : Color) {pixels room : Bytes} (h : room.length = 3 * pixels.length) :
    packLoop color pixels room = pixels.flatMap (pixelBytes color) := by
  induction pixels generalizing room with
  | nil =>
    obtain rfl := List.eq_nil_of_length_eq_zero h
    rfl
  | cons p pixels ih =>
    match room, h with
    | _ :: _ :: _ :: room, h =>
      have hroom : room.length = 3 * pixels.length := by
        simp only [List.length_cons] at h
        omega
      rw [packLoop, ih hroom, List.flatMap_cons]

theorem toList_packed (b : Bitmap) (color : Color) :
    (b.packed color).toList = b.pixels.toList.flatMap (pixelBytes color) := by
  rw [packed, Array.toList_flatMap]
  rfl

theorem packedSize?_eq {b : Bitmap} (h : b.packedSize < 2 ^ 64) :
    b.packedSize? = some b.packedSize := by
  have hcount : b.width * b.height < 2 ^ 64 := by
    unfold packedSize at h
    omega
  rw [packedSize?, word64_of_lt hcount, Option.bind_eq_bind, Option.bind_some]
  exact word64_of_lt h

/-- **Packing in place** comes to the packed form, or leaves the buffer alone. -/
theorem packInPlace_eq {b : Bitmap} (h : b.packedSize < 2 ^ 64) (color : Color)
    (buffer : Array UInt8) :
    b.packInPlace color buffer =
      some (match b.packInto color buffer with
        | .ok bytes => (bytes, .ok ())
        | .error e => (buffer, .error e)) := by
  rw [packInPlace, packedSize?_eq h, Option.bind_eq_bind, Option.bind_some, packInto]
  by_cases hsize : buffer.size = b.packedSize
  · have hroom : buffer.toList.length = 3 * b.pixels.toList.length := by
      rw [Array.length_toList, Array.length_toList, hsize, packedSize, b.size_pixels, Nat.mul_comm]
    rw [if_pos hsize, if_pos hsize, packLoop_eq color hroom, ← toList_packed]
  · rw [if_neg hsize, if_neg hsize]

end Bitmap

/-- **An update in place** comes to what an update does. -/
theorem Snapshot.updateInPlace_eq (s : Snapshot) {screen : Bitmap}
    (h : screen.packedSize < 2 ^ 64) (color : Color) :
    s.updateInPlace screen color = some (s.update screen color) := by
  rw [updateInPlace, Bitmap.packedSize?_eq h, Option.bind_eq_bind, Option.bind_some,
    Bitmap.packInPlace_eq h, Option.bind_eq_bind, Option.bind_some, update]
  cases screen.packInto color (resize s.bytes screen.packedSize) with
  | ok bytes => rfl
  | error e => rfl

namespace Bitmap

/-! ## The bytes of an image -/

/-- The bytes are the image of the bitmap: three for each pixel, which are the channels of the
colour if the pixel is lit and zero if it is dark. -/
structure IsImage (b : Bitmap) (color : Color) (bytes : Array UInt8) : Prop where
  size_eq : bytes.size = 3 * (b.width * b.height)
  byte_eq : ∀ (i : Nat) (hi : i < b.pixels.size) (k : Fin 3),
    bytes[3 * i + k.val]? = some (if b.pixels[i] = 0 then 0 else color.channel k)

/-- A pixel of a binary bitmap makes no product too large for a byte. -/
theorem IsBinary.mul_lt {b : Bitmap} (hb : b.IsBinary) {p : UInt8} (hp : p ∈ b.pixels)
    (scale : UInt8) : p.toNat * scale.toNat < 256 := by
  rcases hb p hp with rfl | rfl
  · simp
  · simpa using scale.toNat_lt

theorem getElem?_pixelBytes (color : Color) {p : UInt8} (hp : p = 0 ∨ p = 1) (k : Fin 3) :
    (pixelBytes color p)[k.val]? = some (if p = 0 then 0 else color.channel k) := by
  have hdark : ∀ scale, saturatingMul 0 scale = 0 := by simp [saturatingMul]
  have hlit : ∀ scale, saturatingMul 1 scale = scale := by
    intro scale
    have := scale.toNat_lt
    simp [saturatingMul, this]
  rcases hp with rfl | rfl
  · simp only [pixelBytes, hdark]
    match k with
    | 0 | 1 | 2 => rfl
  · simp only [pixelBytes, hlit]
    match k with
    | 0 | 1 | 2 => rfl

/-- The bytes of pixel `i` start at three times `i`. -/
theorem getElem?_flatMap_pixelBytes (color : Color) (pixels : Bytes) (i : Nat) (k : Fin 3) :
    (pixels.flatMap (pixelBytes color))[3 * i + k.val]? =
      pixels[i]?.bind fun p => (pixelBytes color p)[k.val]? := by
  induction pixels generalizing i with
  | nil => rfl
  | cons p pixels ih =>
    have hlength : (pixelBytes color p).length = 3 := rfl
    rw [List.flatMap_cons]
    cases i with
    | zero =>
      rw [Nat.mul_zero, Nat.zero_add, List.getElem?_append_left (by omega)]
      rfl
    | succ i =>
      have hskip : 3 * (i + 1) + k.val - 3 = 3 * i + k.val := by omega
      rw [List.getElem?_append_right (by omega), hlength, hskip, ih, List.getElem?_cons_succ]

theorem packedSize_eq (b : Bitmap) : b.packedSize = 3 * (b.width * b.height) :=
  Nat.mul_comm _ _

/-- **The packed form is the image.** -/
theorem IsBinary.isImage_packed {b : Bitmap} (hb : b.IsBinary) (color : Color) :
    b.IsImage color (b.packed color) where
  size_eq := (b.size_packed color).trans b.packedSize_eq
  byte_eq i hi k := by
    rw [← Array.getElem?_toList, toList_packed, getElem?_flatMap_pixelBytes, Array.getElem?_toList,
      Array.getElem?_eq_getElem hi, Option.bind_some]
    exact getElem?_pixelBytes color (hb _ (Array.getElem_mem hi)) k

/-- A buffer that was not refused holds the image. -/
theorem IsBinary.isImage_of_packInto {b : Bitmap} (hb : b.IsBinary) {color : Color}
    {buffer bytes : Array UInt8} (h : b.packInto color buffer = .ok bytes) :
    b.IsImage color bytes := by
  unfold packInto at h
  split at h
  · obtain rfl := Except.ok.inj h
    exact hb.isImage_packed color
  · cases h

/-- The bytes of an image by columns and rows. -/
theorem IsImage.byte_of_lt {b : Bitmap} {color : Color} {bytes : Array UInt8}
    (h : b.IsImage color bytes) {c r : Nat} (hc : c < b.width) (hr : r < b.height) (k : Fin 3) :
    bytes[3 * (r * b.width + c) + k.val]? =
      some (if b.isLit c r then color.channel k else 0) := by
  have hi := b.index_lt hc hr
  rw [h.byte_eq _ hi k, isLit_of_lt b hc hr, Array.getElem?_eq_getElem hi, Option.getD_some]
  by_cases hp : b.pixels[r * b.width + c] = 0
  · simp [hp]
  · simp [hp]

/-- **A bitmap is known by its image**, unless that is black in black. -/
theorem IsImage.eq_of_eq {b b' : Bitmap} {color : Color} {bytes : Array UInt8}
    (h : b.IsImage color bytes) (h' : b'.IsImage color bytes) (hb : b.IsBinary)
    (hb' : b'.IsBinary) (hwidth : b.width = b'.width) (hheight : b.height = b'.height)
    {k : Fin 3} (hk : color.channel k ≠ 0) : b = b' := by
  refine hb.ext hb' hwidth hheight fun c hc r hr => ?_
  have hbyte := h.byte_of_lt hc hr k
  rw [hwidth, h'.byte_of_lt (hwidth ▸ hc) (hheight ▸ hr) k, Option.some.injEq] at hbyte
  cases hlit : b.isLit c r with
  | true =>
    cases hlit' : b'.isLit c r with
    | true => rfl
    | false => exact absurd (by simpa [hlit, hlit'] using hbyte.symm) hk
  | false =>
    cases hlit' : b'.isLit c r with
    | true => exact absurd (by simpa [hlit, hlit'] using hbyte) hk
    | false => rfl

/-- What packing a bitmap in a colour comes to. -/
structure PacksExactly (b : Bitmap) (color : Color) : Prop where
  /-- A buffer is refused if and only if it has not three bytes for every pixel, -/
  packInto_error : ∀ {buffer : Array UInt8}, buffer.size ≠ 3 * (b.width * b.height) →
    b.packInto color buffer = .error (.bufferSize (3 * (b.width * b.height)) buffer.size)
  /-- and else it holds the image, whatever it held before. -/
  packInto_ok : ∀ {buffer : Array UInt8}, buffer.size = 3 * (b.width * b.height) →
    ∃ bytes, b.packInto color buffer = .ok bytes ∧ b.IsImage color bytes
  /-- A buffer that is written over in place holds the same, and what it held if it is refused. No
  number needs more than 64 bits. -/
  packInPlace_eq : ∀ buffer, b.packInPlace color buffer =
    some (match b.packInto color buffer with
      | .ok bytes => (bytes, .ok ())
      | .error e => (buffer, .error e))
  /-- No product of a pixel and a channel is too large for a byte. -/
  mul_lt : ∀ p ∈ b.pixels, ∀ k, p.toNat * (color.channel k).toNat < 256
  /-- A snapshot takes the image over without a warning, whatever it held before. -/
  update : ∀ s : Snapshot, s.updateInPlace b color = some (s.update b color) ∧
    (s.update b color).2 = [] ∧ b.IsImage color (s.update b color).1.bytes

/-- **The packed image is exact**, for every bitmap whose packed size 64 bits can tell. If any
channel of the colour is not zero, bitmaps of one size with the same image are the same. -/
theorem packed_image_is_exact {width height : UInt64}
    (hsize : 3 * (width.toNat * height.toNat) < 2 ^ 64) {b : Bitmap}
    (hb : Made width.toNat height.toNat b) (color : Color) :
    b.PacksExactly color ∧
      ∀ {b' : Bitmap}, Made width.toNat height.toNat b' → (∃ k, color.channel k ≠ 0) →
        ∀ {buffer buffer' bytes : Array UInt8}, b.packInto color buffer = .ok bytes →
          b'.packInto color buffer' = .ok bytes → b = b' := by
  have hlt : b.packedSize < 2 ^ 64 := by
    rw [packedSize_eq, hb.width_eq, hb.height_eq]
    exact hsize
  constructor
  · exact {
      packInto_error := fun h => by
        rw [← packedSize_eq] at h ⊢
        exact if_neg h
      packInto_ok := fun h => by
        rw [← packedSize_eq] at h
        exact ⟨_, if_pos h, hb.isBinary.isImage_packed color⟩
      packInPlace_eq := Bitmap.packInPlace_eq hlt color
      mul_lt := fun p hp k => hb.isBinary.mul_lt hp (color.channel k)
      update := fun s => by
        refine ⟨s.updateInPlace_eq hlt color, ?_⟩
        rw [Snapshot.bytes_update]
        exact ⟨rfl, hb.isBinary.isImage_packed color⟩ }
  · rintro b' hb' ⟨k, hk⟩ buffer buffer' bytes h h'
    have himage := hb.isBinary.isImage_of_packInto h
    have himage' := hb'.isBinary.isImage_of_packInto h'
    exact himage.eq_of_eq himage' hb.isBinary hb'.isBinary
      (hb.width_eq.trans hb'.width_eq.symm) (hb.height_eq.trans hb'.height_eq.symm) hk

/-- Two pixels, of which the right one is lit: a buffer is written over, one that is too short is
refused and stays, and a snapshot that was too long is cut off. -/
theorem packed_image_is_exact_two_pixels :
    let b := ((blank 2 1).composite 1 0 [0x80]).1
    let color : Color := ⟨10, 20, 255⟩
    b.packInPlace color (Array.replicate 6 0xAA) = some (#[0, 0, 0, 10, 20, 255], .ok ()) ∧
      b.packInPlace color #[0xAA] = some (#[0xAA], .error (.bufferSize 6 1)) ∧
      b.IsImage color ((⟨Array.replicate 7 0xAA⟩ : Snapshot).update b color).1.bytes ∧
      ((blank 2 1).packed color ≠ b.packed color) := by
  intro b color
  have hsize : 3 * ((2 : UInt64).toNat * (1 : UInt64).toNat) < 2 ^ 64 := by decide
  have hmade : Made (2 : UInt64).toNat (1 : UInt64).toNat b := .composite .blank 1 0 [0x80]
  obtain ⟨hpacks, hknown⟩ := packed_image_is_exact hsize hmade color
  have hblank : Made (2 : UInt64).toNat (1 : UInt64).toNat (blank 2 1) := .blank
  have hfits : b.packInto color (Array.replicate 6 0xAA) = .ok #[0, 0, 0, 10, 20, 255] := by
    decide +kernel
  have hshort : b.packInto color #[0xAA] = .error (.bufferSize 6 1) :=
    hpacks.packInto_error (by decide +kernel)
  refine ⟨?_, ?_, (hpacks.update _).2.2, ?_⟩
  · rw [hpacks.packInPlace_eq, hfits]
  · rw [hpacks.packInPlace_eq, hshort]
  · intro hsame
    have hdark : (blank 2 1).packInto color (Array.replicate 6 0xAA) =
        .ok #[0, 0, 0, 10, 20, 255] := by
      refine (if_pos rfl).trans (congrArg Except.ok (hsame.trans ?_))
      decide +kernel
    have := hknown hblank ⟨0, by decide⟩ hfits hdark
    revert this
    decide +kernel

end Bitmap

end Chip8
