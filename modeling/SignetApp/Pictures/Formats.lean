import SignetApp.Pictures.Sizes

/-!
# The picture gate

A picture of each accepted format, and what `readImageHeader` and `checkImageHeader` say of it.
-/

namespace SignetApp.Pictures

open Js

/-! ## Files -/

/-- The eight bytes every PNG begins with. -/
def pngSignature : Bytes := [0x89, 0x50, 0x4E, 0x47, 0x0D, 0x0A, 0x1A, 0x0A]

/-- A PNG that starts with its IHDR chunk. -/
def pngFile (chunkLength width height : ℕ) (rest : Bytes) : Bytes :=
  pngSignature ++ (toBigEndian 4 chunkLength ++ (codes "IHDR"
    ++ (toBigEndian 4 width ++ (toBigEndian 4 height ++ rest))))

/-- A RIFF file of form WEBP with this first chunk. -/
def webpFile (fileSize : ℕ) (fourCC : String) (chunkSize : ℕ) (payload : Bytes) : Bytes :=
  codes "RIFF" ++ (toLittleEndian 4 fileSize ++ (codes "WEBP" ++ (codes fourCC
    ++ (toLittleEndian 4 chunkSize ++ payload))))

/-- A lossy key frame: the sides are the low 14 bits of their fields, above them a scale. -/
structure LossyFrame where
  tag : Vector UInt8 3
  width : ℕ
  widthScale : ℕ
  height : ℕ
  heightScale : ℕ
  hwidth : width < 16384
  hwidthScale : widthScale < 4
  hheight : height < 16384
  hheightScale : heightScale < 4

def LossyFrame.bytes (f : LossyFrame) : Bytes :=
  f.tag.toList ++ ([0x9D, 0x01, 0x2A] ++ (toLittleEndian 2 (f.width + 16384 * f.widthScale)
    ++ toLittleEndian 2 (f.height + 16384 * f.heightScale)))

/-- A lossless header: the sides less one in 14 bits each, and four bits more. -/
structure LosslessHeader where
  width : ℕ
  height : ℕ
  top : ℕ
  hwidth : 1 ≤ width ∧ width ≤ 16384
  hheight : 1 ≤ height ∧ height ≤ 16384
  htop : top < 16

def LosslessHeader.bytes (f : LosslessHeader) : Bytes :=
  [0x2F] ++ toLittleEndian 4 (f.width - 1 + 16384 * (f.height - 1) + 268435456 * f.top)

/-- An extended header: flags, and the sides of the canvas less one in three bytes each. -/
structure ExtendedHeader where
  flags : Vector UInt8 4
  width : ℕ
  height : ℕ
  hwidth : 1 ≤ width ∧ width ≤ 16777216
  hheight : 1 ≤ height ∧ height ≤ 16777216

def ExtendedHeader.bytes (f : ExtendedHeader) : Bytes :=
  f.flags.toList ++ (toLittleEndian 3 (f.width - 1) ++ toLittleEndian 3 (f.height - 1))

/-! ## The format -/

section
variable {b : Bytes}

theorem pure_and (a : Bool) (r : Reading Bool) : (pure a <&&> r) = if a then r else .ok false := by
  cases a <;> rfl

theorem ok_and (a : Bool) (r : Reading Bool) :
    (Except.ok a <&&> r) = if a then r else .ok false := by
  cases a <;> rfl

theorem sniff_jpeg {t : Bytes} (h : b = 0xFF :: 0xD8 :: 0xFF :: t) :
    sniffImageFormat b = .ok (some .jpeg) := by
  subst h
  have hmagic : matchesFrom (0xFF :: 0xD8 :: 0xFF :: t) 0 [0xFF, 0xD8, 0xFF] = .ok true :=
    matchesFrom_of_drop (w := [0xFF, 0xD8, 0xFF]) rfl rfl
  simp [sniffImageFormat, pure_and, hmagic, ok_bind]
  rfl

theorem sniff_png {t : Bytes} (h : b = pngSignature ++ t) :
    sniffImageFormat b = .ok (some .png) := by
  subst h
  have hjpeg : matchesFrom (pngSignature ++ t) 0 [0xFF, 0xD8, 0xFF] = .ok false :=
    matchesFrom_of_drop (w := [0x89, 0x50, 0x4E]) rfl rfl
  have hfirst : matchesFrom (pngSignature ++ t) 0 [0x89] = .ok true :=
    matchesFrom_of_drop (w := [0x89]) rfl rfl
  have hname : ascii (pngSignature ++ t) 1 "PNG" = .ok true :=
    ascii_of_drop (x := 0x50) (w := [0x4E, 0x47]) rfl rfl
  have hlines : matchesFrom (pngSignature ++ t) 4 [0x0D, 0x0A, 0x1A, 0x0A] = .ok true :=
    matchesFrom_of_drop (w := [0x0D, 0x0A, 0x1A, 0x0A]) rfl rfl
  have hlen : decide (8 ≤ (pngSignature ++ t).length) = true := by simp [pngSignature]
  simp only [sniffImageFormat, pure_and, ok_and, hjpeg, hfirst, hname, hlines, hlen, if_true, ite_self,
    ok_bind, Bool.false_eq_true, if_false]
  rfl

variable (fileSize chunkSize : ℕ)

theorem sniff_webp (fourCC : String) (chunkSize : ℕ) (payload : Bytes) :
    sniffImageFormat (webpFile fileSize fourCC chunkSize payload) = .ok (some .webp) := by
  generalize hb : webpFile fileSize fourCC chunkSize payload = b
  have hjpeg : matchesFrom b 0 [0xFF, 0xD8, 0xFF] = .ok false :=
    matchesFrom_of_drop (w := [0x52, 0x49, 0x46]) (by rw [← hb]; rfl) rfl
  have hpng : matchesFrom b 0 [0x89] = .ok false :=
    matchesFrom_of_drop (w := [0x52]) (by rw [← hb]; rfl) rfl
  have hriff : ascii b 0 "RIFF" = .ok true :=
    ascii_of_drop (x := 0x52) (w := [0x49, 0x46, 0x46]) (by rw [← hb]; rfl) rfl
  have hwebp : ascii b 8 "WEBP" = .ok true :=
    ascii_of_drop (x := 0x57) (w := [0x45, 0x42, 0x50]) (by rw [← hb]; rfl) rfl
  simp only [sniffImageFormat, pure_and, ok_and, hjpeg, hpng, hriff, hwebp, if_true, ite_self,
    ok_bind, Bool.false_eq_true, if_false]
  rfl

/-! ## The sizes -/

theorem pngSize_file {chunkLength width height : ℕ} (hwidth : width < 4294967296)
    (hheight : height < 4294967296) (rest : Bytes) :
    pngSize (pngFile chunkLength width height rest) = .ok (some ⟨width, height⟩) := by
  generalize hb : pngFile chunkLength width height rest = b
  have hlen : ¬ b.length < 24 := by
    rw [← hb]
    simp [pngFile, pngSignature, length_toBigEndian, codes]
    omega
  have hihdr : ascii b 12 "IHDR" = .ok true :=
    ascii_of_drop (x := 0x49) (w := [0x48, 0x44, 0x52]) (by rw [← hb]; rfl) rfl
  have hw : u32be b 16 = .ok width := u32be_of_drop (by rw [← hb]; rfl) hwidth
  have hh : u32be b 20 = .ok height := u32be_of_drop (by rw [← hb]; rfl) hheight
  simp only [pngSize, if_neg hlen, hihdr, hw, hh, ok_bind, Bool.not_true, Bool.false_eq_true, if_false]
  rfl

theorem toInt_low14 (v : BitVec 32) : (v &&& 0x3FFF).toInt = v.toNat % 16384 := by
  have hmask : (v &&& 0x3FFF).toNat = v.toNat % 2 ^ 14 := by
    rw [BitVec.toNat_and, ← Nat.and_two_pow_sub_one_eq_mod]
    rfl
  rw [toInt_of_lt (by omega), hmask]
  rfl

theorem length_webpFile (payload : Bytes) (fourCC : String) (h : (codes fourCC).length = 4) :
    (webpFile fileSize fourCC chunkSize payload).length = 20 + payload.length := by
  have hriff : (codes "RIFF").length = 4 := rfl
  have hwebp : (codes "WEBP").length = 4 := rfl
  simp [webpFile, toLittleEndian, length_toBigEndian, h, hriff, hwebp]
  omega

theorem drop_webpFile (payload : Bytes) (fourCC : String) (h : (codes fourCC).length = 4) :
    (webpFile fileSize fourCC chunkSize payload).drop 12
      = codes fourCC ++ (toLittleEndian 4 chunkSize ++ payload)
    ∧ (webpFile fileSize fourCC chunkSize payload).drop 20 = payload := by
  have hdrop : (webpFile fileSize fourCC chunkSize payload).drop 12
      = codes fourCC ++ (toLittleEndian 4 chunkSize ++ payload) := rfl
  have hpast := drop_past (drop_past hdrop)
  rw [h, toLittleEndian, List.length_reverse, length_toBigEndian] at hpast
  exact ⟨hdrop, hpast⟩

theorem webpSize_lossy (f : LossyFrame) (rest : Bytes) :
    webpSize (webpFile fileSize "VP8 " chunkSize (f.bytes ++ rest))
      = .ok (some ⟨f.width, f.height⟩) := by
  obtain ⟨hwidth, hwidthScale⟩ := And.intro f.hwidth f.hwidthScale
  obtain ⟨hheight, hheightScale⟩ := And.intro f.hheight f.hheightScale
  obtain ⟨hchunk, hpayload⟩ := drop_webpFile fileSize chunkSize (f.bytes ++ rest) "VP8 " rfl
  have hlen := length_webpFile fileSize chunkSize (f.bytes ++ rest) "VP8 " rfl
  generalize webpFile fileSize "VP8 " chunkSize (f.bytes ++ rest) = b at *
  have hroom : ¬ b.length < 30 := by
    rw [hlen]
    simp [LossyFrame.bytes, toLittleEndian, length_toBigEndian]
    omega
  have hkind : ascii b 12 "VP8 " = .ok true :=
    ascii_of_drop (x := 0x56) (w := [0x50, 0x38, 0x20]) hchunk rfl
  rw [LossyFrame.bytes, List.append_assoc, List.append_assoc, List.append_assoc] at hpayload
  have hstart := drop_past hpayload
  rw [Vector.length_toList] at hstart
  have hcode : matchesFrom b 23 [0x9D, 0x01, 0x2A] = .ok true := matchesFrom_of_drop hstart rfl
  have hsides := drop_past hstart
  obtain ⟨w, hw, hwval⟩ : ∃ w, u16le b 26 = .ok w ∧ w.toNat = f.width + 16384 * f.widthScale :=
    u16le_of_drop hsides (by omega)
  obtain ⟨h, hh, hhval⟩ : ∃ h, u16le b 28 = .ok h ∧ h.toNat = f.height + 16384 * f.heightScale :=
    u16le_of_drop (drop_past hsides) (by omega)
  have hwlow : (w &&& 0x3FFF).toInt = f.width := by
    rw [toInt_low14, hwval]
    omega
  have hhlow : (h &&& 0x3FFF).toInt = f.height := by
    rw [toInt_low14, hhval]
    omega
  simp only [webpSize, if_neg hroom, hkind, hcode, hw, hh, ok_bind, if_true, Bool.not_true,
    Bool.false_eq_true, if_false, hwlow, hhlow]
  rfl

theorem lossless_bits {b t : Bytes} {i n : ℕ} (h : b.drop i = toLittleEndian 4 n ++ t)
    (hn : n < 4294967296) : ∃ x y z w, byteAt b i = .ok x ∧ byteAt b (i + 1) = .ok y
      ∧ byteAt b (i + 2) = .ok z ∧ byteAt b (i + 3) = .ok w
      ∧ (word x ||| word y <<< 8 ||| word z <<< 16 ||| word w <<< 24).toNat = n := by
  have hx : b.drop i = UInt8.ofNat n :: UInt8.ofNat (n / 256) :: UInt8.ofNat (n / 256 / 256)
      :: UInt8.ofNat (n / 256 / 256 / 256) :: t := h
  have hvalue : littleEndian [UInt8.ofNat n, UInt8.ofNat (n / 256), UInt8.ofNat (n / 256 / 256),
      UInt8.ofNat (n / 256 / 256 / 256)] = n := littleEndian_toLittleEndian (w := 4) hn
  have hy := drop_next hx
  have hz := drop_next hy
  have hw := drop_next hz
  exact ⟨_, _, _, _, byteAt_of_drop hx, byteAt_of_drop hy, byteAt_of_drop hz, byteAt_of_drop hw,
    (toNat_little₄ _ _ _ _).trans hvalue⟩

theorem webpSize_lossless (f : LosslessHeader) {rest : Bytes} (hrest : 5 ≤ rest.length) :
    webpSize (webpFile fileSize "VP8L" chunkSize (f.bytes ++ rest))
      = .ok (some ⟨f.width, f.height⟩) := by
  obtain ⟨hwidth, hheight⟩ := And.intro f.hwidth f.hheight
  have htop := f.htop
  obtain ⟨hchunk, hpayload⟩ := drop_webpFile fileSize chunkSize (f.bytes ++ rest) "VP8L" rfl
  have hlen := length_webpFile fileSize chunkSize (f.bytes ++ rest) "VP8L" rfl
  generalize webpFile fileSize "VP8L" chunkSize (f.bytes ++ rest) = b at *
  have hroom : ¬ b.length < 30 := by
    rw [hlen]
    simp [LosslessHeader.bytes, toLittleEndian, length_toBigEndian]
    omega
  have hlossy : ascii b 12 "VP8 " = .ok false :=
    ascii_of_drop (x := 0x56) (w := [0x50, 0x38, 0x4C]) hchunk rfl
  have hkind : ascii b 12 "VP8L" = .ok true :=
    ascii_of_drop (x := 0x56) (w := [0x50, 0x38, 0x4C]) hchunk rfl
  have hmark : byteAt b 20 = .ok 0x2F := byteAt_of_drop hpayload
  obtain ⟨x, y, z, w, hx, hy, hz, hw, hbits⟩ := lossless_bits (drop_next hpayload) (by omega)
  generalize hv : (word x ||| word y <<< 8 ||| word z <<< 16 ||| word w <<< 24) = v at hbits
  have hwlow : (v &&& 0x3FFF).toInt + 1 = f.width := by
    rw [toInt_low14, hbits]
    omega
  have hhlow : (v >>> 14 &&& 0x3FFF).toInt + 1 = f.height := by
    rw [toInt_low14, BitVec.toNat_ushiftRight, hbits, Nat.shiftRight_eq_div_pow]
    omega
  simp only [webpSize, if_neg hroom, hlossy, hkind, hmark, hx, hy, hz, hw, hv, ok_bind, if_true,
    Bool.false_eq_true, if_false, ne_eq, not_true_eq_false, hwlow, hhlow]
  rfl

theorem webpSize_extended (f : ExtendedHeader) (rest : Bytes) :
    webpSize (webpFile fileSize "VP8X" chunkSize (f.bytes ++ rest))
      = .ok (some ⟨f.width, f.height⟩) := by
  obtain ⟨hwidth, hheight⟩ := And.intro f.hwidth f.hheight
  obtain ⟨hchunk, hpayload⟩ := drop_webpFile fileSize chunkSize (f.bytes ++ rest) "VP8X" rfl
  have hlen := length_webpFile fileSize chunkSize (f.bytes ++ rest) "VP8X" rfl
  generalize webpFile fileSize "VP8X" chunkSize (f.bytes ++ rest) = b at *
  have hroom : ¬ b.length < 30 := by
    rw [hlen]
    simp [ExtendedHeader.bytes, toLittleEndian, length_toBigEndian]
    omega
  have hlossy : ascii b 12 "VP8 " = .ok false :=
    ascii_of_drop (x := 0x56) (w := [0x50, 0x38, 0x58]) hchunk rfl
  have hlossless : ascii b 12 "VP8L" = .ok false :=
    ascii_of_drop (x := 0x56) (w := [0x50, 0x38, 0x58]) hchunk rfl
  have hkind : ascii b 12 "VP8X" = .ok true :=
    ascii_of_drop (x := 0x56) (w := [0x50, 0x38, 0x58]) hchunk rfl
  rw [ExtendedHeader.bytes, List.append_assoc, List.append_assoc] at hpayload
  have hsides := drop_past hpayload
  rw [Vector.length_toList] at hsides
  have hw : u24le b 24 = .ok (f.width - 1 : ℕ) := u24le_of_drop hsides (by omega)
  have hh : u24le b 27 = .ok (f.height - 1 : ℕ) := u24le_of_drop (drop_past hsides) (by omega)
  have hwval : ((f.width - 1 : ℕ) : ℤ) + 1 = f.width := by omega
  have hhval : ((f.height - 1 : ℕ) : ℤ) + 1 = f.height := by omega
  simp only [webpSize, if_neg hroom, hlossy, hlossless, hkind, hw, hh, ok_bind, if_true,
    Bool.false_eq_true, if_false, hwval, hhval]
  rfl

end

/-! ## The gate -/

/-- The header of a picture whose format gives these sides: a side of zero is unreadable. -/
def sized (format : ImageFormat) (width height : ℕ) : Option ImageHeader :=
  if width = 0 ∨ height = 0 then none else some ⟨⟨width, height⟩, format⟩

theorem readImageHeader_of {b : Bytes} {format : ImageFormat} {width height : ℕ}
    (hformat : sniffImageFormat b = .ok (some format))
    (hsize : sizeAs b format = .ok (some ⟨width, height⟩)) :
    readImageHeader b = .ok (sized format width height) := by
  rw [readImageHeader, hformat, ok_bind]
  simp only [hsize, ok_bind]
  unfold sized
  by_cases hzero : width = 0 ∨ height = 0
  · have hside : (decide ((width : ℤ) ≤ 0) || decide ((height : ℤ) ≤ 0)) = true := by
      simp only [Bool.or_eq_true, decide_eq_true_eq]
      omega
    rw [if_pos hside, if_pos hzero]
    rfl
  · have hside : (decide ((width : ℤ) ≤ 0) || decide ((height : ℤ) ≤ 0)) = false := by
      simp only [Bool.or_eq_false_iff, decide_eq_false_iff_not]
      omega
    rw [hside, if_neg Bool.false_ne_true, if_neg hzero]
    rfl

theorem unreadable_of {b : Bytes} {format : ImageFormat}
    (hformat : sniffImageFormat b = .ok (some format)) (hsize : sizeAs b format = .ok none) :
    readImageHeader b = .ok none ∧ checkImageHeader b = .ok (.refused .unreadable) := by
  have hread : readImageHeader b = .ok none := by
    rw [readImageHeader, hformat, ok_bind]
    simp only [hsize, ok_bind]
    rfl
  refine ⟨hread, ?_⟩
  rw [checkImageHeader, hformat, ok_bind, hread]
  rfl

theorem pos_of_readImageHeader {b : Bytes} {header : ImageHeader}
    (h : readImageHeader b = .ok (some header)) : 0 < header.width ∧ 0 < header.height := by
  obtain ⟨format, hformat⟩ := sniffImageFormat_within b
  rw [readImageHeader, hformat, ok_bind] at h
  cases format with
  | none => cases h
  | some format =>
    obtain ⟨size, hsize⟩ := sizeAs_within b format
    simp only [hsize, ok_bind] at h
    cases size with
    | none => cases h
    | some size =>
      simp only at h
      split at h
      · cases h
      · next hside =>
        obtain rfl := Option.some.inj (Except.ok.inj h)
        simp only [Bool.or_eq_true, decide_eq_true_eq, not_or, not_le] at hside
        exact hside

theorem bounds_of_checkImageHeader {b : Bytes} {header : ImageHeader}
    (h : checkImageHeader b = .ok (.ok header)) :
    readImageHeader b = .ok (some header) ∧ header.width ≤ maxImageSidePx
      ∧ header.height ≤ maxImageSidePx ∧ header.width * header.height ≤ maxImagePixels := by
  obtain ⟨format, hformat⟩ := sniffImageFormat_within b
  obtain ⟨read, hread⟩ := readImageHeader_within b
  rw [checkImageHeader, hformat, ok_bind] at h
  split at h
  · cases h
  · rw [hread, ok_bind] at h
    cases read with
    | none => cases h
    | some read =>
      simp only at h
      split at h
      · cases h
      · next hlimits =>
        obtain rfl := ImageHeaderCheck.ok.inj (Except.ok.inj h)
        simp only [Bool.or_eq_true, decide_eq_true_eq, not_or, not_lt] at hlimits
        exact ⟨hread, hlimits.1.1, hlimits.1.2, hlimits.2⟩

variable (segments : List Segment)

theorem jpegStream_begins {tail : Bytes} (htail : tail = [] ∨ ∃ t, tail = 0xFF :: t) :
    jpegStream segments tail = [0xFF, 0xD8] ∨ ∃ t, jpegStream segments tail = 0xFF :: 0xD8 :: 0xFF :: t := by
  have hmark : ∀ fill marker, ∃ t, mark fill marker = 0xFF :: t := fun fill marker =>
    ⟨_, by rw [mark, List.replicate_succ, List.cons_append]⟩
  cases segments with
  | nil =>
    rcases htail with rfl | ⟨t, rfl⟩
    · exact .inl rfl
    · exact .inr ⟨t, rfl⟩
  | cons s rest =>
    right
    cases s with
    | standalone fill marker h =>
      obtain ⟨t, ht⟩ := hmark fill marker
      exact ⟨_, by rw [jpegStream, List.flatMap_cons, Segment.bytes, ht]; rfl⟩
    | sized fill marker payload h hsize =>
      obtain ⟨t, ht⟩ := hmark fill marker
      exact ⟨_, by rw [jpegStream, List.flatMap_cons, Segment.bytes, ht]; rfl⟩

theorem prefix_begins {t w v : Bytes} (h : t <+: 0xFF :: w ++ v) : t = [] ∨ ∃ r, t = 0xFF :: r := by
  cases t with
  | nil => exact .inl rfl
  | cons x r => exact .inr ⟨r, by rw [(List.cons_prefix_cons.1 h).1]⟩

theorem Ends.begins {tail : Bytes} (h : Ends tail) : tail = [] ∨ ∃ t, tail = 0xFF :: t := by
  have hmark : ∀ fill marker, mark fill marker = 0xFF :: (List.replicate fill 0xFF ++ [marker]) :=
    fun fill marker => by rw [mark, List.replicate_succ, List.cons_append]
  cases h with
  | closing fill hmarker rest => exact .inr ⟨_, by rw [hmark]; rfl⟩
  | @inSegment s _ h =>
    cases s with
    | standalone fill marker _ =>
      rw [Segment.bytes, hmark] at h
      exact prefix_begins (v := []) (by rwa [List.append_nil])
    | sized fill marker payload _ _ =>
      rw [Segment.bytes, hmark] at h
      exact prefix_begins h
  | @inFrame f _ h =>
    rw [FrameHeader.bytes, hmark] at h
    exact prefix_begins h

theorem jpegSize_stream (tail : Bytes) :
    jpegSize (jpegStream segments tail)
      = jpegFrom (jpegStream segments tail) (2 + (segments.flatMap Segment.bytes).length) :=
  jpegFrom_segments (i := 2) rfl

theorem drop_jpegStream (tail : Bytes) :
    (jpegStream segments tail).drop (2 + (segments.flatMap Segment.bytes).length) = tail :=
  drop_past (i := 2) rfl

theorem readImageHeader_jpeg (f : FrameHeader) (rest : Bytes) :
    readImageHeader (jpegStream segments (f.bytes ++ rest)) = .ok (sized .jpeg f.width f.height) := by
  have hbegins : ∃ t, f.bytes ++ rest = 0xFF :: t :=
    ⟨_, by rw [FrameHeader.bytes, mark, List.replicate_succ]; rfl⟩
  have hnot : jpegStream segments (f.bytes ++ rest) ≠ [0xFF, 0xD8] := by
    obtain ⟨t, ht⟩ := hbegins
    rw [jpegStream, ht]
    simp
  obtain ⟨t, ht⟩ := (jpegStream_begins segments (.inr hbegins)).resolve_left hnot
  refine readImageHeader_of (sniff_jpeg ht) ?_
  show jpegSize _ = _
  rw [jpegSize_stream]
  exact jpegFrom_frame f (drop_jpegStream segments (f.bytes ++ rest))

/-- **The picture gate reads the size a decoder would use**, and reads no byte beyond the end. -/
structure GateReadsSizes : Prop where
  within : ∀ b, Within (readImageHeader b) ∧ Within (checkImageHeader b)
  bounded : ∀ b header, checkImageHeader b = .ok (.ok header) →
    readImageHeader b = .ok (some header) ∧ 1 ≤ header.width ∧ header.width ≤ maxImageSidePx ∧ 1 ≤ header.height
      ∧ header.height ≤ maxImageSidePx ∧ header.width * header.height ≤ maxImagePixels
  jpeg : ∀ segments (f : FrameHeader) rest,
    readImageHeader (jpegStream segments (f.bytes ++ rest)) = .ok (sized .jpeg f.width f.height)
  /-- A picture of two bytes is of no accepted format. -/
  jpegEnds : ∀ segments tail, Ends tail → readImageHeader (jpegStream segments tail) = .ok none
    ∧ checkImageHeader (jpegStream segments tail)
      = .ok (.refused (if jpegStream segments tail = [0xFF, 0xD8] then .unsupported else .unreadable))
  png : ∀ chunkLength width height rest, width < 4294967296 → height < 4294967296 →
    readImageHeader (pngFile chunkLength width height rest) = .ok (sized .png width height)
  lossy : ∀ fileSize chunkSize (f : LossyFrame) rest,
    readImageHeader (webpFile fileSize "VP8 " chunkSize (f.bytes ++ rest))
      = .ok (sized .webp f.width f.height)
  lossless : ∀ fileSize chunkSize (f : LosslessHeader) rest,
    30 ≤ (webpFile fileSize "VP8L" chunkSize (f.bytes ++ rest)).length →
    readImageHeader (webpFile fileSize "VP8L" chunkSize (f.bytes ++ rest))
      = .ok (some ⟨⟨f.width, f.height⟩, .webp⟩)
  extended : ∀ fileSize chunkSize (f : ExtendedHeader) rest,
    readImageHeader (webpFile fileSize "VP8X" chunkSize (f.bytes ++ rest))
      = .ok (some ⟨⟨f.width, f.height⟩, .webp⟩)

theorem gate_reads_sizes : GateReadsSizes where
  within b := ⟨readImageHeader_within b, checkImageHeader_within b⟩
  bounded b header h := by
    obtain ⟨hread, hwidth, hheight, hpixels⟩ := bounds_of_checkImageHeader h
    obtain ⟨hwpos, hhpos⟩ := pos_of_readImageHeader hread
    exact ⟨hread, hwpos, hwidth, hhpos, hheight, hpixels⟩
  jpeg := readImageHeader_jpeg
  jpegEnds segments tail htail := by
    have hsize : jpegSize (jpegStream segments tail) = .ok none := by
      rw [jpegSize_stream]
      exact jpegFrom_ends htail (drop_jpegStream segments tail)
    rcases jpegStream_begins segments htail.begins with h | ⟨t, ht⟩
    · rw [h, if_pos rfl]
      exact ⟨by decide, by decide⟩
    · rw [if_neg (by rw [ht]; simp)]
      exact unreadable_of (sniff_jpeg ht) hsize
  png chunkLength width height rest hwidth hheight :=
    readImageHeader_of (sniff_png rfl) (pngSize_file hwidth hheight rest)
  lossy fileSize chunkSize f rest :=
    readImageHeader_of (sniff_webp fileSize _ chunkSize _) (webpSize_lossy fileSize chunkSize f rest)
  lossless fileSize chunkSize f rest hlen := by
    have hrest : 5 ≤ rest.length := by
      rw [length_webpFile fileSize chunkSize _ _ rfl] at hlen
      simp [LosslessHeader.bytes, toLittleEndian, length_toBigEndian] at hlen
      omega
    have hwidth := f.hwidth
    have hheight := f.hheight
    have h := readImageHeader_of (sniff_webp fileSize _ chunkSize _)
      (webpSize_lossless fileSize chunkSize f hrest)
    rwa [sized, if_neg (by omega)] at h
  extended fileSize chunkSize f rest := by
    have hwidth := f.hwidth
    have hheight := f.hheight
    have h := readImageHeader_of (sniff_webp fileSize _ chunkSize _)
      (webpSize_extended fileSize chunkSize f rest)
    rwa [sized, if_neg (by omega)] at h

/-- A JPEG whose frame header leaves the height open (16 × 0), and a lossless WebP of 1 × 1 in 26
bytes, are both refused. -/
theorem refuses_open_height_and_short_lossless :
    readImageHeader (jpegStream [] [0xFF, 0xC0, 0, 11, 8, 0, 0, 0, 16, 1, 1, 0x11, 0]) = .ok none
    ∧ readImageHeader (webpFile 18 "VP8L" 6
      ((LosslessHeader.mk 1 1 0 (by decide) (by decide) (by decide)).bytes ++ [0])) = .ok none := by
  have hframe := readImageHeader_jpeg [] ⟨0, 0xC0, 11, 8, 0, 16, by decide, by decide, by decide,
    by decide, by decide⟩ [1, 1, 0x11, 0]
  exact ⟨hframe, by decide⟩

end SignetApp.Pictures
