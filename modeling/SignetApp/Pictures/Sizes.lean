import SignetApp.Js.Words

/-!
# Image headers

Format sniffing and header-only dimension reading for contact pictures: every picture goes through
`checkImageHeader` before any decoder sees it.

A read beyond the end gives `undefined` in the source. Here it is an error of its own, so that every
read is seen to stay inside.
-/

namespace SignetApp.Pictures

open Js

/-- A byte was read beyond the end. -/
structure PastEnd where
  index : ℕ
  deriving DecidableEq

abbrev Reading := Except PastEnd

inductive ImageFormat where
  | jpeg
  | png
  | webp
  deriving DecidableEq

def maxImageSidePx : ℤ := 8192

def maxImagePixels : ℤ := 40000000

structure Size where
  width : ℤ
  height : ℤ
  deriving DecidableEq

structure ImageHeader extends Size where
  format : ImageFormat
  deriving DecidableEq

inductive Refusal where
  | unsupported
  | unreadable
  | tooLarge
  deriving DecidableEq

inductive ImageHeaderCheck where
  | ok (header : ImageHeader)
  | refused (reason : Refusal)
  deriving DecidableEq

/-! ## Reads -/

/-- `b[i]`. -/
def byteAt (b : Bytes) (i : ℕ) : Reading UInt8 :=
  match b[i]? with
  | some x => .ok x
  | none => .error ⟨i⟩

/-- `b[i] === x && b[i + 1] === y && ...`. -/
def matchesFrom (b : Bytes) (i : ℕ) : Bytes → Reading Bool
  | [] => pure true
  | x :: rest => do
    if (← byteAt b i) = x then matchesFrom b (i + 1) rest else pure false

/-- The character codes of a text. -/
def codes (text : String) : Bytes := text.toList.map fun c => UInt8.ofNat c.toNat

def ascii (b : Bytes) (i : ℕ) (text : String) : Reading Bool :=
  if i + (codes text).length > b.length then pure false else matchesFrom b i (codes text)

/-- The format the magic bytes claim. -/
def sniffImageFormat (b : Bytes) : Reading (Option ImageFormat) := do
  if ← pure (decide (3 ≤ b.length)) <&&> matchesFrom b 0 [0xFF, 0xD8, 0xFF] then
    return some .jpeg
  if ← pure (decide (8 ≤ b.length)) <&&> matchesFrom b 0 [0x89] <&&> ascii b 1 "PNG"
      <&&> matchesFrom b 4 [0x0D, 0x0A, 0x1A, 0x0A] then
    return some .png
  if ← ascii b 0 "RIFF" <&&> ascii b 8 "WEBP" then
    return some .webp
  return none

def u16be (b : Bytes) (i : ℕ) : Reading ℤ := do
  return (word (← byteAt b i) <<< 8 ||| word (← byteAt b (i + 1))).toInt

def u16le (b : Bytes) (i : ℕ) : Reading (BitVec 32) := do
  return word (← byteAt b i) ||| word (← byteAt b (i + 1)) <<< 8

def u24le (b : Bytes) (i : ℕ) : Reading ℤ := do
  return (word (← byteAt b i) ||| word (← byteAt b (i + 1)) <<< 8
    ||| word (← byteAt b (i + 2)) <<< 16).toInt

def u32be (b : Bytes) (i : ℕ) : Reading ℤ := do
  return (word (← byteAt b i) <<< 24).toNat + (word (← byteAt b (i + 1)) <<< 16
    ||| word (← byteAt b (i + 2)) <<< 8 ||| word (← byteAt b (i + 3))).toInt

/-! ## JPEG -/

/-- SOFn markers carry the frame size; C4 (DHT), C8 (JPG) and CC (DAC) do not. -/
def isSofMarker (m : UInt8) : Bool :=
  0xC0 ≤ m && m ≤ 0xCF && m ≠ 0xC4 && m ≠ 0xC8 && m ≠ 0xCC

/-- Markers without a length: TEM, RSTn. -/
def isStandalone (m : UInt8) : Bool := m = 0x01 || 0xD0 ≤ m && m ≤ 0xD7

/-- Fill bytes: the index of the first byte from `i` on that is not 0xFF. -/
def skipFill (b : Bytes) (i : ℕ) : Reading { j : ℕ // i ≤ j } :=
  if i < b.length then do
    if (← byteAt b i) = 0xFF then
      let j ← skipFill b (i + 1)
      return ⟨j.val, Nat.le_of_succ_le j.property⟩
    else return ⟨i, Nat.le_refl i⟩
  else pure ⟨i, Nat.le_refl i⟩
termination_by b.length - i

/-- The marker chain from `i` on, up to the frame header. -/
def jpegFrom (b : Bytes) (i : ℕ) : Reading (Option Size) :=
  if i < b.length then do
    if (← byteAt b i) ≠ 0xFF then return none
    let j ← skipFill b i
    if b.length ≤ j.val then return none
    let marker ← byteAt b j.val
    if isStandalone marker then
      jpegFrom b (j.val + 1)
    -- Start of scan or end of image before any frame header.
    else if marker = 0xDA || marker = 0xD9 then return none
    else if j.val + 1 + 2 > b.length then return none
    else
      let length ← u16be b (j.val + 1)
      if length < 2 then return none
      if isSofMarker marker then
        if j.val + 1 + 7 > b.length || length < 7 then return none
        let height ← u16be b (j.val + 1 + 3)
        let width ← u16be b (j.val + 1 + 5)
        return some ⟨width, height⟩
      jpegFrom b (j.val + 1 + length.toNat)
  else pure none
termination_by b.length - i
decreasing_by
  all_goals
    have := j.property
    omega

def jpegSize (b : Bytes) : Reading (Option Size) := jpegFrom b 2

/-! ## PNG and WebP -/

def pngSize (b : Bytes) : Reading (Option Size) := do
  if b.length < 24 then return none
  if !(← ascii b 12 "IHDR") then return none
  return some ⟨← u32be b 16, ← u32be b 20⟩

def webpSize (b : Bytes) : Reading (Option Size) := do
  if b.length < 30 then return none
  if ← ascii b 12 "VP8 " then
    -- Frame tag (3), then the key-frame start code.
    if !(← matchesFrom b 23 [0x9D, 0x01, 0x2A]) then return none
    return some ⟨((← u16le b 26) &&& 0x3FFF).toInt, ((← u16le b 28) &&& 0x3FFF).toInt⟩
  if ← ascii b 12 "VP8L" then
    if (← byteAt b 20) ≠ 0x2F then return none
    let bits := word (← byteAt b 21) ||| word (← byteAt b 22) <<< 8 ||| word (← byteAt b 23) <<< 16
      ||| word (← byteAt b 24) <<< 24
    return some ⟨(bits &&& 0x3FFF).toInt + 1, (bits >>> 14 &&& 0x3FFF).toInt + 1⟩
  if ← ascii b 12 "VP8X" then
    return some ⟨(← u24le b 24) + 1, (← u24le b 27) + 1⟩
  return none

/-! ## The gate -/

/-- The dimensions, read as the format has them. -/
def sizeAs (b : Bytes) : ImageFormat → Reading (Option Size)
  | .jpeg => jpegSize b
  | .png => pngSize b
  | .webp => webpSize b

/-- Format and dimensions from the header alone. -/
def readImageHeader (b : Bytes) : Reading (Option ImageHeader) := do
  match ← sniffImageFormat b with
  | none => return none
  | some format =>
    match ← sizeAs b format with
    | none => return none
    | some size =>
      if size.width ≤ 0 || size.height ≤ 0 then return none
      return some ⟨size, format⟩

/-- The gate every contact picture passes before it is decoded. -/
def checkImageHeader (b : Bytes) : Reading ImageHeaderCheck := do
  if (← sniffImageFormat b).isNone then return .refused .unsupported
  match ← readImageHeader b with
  | none => return .refused .unreadable
  | some header =>
    if header.width > maxImageSidePx || header.height > maxImageSidePx
        || header.width * header.height > maxImagePixels then
      return .refused .tooLarge
    return .ok header

/-!
## The sizes a decoder would use

What the formats say the size of a picture is, and that the header reader finds it: the JPEG marker
chain up to the first frame header, the IHDR chunk of a PNG and the three kinds of WebP. No read
goes beyond the end.
-/

/-! ## Within the bytes -/

section
variable {α β : Type} {b : Bytes} {i : ℕ}

theorem ok_bind (a : α) (f : α → Reading β) : (Except.ok a >>= f) = f a := rfl

/-- No read of the computation was beyond the end. -/
def Within (r : Reading α) : Prop := ∃ a, r = .ok a

theorem within_pure (a : α) : Within (pure a : Reading α) := ⟨a, rfl⟩

theorem Within.bind {r : Reading α} {f : α → Reading β} (h : Within r)
    (hf : ∀ a, r = .ok a → Within (f a)) : Within (r >>= f) := by
  obtain ⟨a, rfl⟩ := h
  exact hf a rfl

theorem Within.ite {p : Prop} [Decidable p] {r s : Reading α} (hr : p → Within r)
    (hs : ¬ p → Within s) : Within (if p then r else s) := by
  split
  · next h => exact hr h
  · next h => exact hs h

theorem Within.and {r s : Reading Bool} (hr : Within r) (hs : r = .ok true → Within s) :
    Within (r <&&> s) := by
  refine hr.bind fun a ha => ?_
  cases a with
  | false => exact within_pure false
  | true => exact hs ha

theorem byteAt_within (h : i < b.length) : Within (byteAt b i) := by
  rw [byteAt, List.getElem?_eq_getElem h]
  exact ⟨_, rfl⟩

theorem matchesFrom_within {text : Bytes} (h : i + text.length ≤ b.length) :
    Within (matchesFrom b i text) := by
  induction text generalizing i with
  | nil => exact within_pure true
  | cons x rest ih =>
    rw [List.length_cons] at h
    refine (byteAt_within (by omega)).bind fun _ _ => .ite (fun _ => ?_) fun _ => within_pure false
    exact ih (by omega)

theorem ascii_within (b : Bytes) (i : ℕ) (text : String) : Within (ascii b i text) :=
  .ite (fun _ => within_pure false) fun h => matchesFrom_within (Nat.le_of_not_lt h)

theorem u16be_within (h : i + 1 < b.length) : Within (u16be b i) :=
  (byteAt_within (by omega)).bind fun _ _ =>
    (byteAt_within (by omega)).bind fun _ _ => within_pure _

theorem u16le_within (h : i + 1 < b.length) : Within (u16le b i) :=
  (byteAt_within (by omega)).bind fun _ _ =>
    (byteAt_within (by omega)).bind fun _ _ => within_pure _

theorem u24le_within (h : i + 2 < b.length) : Within (u24le b i) :=
  (byteAt_within (by omega)).bind fun _ _ => (byteAt_within (by omega)).bind fun _ _ =>
    (byteAt_within (by omega)).bind fun _ _ => within_pure _

theorem u32be_within (h : i + 3 < b.length) : Within (u32be b i) :=
  (byteAt_within (by omega)).bind fun _ _ => (byteAt_within (by omega)).bind fun _ _ =>
    (byteAt_within (by omega)).bind fun _ _ =>
      (byteAt_within (by omega)).bind fun _ _ => within_pure _

theorem sniffImageFormat_within (b : Bytes) : Within (sniffImageFormat b) := by
  have hjpeg : Within (pure (decide (3 ≤ b.length)) <&&> matchesFrom b 0 [0xFF, 0xD8, 0xFF]) := by
    refine (within_pure _).and fun h => matchesFrom_within ?_
    have hlen := of_decide_eq_true (Except.ok.inj h)
    simp only [List.length_cons, List.length_nil]
    omega
  have hpng : Within (pure (decide (8 ≤ b.length)) <&&> matchesFrom b 0 [0x89] <&&> ascii b 1 "PNG"
      <&&> matchesFrom b 4 [0x0D, 0x0A, 0x1A, 0x0A]) := by
    refine (within_pure _).and fun h => ?_
    have hlen := of_decide_eq_true (Except.ok.inj h)
    refine (matchesFrom_within ?_).and fun _ => (ascii_within b 1 _).and fun _ =>
      matchesFrom_within ?_
    · simp only [List.length_cons, List.length_nil]
      omega
    · simp only [List.length_cons, List.length_nil]
      omega
  refine hjpeg.bind fun _ _ => .ite (fun _ => within_pure _) fun _ => ?_
  refine hpng.bind fun _ _ => .ite (fun _ => within_pure _) fun _ => ?_
  refine ((ascii_within b 0 _).and fun _ => ascii_within b 8 _).bind fun _ _ => ?_
  exact .ite (fun _ => within_pure _) fun _ => within_pure _

theorem skipFill_within (b : Bytes) (i : ℕ) : Within (skipFill b i) := by
  induction h : b.length - i using Nat.strongRecOn generalizing i with
  | ind n ih =>
    rw [skipFill]
    refine .ite (fun hlt => ?_) fun _ => within_pure _
    refine (byteAt_within hlt).bind fun _ _ => .ite (fun _ => ?_) fun _ => within_pure _
    exact (ih (b.length - (i + 1)) (by omega) (i + 1) rfl).bind fun _ _ => within_pure _

theorem jpegFrom_within (b : Bytes) (i : ℕ) : Within (jpegFrom b i) := by
  induction h : b.length - i using Nat.strongRecOn generalizing i with
  | ind n ih =>
    rw [jpegFrom]
    refine .ite (fun hlt => ?_) fun _ => within_pure _
    refine (byteAt_within hlt).bind fun _ _ => .ite (fun _ => within_pure _) fun _ => ?_
    refine (skipFill_within b i).bind fun j _ => .ite (fun _ => within_pure _) fun hj => ?_
    have hij := j.property
    refine (byteAt_within (by omega)).bind fun marker _ => .ite (fun _ => ?_) fun _ => ?_
    · exact ih _ (by omega) _ rfl
    refine .ite (fun _ => within_pure _) fun _ => .ite (fun _ => within_pure _) fun hroom => ?_
    refine (u16be_within (by omega)).bind fun length _ => .ite (fun _ => within_pure _) fun _ => ?_
    refine .ite (fun _ => .ite (fun _ => within_pure _) fun hsize => ?_) fun _ => ?_
    · simp only [Bool.or_eq_true, decide_eq_true_eq] at hsize
      exact (u16be_within (by omega)).bind fun _ _ =>
        (u16be_within (by omega)).bind fun _ _ => within_pure _
    · exact ih _ (by omega) _ rfl

theorem pngSize_within (b : Bytes) : Within (pngSize b) := by
  refine .ite (fun _ => within_pure _) fun hlen => ?_
  refine (ascii_within b 12 _).bind fun _ _ => .ite (fun _ => within_pure _) fun _ => ?_
  exact (u32be_within (by omega)).bind fun _ _ =>
    (u32be_within (by omega)).bind fun _ _ => within_pure _

theorem webpSize_within (b : Bytes) : Within (webpSize b) := by
  refine .ite (fun _ => within_pure _) fun hlen => ?_
  refine (ascii_within b 12 _).bind fun _ _ => .ite (fun _ => ?_) fun _ => ?_
  · have hcode : Within (matchesFrom b 23 [0x9D, 0x01, 0x2A]) := by
      apply matchesFrom_within
      simp only [List.length_cons, List.length_nil]
      omega
    refine hcode.bind fun _ _ => .ite (fun _ => within_pure _) fun _ => ?_
    exact (u16le_within (by omega)).bind fun _ _ =>
      (u16le_within (by omega)).bind fun _ _ => within_pure _
  refine (ascii_within b 12 _).bind fun _ _ => .ite (fun _ => ?_) fun _ => ?_
  · refine (byteAt_within (by omega)).bind fun _ _ => .ite (fun _ => within_pure _) fun _ => ?_
    exact (byteAt_within (by omega)).bind fun _ _ => (byteAt_within (by omega)).bind fun _ _ =>
      (byteAt_within (by omega)).bind fun _ _ =>
        (byteAt_within (by omega)).bind fun _ _ => within_pure _
  refine (ascii_within b 12 _).bind fun _ _ => .ite (fun _ => ?_) fun _ => within_pure _
  exact (u24le_within (by omega)).bind fun _ _ =>
    (u24le_within (by omega)).bind fun _ _ => within_pure _

theorem sizeAs_within (b : Bytes) (format : ImageFormat) : Within (sizeAs b format) := by
  cases format with
  | jpeg => exact jpegFrom_within b 2
  | png => exact pngSize_within b
  | webp => exact webpSize_within b

theorem readImageHeader_within (b : Bytes) : Within (readImageHeader b) := by
  refine (sniffImageFormat_within b).bind fun format _ => ?_
  cases format with
  | none => exact within_pure none
  | some format =>
    refine (sizeAs_within b format).bind fun size _ => ?_
    cases size with
    | none => exact within_pure none
    | some size => exact .ite (fun _ => within_pure _) fun _ => within_pure _

theorem checkImageHeader_within (b : Bytes) : Within (checkImageHeader b) := by
  refine (sniffImageFormat_within b).bind fun format _ => .ite (fun _ => within_pure _) fun _ => ?_
  refine (readImageHeader_within b).bind fun header _ => ?_
  cases header with
  | none => exact within_pure _
  | some header => exact .ite (fun _ => within_pure _) fun _ => within_pure _

end

/-! ## Reads at a known place -/

section
variable {b t : Bytes} {i : ℕ}

variable {x : UInt8}

theorem byteAt_of_drop (h : b.drop i = x :: t) : byteAt b i = .ok x := by
  have hx : b[i]? = some x := by
    rw [← Nat.add_zero i, ← List.getElem?_drop, h]
    rfl
  rw [byteAt, hx]

variable {w : Bytes}

theorem drop_past (h : b.drop i = w ++ t) : b.drop (i + w.length) = t := by
  rw [← List.drop_drop, h, List.drop_left]

theorem drop_next (h : b.drop i = x :: t) : b.drop (i + 1) = t :=
  drop_past (w := [x]) h

theorem length_of_drop (h : b.drop i = x :: t) : b.length = i + 1 + t.length := by
  have hlen := congrArg List.length h
  rw [List.length_drop, List.length_cons] at hlen
  omega

theorem matchesFrom_of_drop {text : Bytes} (h : b.drop i = w ++ t)
    (hlen : w.length = text.length) : matchesFrom b i text = .ok (decide (w = text)) := by
  induction text generalizing i w with
  | nil =>
    rw [List.length_eq_zero_iff.1 hlen]
    rfl
  | cons y text ih =>
    cases w with
    | nil => cases hlen
    | cons x w =>
      have hnext := ih (drop_next h) (Nat.succ.inj hlen)
      rw [matchesFrom, byteAt_of_drop h, ok_bind, hnext]
      by_cases hxy : x = y
      · rw [if_pos hxy, hxy]
        simp only [List.cons.injEq, true_and]
      · rw [if_neg hxy, decide_eq_false fun heq => hxy (List.cons.inj heq).1]
        rfl

theorem ascii_of_drop {text : String} (h : b.drop i = x :: w ++ t)
    (hlen : (x :: w).length = (codes text).length) :
    ascii b i text = .ok (decide (x :: w = codes text)) := by
  have hroom : b.length = i + 1 + (w ++ t).length := length_of_drop h
  rw [List.length_append] at hroom
  rw [List.length_cons] at hlen
  rw [ascii, if_neg (by omega), matchesFrom_of_drop h hlen]

variable {n : ℕ}

theorem u16be_of_drop (h : b.drop i = toBigEndian 2 n ++ t) (hn : n < 65536) :
    u16be b i = .ok n := by
  have hx : b.drop i = UInt8.ofNat (n / 256) :: UInt8.ofNat n :: t := h
  have hvalue : bigEndian [UInt8.ofNat (n / 256), UInt8.ofNat n] = n :=
    bigEndian_toBigEndian (w := 2) hn
  have hnat := (toNat_big₂ (UInt8.ofNat (n / 256)) (UInt8.ofNat n)).trans hvalue
  rw [u16be, byteAt_of_drop hx, ok_bind, byteAt_of_drop (drop_next hx), ok_bind,
    toInt_of_lt (by omega), hnat]
  rfl

theorem u16le_of_drop (h : b.drop i = toLittleEndian 2 n ++ t) (hn : n < 65536) :
    ∃ v, u16le b i = .ok v ∧ v.toNat = n := by
  have hx : b.drop i = UInt8.ofNat n :: UInt8.ofNat (n / 256) :: t := h
  have hvalue : littleEndian [UInt8.ofNat n, UInt8.ofNat (n / 256)] = n :=
    littleEndian_toLittleEndian (w := 2) hn
  refine ⟨_, ?_, (toNat_little₂ _ _).trans hvalue⟩
  rw [u16le, byteAt_of_drop hx, ok_bind, byteAt_of_drop (drop_next hx), ok_bind]
  rfl

theorem u24le_of_drop (h : b.drop i = toLittleEndian 3 n ++ t) (hn : n < 16777216) :
    u24le b i = .ok n := by
  have hx : b.drop i = UInt8.ofNat n :: UInt8.ofNat (n / 256) :: UInt8.ofNat (n / 256 / 256) :: t := h
  have hvalue : littleEndian [UInt8.ofNat n, UInt8.ofNat (n / 256), UInt8.ofNat (n / 256 / 256)] = n :=
    littleEndian_toLittleEndian (w := 3) hn
  have hnat := (toNat_little₃ _ _ _).trans hvalue
  rw [u24le, byteAt_of_drop hx, ok_bind, byteAt_of_drop (drop_next hx), ok_bind,
    byteAt_of_drop (drop_next (drop_next hx)), ok_bind, toInt_of_lt (by omega), hnat]
  rfl

theorem u32be_of_drop (h : b.drop i = toBigEndian 4 n ++ t) (hn : n < 4294967296) :
    u32be b i = .ok n := by
  have hx : b.drop i = UInt8.ofNat (n / 256 / 256 / 256) :: UInt8.ofNat (n / 256 / 256)
      :: UInt8.ofNat (n / 256) :: UInt8.ofNat n :: t := h
  have htop := toNat_word_shift (UInt8.ofNat (n / 256 / 256 / 256)) (k := 24) (by decide)
  have htop' : (UInt8.ofNat (n / 256 / 256 / 256)).toNat = n / 256 / 256 / 256 :=
    UInt8.toNat_ofNat_of_lt' (by show _ < 256; omega)
  have hvalue : bigEndian [UInt8.ofNat (n / 256 / 256), UInt8.ofNat (n / 256), UInt8.ofNat n]
      = n % 16777216 := by
    have hmod : n % 16777216 / 256 / 256 % 256 = n / 256 / 256 % 256 := by omega
    have hmod' : n % 16777216 / 256 % 256 = n / 256 % 256 := by omega
    have hmod'' : n % 16777216 % 256 = n % 256 := by omega
    simp only [bigEndian, List.foldl_cons, List.foldl_nil, UInt8.toNat_ofNat']
    omega
  have hnat := (toNat_big₃ _ _ _).trans hvalue
  rw [u32be, byteAt_of_drop hx, ok_bind, byteAt_of_drop (drop_next hx), ok_bind,
    byteAt_of_drop (drop_next (drop_next hx)), ok_bind,
    byteAt_of_drop (drop_next (drop_next (drop_next hx))), ok_bind, toInt_of_lt (by omega), hnat,
    htop, htop']
  refine congrArg Except.ok ?_
  omega

end

/-! ## JPEG -/

/-- TEM and RST0 to RST7. -/
def standaloneMarkers : List UInt8 := [0x01, 0xD0, 0xD1, 0xD2, 0xD3, 0xD4, 0xD5, 0xD6, 0xD7]

/-- SOF0 to SOF15, but for DHT, JPG and DAC among them. -/
def frameMarkers : List UInt8 :=
  [0xC0, 0xC1, 0xC2, 0xC3, 0xC5, 0xC6, 0xC7, 0xC9, 0xCA, 0xCB, 0xCD, 0xCE, 0xCF]

/-- SOS and EOI. -/
def closingMarkers : List UInt8 := [0xDA, 0xD9]

/-- A marker, after `fill` fill bytes. -/
def mark (fill : ℕ) (marker : UInt8) : Bytes := List.replicate (fill + 1) 0xFF ++ [marker]

/-- What may stand before the frame header. -/
inductive Segment where
  | standalone (fill : ℕ) (marker : UInt8) (h : marker ∈ standaloneMarkers)
  /-- The length counts its own two bytes. -/
  | sized (fill : ℕ) (marker : UInt8) (payload : Bytes)
    (h : marker ∉ 0xFF :: standaloneMarkers ++ frameMarkers ++ closingMarkers)
    (hsize : payload.length + 2 < 65536)

def Segment.bytes : Segment → Bytes
  | .standalone fill marker _ => mark fill marker
  | .sized fill marker payload _ _ =>
    mark fill marker ++ (toBigEndian 2 (payload.length + 2) ++ payload)

/-- A frame header up to its size: what follows describes the components. -/
structure FrameHeader where
  fill : ℕ
  marker : UInt8
  length : ℕ
  precision : UInt8
  height : ℕ
  width : ℕ
  hmarker : marker ∈ frameMarkers
  hshort : 7 ≤ length
  hlength : length < 65536
  hheight : height < 65536
  hwidth : width < 65536

def FrameHeader.bytes (f : FrameHeader) : Bytes :=
  mark f.fill f.marker
    ++ (toBigEndian 2 f.length ++ (f.precision :: toBigEndian 2 f.height ++ toBigEndian 2 f.width))

/-- SOI, and what comes after it. -/
def jpegStream (segments : List Segment) (tail : Bytes) : Bytes :=
  [0xFF, 0xD8] ++ (segments.flatMap Segment.bytes ++ tail)

/-- No frame header comes: scan data, the end of the image, or the end of the bytes. -/
inductive Ends : Bytes → Prop where
  | closing (fill : ℕ) {marker : UInt8} (h : marker ∈ closingMarkers) (rest : Bytes) :
    Ends (mark fill marker ++ rest)
  | inSegment {s : Segment} {t : Bytes} (h : t <+: s.bytes) (hne : t ≠ s.bytes) : Ends t
  | inFrame {f : FrameHeader} {t : Bytes} (h : t <+: f.bytes) (hne : t ≠ f.bytes) : Ends t

variable {m : UInt8}

theorem isStandalone_iff : isStandalone m = true ↔ m ∈ standaloneMarkers := by
  simp only [isStandalone, standaloneMarkers, Bool.or_eq_true, Bool.and_eq_true, decide_eq_true_eq,
    List.mem_cons, List.not_mem_nil, or_false, UInt8.le_iff_toNat_le, ← UInt8.toNat_inj,
    UInt8.reduceToNat]
  omega

theorem isSofMarker_iff : isSofMarker m = true ↔ m ∈ frameMarkers := by
  simp only [isSofMarker, frameMarkers, Bool.and_eq_true, decide_eq_true_eq, List.mem_cons,
    List.not_mem_nil, or_false, UInt8.le_iff_toNat_le, ne_eq, ← UInt8.toNat_inj,
    UInt8.reduceToNat]
  omega

theorem isStandalone_of_not_mem (h : m ∉ standaloneMarkers) : isStandalone m = false :=
  Bool.eq_false_iff.2 (mt isStandalone_iff.1 h)

section
variable {b t : Bytes} {i fill : ℕ} {marker : UInt8}

variable {n : ℕ}

theorem skipFill_of_drop (h : b.drop i = List.replicate n 0xFF ++ t)
    (ht : ∀ x ∈ t.head?, x ≠ 0xFF) : ∃ j, skipFill b i = .ok j ∧ j.val = i + n := by
  induction n generalizing i with
  | zero =>
    rw [List.replicate_zero, List.nil_append] at h
    rw [skipFill]
    cases t with
    | nil =>
      rw [if_neg (Nat.not_lt.2 (List.drop_eq_nil_iff.1 h))]
      exact ⟨_, rfl, rfl⟩
    | cons x t =>
      have hlen := length_of_drop h
      rw [if_pos (by omega), byteAt_of_drop h, ok_bind, if_neg (ht x rfl)]
      exact ⟨_, rfl, rfl⟩
  | succ n ih =>
    rw [List.replicate_succ, List.cons_append] at h
    have hlen := length_of_drop h
    obtain ⟨j, hj, hval⟩ := ih (drop_next h)
    refine ⟨⟨j.val, by omega⟩, ?_, ?_⟩
    · rw [skipFill, if_pos (by omega), byteAt_of_drop h, ok_bind, if_pos rfl, hj]
      rfl
    · show j.val = i + (n + 1)
      omega

theorem mark_append (fill : ℕ) (marker : UInt8) (t : Bytes) :
    mark fill marker ++ t = List.replicate (fill + 1) 0xFF ++ (marker :: t) := by
  rw [mark, List.append_assoc]
  rfl

theorem drop_mark (h : b.drop i = mark fill marker ++ t) : b.drop (i + fill + 1) = marker :: t := by
  rw [mark_append] at h
  have hpast := drop_past h
  rw [List.length_replicate, ← Nat.add_assoc] at hpast
  exact hpast

theorem jpegFrom_fill (h : b.drop i = List.replicate n 0xFF) : jpegFrom b i = .ok none := by
  cases n with
  | zero =>
    rw [jpegFrom, if_neg (Nat.not_lt.2 (List.drop_eq_nil_iff.1 h))]
    rfl
  | succ n =>
    have hlen : b.length = i + 1 + n := by
      have hlen := length_of_drop (t := List.replicate n 0xFF) h
      rwa [List.length_replicate] at hlen
    obtain ⟨j, hj, hval⟩ := skipFill_of_drop (t := []) (h.trans (List.append_nil _).symm)
      (by rintro x ⟨⟩)
    have hfirst : byteAt b i = .ok 0xFF := byteAt_of_drop (t := List.replicate n 0xFF) h
    rw [jpegFrom, if_pos (by omega), hfirst, ok_bind, if_neg (not_not_intro rfl), hj, ok_bind,
      if_pos (by omega)]
    rfl

theorem jpegFrom_mark (h : b.drop i = mark fill marker ++ t) (hm : marker ≠ 0xFF) :
    jpegFrom b i =
      if isStandalone marker then jpegFrom b (i + fill + 1 + 1)
      else if marker = 0xDA || marker = 0xD9 then pure none
      else if i + fill + 1 + 1 + 2 > b.length then pure none
      else (do
        let length ← u16be b (i + fill + 1 + 1)
        if length < 2 then return none
        if isSofMarker marker then
          if i + fill + 1 + 1 + 7 > b.length || length < 7 then return none
          let height ← u16be b (i + fill + 1 + 1 + 3)
          let width ← u16be b (i + fill + 1 + 1 + 5)
          return some ⟨width, height⟩
        jpegFrom b (i + fill + 1 + 1 + length.toNat)) := by
  have hmark := drop_mark h
  have hlen := length_of_drop hmark
  have hfill : b.drop i = List.replicate (fill + 1) 0xFF ++ (marker :: t) :=
    h.trans (mark_append fill marker t)
  have hcons : b.drop i = 0xFF :: (List.replicate fill 0xFF ++ (marker :: t)) := by
    rw [hfill, List.replicate_succ, List.cons_append]
  have hfirst := byteAt_of_drop hcons
  obtain ⟨j, hj, hval⟩ := skipFill_of_drop hfill (by rintro x ⟨⟩; exact hm)
  rw [← Nat.add_assoc] at hval
  rw [jpegFrom, if_pos (by omega), hfirst, ok_bind, if_neg (not_not_intro rfl), hj, ok_bind,
    if_neg (by omega), hval, byteAt_of_drop hmark, ok_bind]

/-! ### Up to the frame header -/

theorem length_mark (fill : ℕ) (marker : UInt8) : (mark fill marker).length = fill + 2 := by
  rw [mark, List.length_append, List.length_replicate, List.length_singleton]

theorem sized_marker (h : marker ∉ 0xFF :: standaloneMarkers ++ frameMarkers ++ closingMarkers) :
    marker ≠ 0xFF ∧ isStandalone marker = false ∧ (marker = 0xDA || marker = 0xD9) = false
      ∧ isSofMarker marker = false := by
  simp only [List.cons_append, List.mem_cons, List.mem_append, closingMarkers, List.not_mem_nil,
    or_false, not_or] at h
  obtain ⟨hne, ⟨hstandalone, hframe⟩, hscan, hend⟩ := h
  refine ⟨hne, isStandalone_of_not_mem hstandalone, ?_, Bool.eq_false_iff.2 (mt isSofMarker_iff.1 hframe)⟩
  simp only [hscan, hend, decide_false, Bool.or_self]

theorem frame_marker (h : marker ∈ frameMarkers) :
    marker ≠ 0xFF ∧ isStandalone marker = false ∧ (marker = 0xDA || marker = 0xD9) = false
      ∧ isSofMarker marker = true := by
  refine ⟨?_, ?_, ?_, isSofMarker_iff.2 h⟩
  · rintro rfl
    exact absurd h (by decide)
  · simp only [frameMarkers, List.mem_cons, List.not_mem_nil, or_false] at h
    rcases h with rfl | rfl | rfl | rfl | rfl | rfl | rfl | rfl | rfl | rfl | rfl | rfl | rfl <;> rfl
  · simp only [frameMarkers, List.mem_cons, List.not_mem_nil, or_false] at h
    rcases h with rfl | rfl | rfl | rfl | rfl | rfl | rfl | rfl | rfl | rfl | rfl | rfl | rfl <;> rfl

theorem jpegFrom_short (h : b.drop i = mark fill marker ++ t) (hm : marker ≠ 0xFF)
    (hstandalone : isStandalone marker = false) (ht : t.length < 2) : jpegFrom b i = .ok none := by
  have hlen := length_of_drop (drop_mark h)
  rw [jpegFrom_mark h hm, hstandalone, if_neg Bool.false_ne_true]
  split
  · rfl
  · rw [if_pos (by omega)]
    rfl

theorem jpegFrom_sized (h : b.drop i = mark fill marker ++ (toBigEndian 2 n ++ t))
    (hmarker : marker ∉ 0xFF :: standaloneMarkers ++ frameMarkers ++ closingMarkers) (hn : 2 ≤ n)
    (hsize : n < 65536) : jpegFrom b i = jpegFrom b (i + fill + 2 + n) := by
  obtain ⟨hne, hstandalone, hclosing, hframe⟩ := sized_marker hmarker
  have hmark := drop_mark h
  have hlen := length_of_drop hmark
  rw [List.length_append, length_toBigEndian] at hlen
  have hlength : u16be b (i + fill + 1 + 1) = .ok n := u16be_of_drop (drop_next hmark) hsize
  rw [jpegFrom_mark h hne, hstandalone, if_neg Bool.false_ne_true, hclosing,
    if_neg Bool.false_ne_true, if_neg (by omega), hlength, ok_bind, if_neg (by omega), hframe,
    if_neg Bool.false_ne_true, Int.toNat_natCast]

theorem jpegFrom_segment (s : Segment) (h : b.drop i = s.bytes ++ t) :
    jpegFrom b i = jpegFrom b (i + s.bytes.length) := by
  cases s with
  | standalone fill marker hmarker =>
    have hm : marker ≠ 0xFF := by
      rintro rfl
      exact absurd hmarker (by decide)
    have hlen : (Segment.standalone fill marker hmarker).bytes.length = fill + 2 :=
      length_mark fill marker
    rw [jpegFrom_mark h hm, if_pos (isStandalone_iff.2 hmarker), hlen]
    exact congrArg (jpegFrom b) (by omega)
  | sized fill marker payload hmarker hsize =>
    have hlen : (Segment.sized fill marker payload hmarker hsize).bytes.length
        = fill + 2 + (payload.length + 2) := by
      rw [Segment.bytes, List.length_append, List.length_append, length_mark, length_toBigEndian]
      omega
    rw [Segment.bytes, List.append_assoc, List.append_assoc] at h
    rw [jpegFrom_sized h hmarker (by omega) hsize, hlen]
    exact congrArg (jpegFrom b) (by omega)

theorem jpegFrom_segments {segments : List Segment} (h : b.drop i = segments.flatMap Segment.bytes ++ t) :
    jpegFrom b i = jpegFrom b (i + (segments.flatMap Segment.bytes).length) := by
  induction segments generalizing i with
  | nil => rfl
  | cons s rest ih =>
    rw [List.flatMap_cons, List.append_assoc] at h
    rw [jpegFrom_segment s h, ih (drop_past h), List.flatMap_cons, List.length_append, Nat.add_assoc]

theorem jpegFrom_frame (f : FrameHeader) (h : b.drop i = f.bytes ++ t) :
    jpegFrom b i = .ok (some ⟨f.width, f.height⟩) := by
  obtain ⟨hne, hstandalone, hclosing, hframe⟩ := frame_marker f.hmarker
  have hshort := f.hshort
  rw [FrameHeader.bytes, List.append_assoc, List.append_assoc] at h
  have hmark := drop_mark h
  have hlen := length_of_drop hmark
  simp only [List.length_append, List.length_cons, length_toBigEndian] at hlen
  have hbody := drop_next hmark
  have hlength : u16be b (i + f.fill + 1 + 1) = .ok f.length := u16be_of_drop hbody f.hlength
  have hprecision := drop_past hbody
  rw [length_toBigEndian, List.append_assoc, List.cons_append] at hprecision
  have hheight := drop_next hprecision
  have hwidth := drop_past hheight
  rw [length_toBigEndian] at hwidth
  rw [jpegFrom_mark h hne, hstandalone, if_neg Bool.false_ne_true, hclosing,
    if_neg Bool.false_ne_true, if_neg (by omega), hlength, ok_bind, if_neg (by omega), hframe,
    if_pos rfl]
  have hroom : (decide (i + f.fill + 1 + 1 + 7 > b.length) || decide ((f.length : ℤ) < 7)) = false := by
    simp only [Bool.or_eq_false_iff, decide_eq_false_iff_not]
    omega
  rw [hroom, if_neg Bool.false_ne_true, u16be_of_drop hheight f.hheight, ok_bind,
    u16be_of_drop hwidth f.hwidth, ok_bind]
  rfl

/-! ### No frame header -/

theorem prefix_append_cases {α : Type} {t xs ys : List α} (h : t <+: xs ++ ys) :
    t <+: xs ∨ ∃ r, r <+: ys ∧ t = xs ++ r := by
  rcases List.prefix_or_prefix_of_prefix h (List.prefix_append xs ys) with ht | ⟨r, rfl⟩
  · exact .inl ht
  · exact .inr ⟨r, (List.prefix_append_right_inj xs).1 h, rfl⟩

theorem prefix_replicate {α : Type} {t : List α} {x : α} (h : t <+: List.replicate n x) :
    t = List.replicate t.length x :=
  List.eq_replicate_of_mem fun _ hy => List.eq_of_mem_replicate (h.subset hy)

theorem prefix_mark {body : Bytes} (h : t <+: mark fill marker ++ body) :
    t = List.replicate t.length 0xFF ∨ ∃ r, r <+: body ∧ t = mark fill marker ++ r := by
  rcases prefix_append_cases h with h | ⟨r, hr, rfl⟩
  · rcases prefix_append_cases h with h | ⟨r, hr, rfl⟩
    · exact .inl (prefix_replicate h)
    · cases r with
      | nil =>
        left
        rw [List.append_nil, List.length_replicate]
      | cons x r =>
        obtain ⟨rfl, hnil⟩ := List.cons_prefix_cons.1 hr
        obtain rfl := List.prefix_nil.1 hnil
        exact .inr ⟨[], List.nil_prefix, (List.append_nil _).symm⟩
  · exact .inr ⟨r, hr, rfl⟩

theorem jpegFrom_past (h : b.length ≤ i) : jpegFrom b i = .ok none := by
  rw [jpegFrom, if_neg (Nat.not_lt.2 h)]
  rfl

theorem jpegFrom_inSegment (s : Segment) (ht : t <+: s.bytes) (hne : t ≠ s.bytes)
    (h : b.drop i = t) : jpegFrom b i = .ok none := by
  cases s with
  | standalone fill marker hmarker =>
    have ht' : t <+: mark fill marker ++ [] := by rwa [List.append_nil]
    rcases prefix_mark ht' with hfill | ⟨r, hr, rfl⟩
    · exact jpegFrom_fill (h.trans hfill)
    · obtain rfl := List.prefix_nil.1 hr
      exact absurd (List.append_nil _) hne
  | sized fill marker payload hmarker hsize =>
    obtain ⟨hff, hstandalone, -, -⟩ := sized_marker hmarker
    rcases prefix_mark ht with hfill | ⟨r, hr, rfl⟩
    · exact jpegFrom_fill (h.trans hfill)
    by_cases hshort : r.length < 2
    · exact jpegFrom_short h hff hstandalone hshort
    rcases prefix_append_cases hr with hcut | ⟨rest, hrest, rfl⟩
    · have hlen := hcut.length_le
      rw [length_toBigEndian] at hlen
      have hr : r = toBigEndian 2 (payload.length + 2) := hcut.eq_of_length (by
        rw [length_toBigEndian]
        omega)
      have hpayload : payload ≠ [] := by
        rintro rfl
        exact hne (by rw [hr, Segment.bytes, List.append_nil])
      have hpos := List.length_pos_iff.2 hpayload
      rw [hr, ← List.append_nil (toBigEndian 2 _)] at h
      have hend := length_of_drop (drop_mark h)
      rw [List.append_nil, length_toBigEndian] at hend
      rw [jpegFrom_sized h hmarker (by omega) hsize]
      exact jpegFrom_past (by omega)
    · have hlt : rest.length < payload.length := by
        refine Nat.lt_of_le_of_ne hrest.length_le fun heq => hne ?_
        rw [hrest.eq_of_length heq, Segment.bytes]
      have hend := length_of_drop (drop_mark h)
      rw [List.length_append, length_toBigEndian] at hend
      rw [jpegFrom_sized h hmarker (by omega) hsize]
      exact jpegFrom_past (by omega)

theorem jpegFrom_inFrame (f : FrameHeader) (ht : t <+: f.bytes) (hne : t ≠ f.bytes)
    (h : b.drop i = t) : jpegFrom b i = .ok none := by
  obtain ⟨hff, hstandalone, hclosing, hframe⟩ := frame_marker f.hmarker
  have hshort := f.hshort
  rcases prefix_mark ht with hfill | ⟨r, hr, rfl⟩
  · exact jpegFrom_fill (h.trans hfill)
  by_cases htwo : r.length < 2
  · exact jpegFrom_short h hff hstandalone htwo
  have hseven : r.length < 7 := by
    have hle := hr.length_le
    have hbody : (toBigEndian 2 f.length ++ (f.precision :: toBigEndian 2 f.height
        ++ toBigEndian 2 f.width)).length = 7 := by
      simp only [List.length_append, List.length_cons, length_toBigEndian]
    rw [hbody] at hle
    refine Nat.lt_of_le_of_ne hle fun heq => hne ?_
    rw [hr.eq_of_length (heq.trans hbody.symm), FrameHeader.bytes]
  have hmark := drop_mark h
  have hlen := length_of_drop hmark
  obtain ⟨rest, rfl⟩ : ∃ rest, r = toBigEndian 2 f.length ++ rest := by
    rcases prefix_append_cases hr with hcut | ⟨rest, -, hrest⟩
    · have hle := hcut.length_le
      rw [length_toBigEndian] at hle
      refine ⟨[], ?_⟩
      rw [List.append_nil]
      exact hcut.eq_of_length (by rw [length_toBigEndian]; omega)
    · exact ⟨rest, hrest⟩
  have hlength : u16be b (i + f.fill + 1 + 1) = .ok f.length :=
    u16be_of_drop (drop_next hmark) f.hlength
  have hroom : (decide (i + f.fill + 1 + 1 + 7 > b.length) || decide ((f.length : ℤ) < 7)) = true := by
    simp only [Bool.or_eq_true, decide_eq_true_eq]
    omega
  rw [jpegFrom_mark h hff, hstandalone, if_neg Bool.false_ne_true, hclosing,
    if_neg Bool.false_ne_true, if_neg (by omega), hlength, ok_bind, if_neg (by omega), hframe,
    if_pos rfl, hroom, if_pos rfl]
  rfl

theorem jpegFrom_ends (ht : Ends t) (h : b.drop i = t) : jpegFrom b i = .ok none := by
  cases ht with
  | closing fill hmarker rest =>
    rename_i marker
    have hm : marker ≠ 0xFF ∧ isStandalone marker = false
        ∧ (marker = 0xDA || marker = 0xD9) = true := by
      simp only [closingMarkers, List.mem_cons, List.not_mem_nil, or_false] at hmarker
      rcases hmarker with rfl | rfl <;> decide
    rw [jpegFrom_mark h hm.1, hm.2.1, if_neg Bool.false_ne_true, hm.2.2, if_pos rfl]
    rfl
  | inSegment ht hne => exact jpegFrom_inSegment _ ht hne h
  | inFrame ht hne => exact jpegFrom_inFrame _ ht hne h

end

end SignetApp.Pictures
