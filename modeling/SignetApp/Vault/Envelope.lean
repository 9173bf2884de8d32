import SignetApp.Js.Utf8
import SignetApp.Sync.TextSize

/-!
# Vault envelopes

`splitVaultPlaintext` cuts a text between code points, `padToBucket` pads a part to a bucket,
`unpad` reads it back, and `sealVaultPayload` makes the content of an event. The decoder drops a
byte order mark, so a part comes back unless it begins with one.
-/

namespace SignetApp.Vault

open SignetApp.Js SignetApp.Sync

/-! ## Padding -/

def buckets : List ℕ := [4096, 8192, 16384, 32768, 65536]

def maxEnvelopeChars : ℕ := 100000

/-- `setUint32(0, n, false)`. -/
def uint32Bytes (n : ℕ) : Bytes :=
  [UInt8.ofNat (n / 16777216), UInt8.ofNat (n / 65536), UInt8.ofNat (n / 256), UInt8.ofNat n]

/-- `getUint32(0, false)`. -/
def getUint32 (bytes : Bytes) : ℕ :=
  (bytes.take 4).foldl (fun n b => n * 256 + b.toNat) 0

def padToBucket (plaintext : JsString) (maxBucket : ℕ) : Option Bytes :=
  let body := encodeUtf8 plaintext
  let needed := lengthPrefixBytes + body.length
  (buckets.find? fun b => needed ≤ b && b ≤ maxBucket).map fun bucket =>
    uint32Bytes body.length ++ body ++ List.replicate (bucket - needed) 0

def unpad (padded : Bytes) : Option JsString :=
  if padded.length < lengthPrefixBytes then none
  else
    let length := getUint32 padded
    if padded.length - lengthPrefixBytes < length then none
    else some (textDecode ((padded.drop lengthPrefixBytes).take length))

/-! ## Splitting -/

/-- The loop of `splitVaultPlaintext`: the closed parts, the code points of the open one, and how
many bytes these take. -/
def splitLoop (maxBytes : ℕ) (parts chars : List JsString) (bytes : ℕ) :
    List JsString → List JsString
  | [] => parts ++ [chars.flatten]
  | char :: rest =>
    let length := (encodeUtf8 char).length
    if maxBytes < bytes + length then
      splitLoop maxBytes (parts ++ [chars.flatten]) [char] length rest
    else splitLoop maxBytes parts (chars ++ [char]) (bytes + length) rest

/-- The parts of a text; nothing where it throws. `maxChunks` is `MAX_VAULT_CHUNKS`. -/
def splitVaultPlaintext (maxChunks : ℕ) (plaintext : JsString) (maxBytes : ℕ) :
    Option (List JsString) :=
  if maxBytes < 4 ∨ 65532 < maxBytes then none
  else if maxBytes * maxChunks < (encodeUtf8 plaintext).length then none
  else
    let parts := splitLoop maxBytes [] [] 0 (codePoints plaintext)
    if maxChunks < parts.length then none else some parts

/-! ## Sealing -/

/-- The base64 digit with this value. -/
def base64Digit (n : ℕ) : CodeUnit :=
  if n < 26 then Fin.ofNat 65536 (65 + n)
  else if n < 52 then Fin.ofNat 65536 (97 + (n - 26))
  else if n < 62 then Fin.ofNat 65536 (48 + (n - 52))
  else if n = 62 then 43 else 47

/-- `btoa`, of bytes. -/
def base64 : Bytes → JsString
  | a :: b :: c :: rest =>
    let n := a.toNat * 65536 + b.toNat * 256 + c.toNat
    base64Digit (n / 262144) :: base64Digit (n / 4096 % 64) :: base64Digit (n / 64 % 64)
      :: base64Digit (n % 64) :: base64 rest
  | [a, b] =>
    let n := a.toNat * 1024 + b.toNat * 4
    [base64Digit (n / 4096), base64Digit (n / 64 % 64), base64Digit (n % 64), 61]
  | [a] => [base64Digit (a.toNat * 16 / 64), base64Digit (a.toNat * 16 % 64), 61, 61]
  | [] => []

/-- A backend and the cryptography around it; nothing where they throw. -/
structure Sealer where
  activePublicKeyHex : JsString
  random : ℕ → Bytes
  /-- AES-256-GCM under a raw key and an IV. -/
  aesGcm : Bytes → Bytes → Bytes → Option Bytes
  nip44Encrypt : JsString → JsString → Option JsString

def ivLength : ℕ := 12

section

variable [Platform]

/-- The sealed content of a part, for the backend's own key. -/
def sealVaultPayload (sealer : Sealer) (plaintext : JsString) (maxBucket : ℕ) :
    Option JsString := do
  guard (isHexOf 64 sealer.activePublicKeyHex)
  let padded ← padToBucket plaintext maxBucket
  let rawKey := sealer.random 32
  guard (rawKey.length = 32)
  let iv := sealer.random ivLength
  guard (iv.length = ivLength)
  let ciphertext ← sealer.aesGcm rawKey iv padded
  let wrapped ← sealer.nip44Encrypt sealer.activePublicKeyHex (base64 rawKey)
  some (jsonText (.obj [("v", .ofNat 2), ("k", .str wrapped), ("iv", .str (base64 iv)),
    ("ct", .str (base64 ciphertext)), ("b", .ofNat padded.length)]))

end

/-! ## What padding makes of a text -/

theorem length_uint32Bytes (n : ℕ) : (uint32Bytes n).length = 4 := rfl

theorem getUint32_append {n : ℕ} (h : n < 4294967296) (rest : Bytes) :
    getUint32 (uint32Bytes n ++ rest) = n := by
  have h256 : ∀ m : ℕ, (UInt8.ofNat m).toNat = m % 256 := fun m => rfl
  show (((0 * 256 + (UInt8.ofNat (n / 16777216)).toNat) * 256
    + (UInt8.ofNat (n / 65536)).toNat) * 256 + (UInt8.ofNat (n / 256)).toNat) * 256
    + (UInt8.ofNat n).toNat = n
  rw [h256, h256, h256, h256]
  omega

theorem le_of_mem_buckets {b : ℕ} (h : b ∈ buckets) : 4096 ≤ b ∧ b ≤ 65536 := by
  simp only [buckets, List.mem_cons, List.not_mem_nil, or_false] at h
  omega

theorem find?_le {p : ℕ → Bool} {as : List ℕ} (hsorted : as.Pairwise (· ≤ ·)) {a : ℕ}
    (hfind : as.find? p = some a) : ∀ b ∈ as, p b = true → a ≤ b := by
  induction as with
  | nil => cases hfind
  | cons c as ih =>
    rw [List.pairwise_cons] at hsorted
    intro b hb hp
    rw [List.find?_cons] at hfind
    split at hfind
    · cases hfind
      rcases List.mem_cons.1 hb with rfl | hb
      · exact le_refl _
      · exact hsorted.1 b hb
    · next hc =>
      rcases List.mem_cons.1 hb with rfl | hb
      · rw [hp] at hc
        cases hc
      · exact ih hsorted.2 hfind b hb hp

variable {padded : Bytes} {limit : ℕ} {plaintext : JsString}

theorem padToBucket_eq_some (h : padToBucket plaintext limit = some padded) :
    padded.length ∈ buckets ∧ padded.length ≤ limit ∧
      (encodeUtf8 plaintext).length + 4 ≤ padded.length ∧
      (∀ b ∈ buckets, b ≤ limit → (encodeUtf8 plaintext).length + 4 ≤ b → padded.length ≤ b) ∧
      ∃ fill, padded = uint32Bytes (encodeUtf8 plaintext).length ++ encodeUtf8 plaintext
        ++ List.replicate fill 0 := by
  unfold padToBucket at h
  dsimp only at h
  rw [Option.map_eq_some_iff] at h
  obtain ⟨bucket, hfind, rfl⟩ := h
  obtain ⟨hmem, hcond⟩ : bucket ∈ buckets ∧ _ := ⟨List.mem_of_find?_eq_some hfind,
    List.find?_some hfind⟩
  rw [Bool.and_eq_true, decide_eq_true_eq, decide_eq_true_eq, lengthPrefixBytes] at hcond
  have hlength : (uint32Bytes (encodeUtf8 plaintext).length ++ encodeUtf8 plaintext
      ++ List.replicate (bucket - (lengthPrefixBytes + (encodeUtf8 plaintext).length)) 0).length
        = bucket := by
    rw [List.length_append, List.length_append, length_uint32Bytes, List.length_replicate,
      lengthPrefixBytes]
    omega
  rw [hlength]
  refine ⟨hmem, hcond.2, by omega, ?_, _, rfl⟩
  intro b hb hlimit hfits
  apply find?_le (by decide) hfind b hb
  rw [Bool.and_eq_true, decide_eq_true_eq, decide_eq_true_eq, lengthPrefixBytes]
  omega

theorem padToBucket_eq_none_iff (hlimit : limit ∈ buckets) :
    padToBucket plaintext limit = none ↔ limit < (encodeUtf8 plaintext).length + 4 := by
  unfold padToBucket
  dsimp only
  rw [Option.map_eq_none_iff, List.find?_eq_none]
  constructor
  · intro h
    have hno := h limit hlimit
    by_contra hle
    apply hno
    rw [Bool.and_eq_true, decide_eq_true_eq, decide_eq_true_eq, lengthPrefixBytes]
    omega
  · intro h b _ hcond
    rw [Bool.and_eq_true, decide_eq_true_eq, decide_eq_true_eq, lengthPrefixBytes] at hcond
    omega

theorem unpad_padded (h : padToBucket plaintext limit = some padded) :
    unpad padded = some (textDecode (encodeUtf8 plaintext)) := by
  obtain ⟨hmem, _, hfits, _, fill, hpadded⟩ := padToBucket_eq_some h
  have hmax := le_of_mem_buckets hmem
  have hlength : getUint32 padded = (encodeUtf8 plaintext).length := by
    rw [hpadded, List.append_assoc]
    exact getUint32_append (by omega) _
  unfold unpad
  rw [if_neg (by rw [lengthPrefixBytes]; omega)]
  show (if padded.length - lengthPrefixBytes < getUint32 padded then none else
    some (textDecode ((padded.drop lengthPrefixBytes).take (getUint32 padded)))) = _
  rw [hlength, if_neg (by rw [lengthPrefixBytes]; omega)]
  have hbody : (padded.drop lengthPrefixBytes).take (encodeUtf8 plaintext).length
      = encodeUtf8 plaintext := by
    rw [hpadded, List.append_assoc, lengthPrefixBytes,
      List.drop_left' (length_uint32Bytes _), List.take_left]
  rw [hbody]

/-! ## What sealing makes of a part -/

theorem length_base64 : ∀ bytes : Bytes, (base64 bytes).length = (bytes.length + 2) / 3 * 4
  | a :: b :: c :: rest => by
    rw [base64]
    show (base64 rest).length + 1 + 1 + 1 + 1 = _
    rw [length_base64 rest]
    simp only [List.length_cons]
    omega
  | [_, _] => by simp [base64]
  | [_] => by simp [base64]
  | [] => rfl

theorem isPlain_base64Digit {n : ℕ} (h : n < 64) : isPlain (base64Digit n) = true := by
  have hall : ∀ n < 64, isPlain (base64Digit n) = true := by decide
  exact hall n h

theorem isPlain_base64 : ∀ bytes : Bytes, ∀ u ∈ base64 bytes, isPlain u = true
  | a :: b :: c :: rest => by
    have ha := a.toNat_lt
    have hb := b.toNat_lt
    have hc := c.toNat_lt
    intro u hu
    rw [base64] at hu
    simp only [List.mem_cons] at hu
    rcases hu with rfl | rfl | rfl | rfl | hu
    · exact isPlain_base64Digit (by omega)
    · exact isPlain_base64Digit (Nat.mod_lt _ (by omega))
    · exact isPlain_base64Digit (Nat.mod_lt _ (by omega))
    · exact isPlain_base64Digit (Nat.mod_lt _ (by omega))
    · exact isPlain_base64 rest u hu
  | [a, b] => by
    have ha := a.toNat_lt
    have hb := b.toNat_lt
    intro u hu
    rw [base64] at hu
    simp only [List.mem_cons, List.not_mem_nil, or_false] at hu
    rcases hu with rfl | rfl | rfl | rfl
    · exact isPlain_base64Digit (by omega)
    · exact isPlain_base64Digit (Nat.mod_lt _ (by omega))
    · exact isPlain_base64Digit (Nat.mod_lt _ (by omega))
    · decide
  | [a] => by
    have ha := a.toNat_lt
    intro u hu
    rw [base64] at hu
    simp only [List.mem_cons, List.not_mem_nil, or_false] at hu
    rcases hu with rfl | rfl | rfl | rfl
    · exact isPlain_base64Digit (by omega)
    · exact isPlain_base64Digit (Nat.mod_lt _ (by omega))
    · decide
    · decide
  | [] => by
    intro u hu
    cases hu

/-- What AES-GCM and NIP-44 make of the sizes: a tag of 16 bytes, and 176 characters of base64 for
the 44 characters of a wrapped key. -/
structure Sealer.Standard (sealer : Sealer) : Prop where
  tag : ∀ key iv plain ct, sealer.aesGcm key iv plain = some ct → ct.length = plain.length + 16
  wrap : ∀ recipient text wrapped, sealer.nip44Encrypt recipient text = some wrapped →
    text.length = 44 → wrapped.length = 176 ∧ ∀ u ∈ wrapped, isPlain u = true

section

variable [Platform]

/-- A sealed content is read again: it stays under the size a reader takes. -/
theorem length_sealed_le (hdecimal : IntegersInDecimal) {sealer : Sealer} (hsealer : sealer.Standard)
    {plaintext content : JsString} {limit : ℕ}
    (h : sealVaultPayload sealer plaintext limit = some content) :
    content.length ≤ maxEnvelopeChars := by
  simp only [sealVaultPayload, Option.bind_eq_bind, Option.bind_eq_some_iff,
    Option.guard_eq_some', Option.some.injEq] at h
  obtain ⟨_, _, padded, hpadded, _, hkey, _, hiv, ciphertext, haes, wrapped, hwrap, rfl⟩ := h
  obtain ⟨hbucket, _⟩ := padToBucket_eq_some hpadded
  have hmax := le_of_mem_buckets hbucket
  have hct := hsealer.tag _ _ _ _ haes
  obtain ⟨hk, hkplain⟩ := hsealer.wrap _ _ _ hwrap (by rw [length_base64, hkey])
  have hstr : ∀ text : JsString, (∀ u ∈ text, isPlain u = true) →
      (jsonText (.str text)).length = text.length + 2 := by
    intro text hplain
    rw [jsonText, stringify]
    exact length_quote_of_isPlain hplain
  have hnat : ∀ n ≤ 65536, (jsonText (.ofNat n)).length ≤ 5 := by
    intro n hn
    rw [jsonText_ofNat hdecimal (by omega)]
    exact length_digitsText_le hn
  have hb := hnat padded.length hmax.2
  have hv := hnat 2 (by omega)
  have hnames : [quote (lit "v"), quote (lit "k"), quote (lit "iv"), quote (lit "ct"),
      quote (lit "b")].map List.length = [3, 3, 4, 4, 3] := by decide
  simp only [List.map_cons, List.map_nil, List.cons.injEq, and_true] at hnames
  obtain ⟨hvname, hkname, hivname, hctname, hbname⟩ := hnames
  have hnil : memberSizes [] = 0 := rfl
  rw [length_jsonText_obj]
  · simp only [memberSizes_cons, length_propertyText]
    rw [hstr _ hkplain, hstr _ (isPlain_base64 _), hstr _ (isPlain_base64 _), length_base64,
      length_base64, hk, hiv, hct, hvname, hkname, hivname, hctname, hbname, hnil, ivLength,
      maxEnvelopeChars]
    omega
  · simp [JsValue.ofNat]
  · show ["v", "k", "iv", "ct", "b"].Nodup
    decide

end

/-! ## What splitting makes of a text -/

theorem length_encodeUtf8_point_le {p : JsString} (h : IsScalarPoint p) :
    1 ≤ (encodeUtf8 p).length ∧ (encodeUtf8 p).length ≤ 4 := by
  have hpoints : codePoints p = [p] := by
    have h1 := @codePoints_flatten [p] fun q hq => List.mem_singleton.1 hq ▸ h
    rwa [List.flatten_cons, List.flatten_nil, List.append_nil] at h1
  rw [encodeUtf8, hpoints, List.flatMap_singleton, utf8Scalar]
  split
  · simp
  split
  · simp
  split <;> simp

theorem length_encodeUtf8_flatten {ps : List JsString} (h : ∀ p ∈ ps, IsScalarPoint p) :
    (encodeUtf8 ps.flatten).length = (ps.map fun p => (encodeUtf8 p).length).sum := by
  have hpoint : ∀ p ∈ ps, (encodeUtf8 p).length = (utf8Scalar (scalarOf p)).length := by
    intro p hp
    have h1 := @codePoints_flatten [p] fun q hq => List.mem_singleton.1 hq ▸ h p hp
    rw [List.flatten_cons, List.flatten_nil, List.append_nil] at h1
    rw [encodeUtf8, h1, List.flatMap_singleton]
  rw [encodeUtf8, codePoints_flatten h, List.length_flatMap, List.map_congr_left hpoint]

/-- How many bytes the open part takes after one more code point. -/
def fillStep (maxBytes bytes : ℕ) (p : JsString) : ℕ :=
  let length := (encodeUtf8 p).length
  if maxBytes < bytes + length then length else bytes + length

/-- How many bytes the open part takes after these code points. -/
def filled (maxBytes : ℕ) (ps : List JsString) : ℕ := ps.foldl (fillStep maxBytes) 0

/-- A code point after these begins a part: none is open, or the open one has no room for it. -/
def Opens (maxBytes : ℕ) (before : List JsString) (p : JsString) : Prop :=
  before = [] ∨ maxBytes < filled maxBytes before + (encodeUtf8 p).length

/-- What the loop adds: parts that hold the code points in order, none too large. A code point
begins a part where the open part has no room for it. -/
theorem splitLoop_spec {maxBytes : ℕ} (hmax : 4 ≤ maxBytes) : ∀ {rest chars parts : List JsString}
    {bytes : ℕ}, (∀ p ∈ rest, IsScalarPoint p) →
    bytes = (chars.map fun p => (encodeUtf8 p).length).sum → bytes ≤ maxBytes →
    ∃ groups : List (List JsString),
      splitLoop maxBytes parts chars bytes rest = parts ++ groups.map List.flatten ∧
      groups.flatten = chars ++ rest ∧
      (∀ g ∈ groups, (g.map fun p => (encodeUtf8 p).length).sum ≤ maxBytes) ∧
      ∀ q, ((∀ g ∈ groups, g.head? ≠ some q) ↔ chars.head? ≠ some q ∧
        ∀ before after, rest = before ++ q :: after → chars ++ before ≠ [] ∧
          before.foldl (fillStep maxBytes) bytes + (encodeUtf8 q).length ≤ maxBytes) := by
  intro rest
  induction rest with
  | nil =>
    intro chars parts bytes _ hbytes hle
    refine ⟨[chars], rfl, by simp, ?_, ?_⟩
    · intro g hg
      rw [List.mem_singleton.1 hg, ← hbytes]
      exact hle
    · intro q
      constructor
      · intro h
        exact ⟨h chars (List.mem_singleton_self _), fun before after heq => by simp at heq⟩
      · intro h g hg
        rw [List.mem_singleton.1 hg]
        exact h.1
  | cons p rest ih =>
    intro chars parts bytes hpoints hbytes hle
    have hp := length_encodeUtf8_point_le (hpoints p List.mem_cons_self)
    have hrest : ∀ q ∈ rest, IsScalarPoint q := fun q hq =>
      hpoints q (List.mem_cons_of_mem p hq)
    rw [splitLoop]
    by_cases hfull : maxBytes < bytes + (encodeUtf8 p).length
    · rw [if_pos hfull]
      obtain ⟨groups, hloop, hflat, hfits, hheads⟩ := @ih [p] (parts ++ [chars.flatten])
        (encodeUtf8 p).length hrest (by simp) (by omega)
      refine ⟨chars :: groups, ?_, ?_, ?_, ?_⟩
      · rw [hloop, List.map_cons, List.append_assoc, List.singleton_append]
      · rw [List.flatten_cons, hflat, List.singleton_append]
      · intro g hg
        rcases List.mem_cons.1 hg with rfl | hg
        · rw [← hbytes]
          exact hle
        · exact hfits g hg
      · intro q
        have hstep : fillStep maxBytes bytes p = (encodeUtf8 p).length := if_pos hfull
        rw [List.forall_mem_cons, hheads q]
        constructor
        · rintro ⟨hchars, hpq, hlater⟩
          refine ⟨hchars, fun before after heq => ?_⟩
          cases before with
          | nil => exact absurd (congrArg List.head? heq) hpq
          | cons b before =>
            obtain ⟨rfl, hrest'⟩ := List.cons.inj heq
            refine ⟨by simp, ?_⟩
            rw [List.foldl_cons, hstep]
            exact (hlater before after hrest').2
        · rintro ⟨hchars, hall⟩
          refine ⟨hchars, fun hpq => ?_, fun before after heq => ⟨by simp, ?_⟩⟩
          · -- The code point that finds no room begins a part.
            have hpq' : p = q := Option.some.inj hpq
            have hroom := (hall [] rest (by rw [hpq']; rfl)).2
            rw [List.foldl_nil, ← hpq'] at hroom
            omega
          · have hroom := (hall (p :: before) after (by rw [heq]; rfl)).2
            rwa [List.foldl_cons, hstep] at hroom
    · rw [if_neg hfull]
      obtain ⟨groups, hloop, hflat, hfits, hheads⟩ := @ih (chars ++ [p]) parts
        (bytes + (encodeUtf8 p).length) hrest (by simp [hbytes]) (by omega)
      refine ⟨groups, hloop, ?_, hfits, ?_⟩
      · rw [hflat, List.append_assoc, List.singleton_append]
      · intro q
        have hstep : fillStep maxBytes bytes p = bytes + (encodeUtf8 p).length := if_neg hfull
        rw [hheads q]
        constructor
        · rintro ⟨hhead, hlater⟩
          refine ⟨fun hq => hhead ?_, fun before after heq => ?_⟩
          · rw [List.head?_append, hq]
            rfl
          · cases before with
            | nil =>
              obtain ⟨rfl, _⟩ := List.cons.inj heq
              refine ⟨fun hnone => hhead ?_, by rw [List.foldl_nil]; omega⟩
              rw [List.append_nil] at hnone
              rw [hnone]
              rfl
            | cons b before =>
              obtain ⟨rfl, hrest'⟩ := List.cons.inj heq
              refine ⟨by simp, ?_⟩
              rw [List.foldl_cons, hstep]
              exact (hlater before after hrest').2
        · rintro ⟨hchars, hall⟩
          refine ⟨fun hq => ?_, fun before after heq => ⟨by simp, ?_⟩⟩
          · cases chars with
            | nil =>
              have hpq : p = q := Option.some.inj hq
              exact (hall [] rest (by rw [hpq]; rfl)).1 rfl
            | cons c chars => exact hchars hq
          · have hroom := (hall (p :: before) after (by rw [heq]; rfl)).2
            rwa [List.foldl_cons, hstep] at hroom

theorem unpad_part {group : List JsString} (hpoints : ∀ p ∈ group, IsScalarPoint p) (h : padToBucket group.flatten limit = some padded) :
    unpad padded = some group.flatten ↔ group.head? ≠ some bom := by
  rw [unpad_padded h, textDecode_encodeUtf8 hpoints, Option.some.injEq]
  by_cases hbom : group.head? = some bom
  · rw [if_pos hbom]
    refine ⟨fun heq => ?_, fun hne => absurd hbom hne⟩
    cases group with
    | nil => cases hbom
    | cons p group =>
      have hp : p = bom := Option.some.inj hbom
      have hlength := congrArg List.length heq
      rw [List.tail_cons, List.flatten_cons, hp, List.length_append] at hlength
      have hone : bom.length = 1 := rfl
      omega
  · rw [if_neg hbom]
    exact ⟨fun _ => hbom, fun _ => rfl⟩

section

variable [Platform]

/-- A text survives splitting, padding and opening just when no U+FEFF begins a part. Whatever the
text, the parts join to it, every part is padded, to the smallest bucket that fits, and every
sealed content is short enough to be read. -/
theorem vault_survives_iff (hdecimal : IntegersInDecimal) {sealer : Sealer}
    (hsealer : sealer.Standard) {text : JsString} (htext : IsWellFormed text) {b : ℕ}
    (hb : b ∈ buckets) {maxChunks : ℕ} {parts : List JsString}
    (hsplit : splitVaultPlaintext maxChunks text (b - 4) = some parts) :
    ((∀ part ∈ parts, ∃ padded, padToBucket part b = some padded ∧ unpad padded = some part ∧
          padded.length ∈ buckets ∧
          ∀ c ∈ buckets, (encodeUtf8 part).length + 4 ≤ c → padded.length ≤ c) ∧
        parts.flatten = text ∧
        (∀ part, ∀ limit ∈ buckets,
          padToBucket part limit = none ↔ limit < (encodeUtf8 part).length + 4) ∧
        ∀ part ∈ parts, ∀ content, sealVaultPayload sealer part b = some content →
          content.length ≤ maxEnvelopeChars) ↔
      ∀ before after, codePoints text = before ++ bom :: after → ¬ Opens (b - 4) before bom := by
  have hrange := le_of_mem_buckets hb
  have hparts : parts = splitLoop (b - 4) [] [] 0 (codePoints text) := by
    unfold splitVaultPlaintext at hsplit
    dsimp only at hsplit
    rw [if_neg (by omega)] at hsplit
    split at hsplit
    · cases hsplit
    · split at hsplit
      · cases hsplit
      · exact (Option.some.inj hsplit).symm
  obtain ⟨groups, hloop, hflat, hfits, hheads⟩ := @splitLoop_spec (b - 4) (by omega)
    (codePoints text) [] [] 0 htext rfl (Nat.zero_le _)
  rw [hloop, List.nil_append] at hparts
  rw [List.nil_append] at hflat
  have hpoints : ∀ g ∈ groups, ∀ p ∈ g, IsScalarPoint p := fun g hg p hp =>
    htext p (hflat ▸ List.mem_flatten.2 ⟨g, hg, hp⟩)
  have hjoin : parts.flatten = text := by
    rw [hparts, ← List.flatten_flatten, hflat, flatten_codePoints]
  have hpadded : ∀ g ∈ groups, ∃ padded, padToBucket g.flatten b = some padded := by
    intro g hg
    have hsize := hfits g hg
    rw [← length_encodeUtf8_flatten (hpoints g hg)] at hsize
    apply Option.ne_none_iff_exists'.1
    intro hnone
    have hlt := (padToBucket_eq_none_iff hb).1 hnone
    omega
  have hopens : (∀ before after, codePoints text = before ++ bom :: after →
      ¬ Opens (b - 4) before bom) ↔ ∀ g ∈ groups, g.head? ≠ some bom := by
    rw [hheads bom]
    unfold Opens filled
    constructor
    · intro h
      refine ⟨fun hno => (by cases hno), fun before after heq => ?_⟩
      have hnot := h before after heq
      rw [not_or, not_lt] at hnot
      exact hnot
    · rintro ⟨_, h⟩ before after heq hor
      have hroom := h before after heq
      rw [List.nil_append] at hroom
      rcases hor with hnil | hlt
      · exact hroom.1 hnil
      · omega
  rw [hopens]
  constructor
  · rintro ⟨hsurvive, -⟩ g hg
    obtain ⟨padded, hpad, hunpad, -⟩ := hsurvive g.flatten
      (hparts ▸ List.mem_map.2 ⟨g, hg, rfl⟩)
    exact (unpad_part (hpoints g hg) hpad).1 hunpad
  · intro hnone
    refine ⟨?_, hjoin, fun part limit hlimit => padToBucket_eq_none_iff hlimit,
      fun part _ content hseal => length_sealed_le hdecimal hsealer hseal⟩
    intro part hpart
    rw [hparts] at hpart
    obtain ⟨g, hg, rfl⟩ := List.mem_map.1 hpart
    obtain ⟨padded, hpad⟩ := hpadded g hg
    obtain ⟨hbucket, hle, _, hleast, _⟩ := padToBucket_eq_some hpad
    refine ⟨padded, hpad, (unpad_part (hpoints g hg) hpad).2 (hnone g hg), hbucket, ?_⟩
    intro c hc hneeded
    by_cases hlimit : c ≤ b
    · exact hleast c hc hlimit hneeded
    · omega

end

/-! ## A text that loses its first character -/

theorem plain_sample : ∀ u ∈ bom ++ lit "a", u.val < 0xD800 ∨ 0xDFFF < u.val := by
  intro u hu
  rcases List.mem_append.1 hu with hu | hu
  · rw [List.mem_singleton.1 hu]
    exact .inr (by norm_num)
  · have ha : lit "a" = [97] := by decide
    rw [ha] at hu
    rw [List.mem_singleton.1 hu]
    exact .inl (by norm_num)

/-- A backend whose pieces have the sizes of the real ones. -/
def sampleSealer : Sealer where
  activePublicKeyHex := List.replicate 64 48
  random n := List.replicate n 0
  aesGcm _ _ plain := some (plain ++ List.replicate 16 0)
  nip44Encrypt _ _ := some (List.replicate 176 65)

theorem standard_sampleSealer : sampleSealer.Standard where
  tag := by
    rintro key iv plain ct ⟨⟩
    rw [List.length_append, List.length_replicate]
  wrap := by
    rintro recipient text wrapped ⟨⟩ _
    refine ⟨List.length_replicate, fun u hu => ?_⟩
    rw [List.eq_of_mem_replicate hu]
    decide

theorem vault_survives_iff_mark_inside :
    letI := decimalNumerals.toPlatform
    ((∀ part ∈ [lit "a" ++ bom], ∃ padded, padToBucket part 4096 = some padded ∧
          unpad padded = some part ∧ padded.length ∈ buckets ∧
          ∀ c ∈ buckets, (encodeUtf8 part).length + 4 ≤ c → padded.length ≤ c) ∧
        [lit "a" ++ bom].flatten = lit "a" ++ bom ∧
        (∀ part, ∀ limit ∈ buckets,
          padToBucket part limit = none ↔ limit < (encodeUtf8 part).length + 4) ∧
        ∀ part ∈ [lit "a" ++ bom], ∀ content,
          sealVaultPayload sampleSealer part 4096 = some content →
            content.length ≤ maxEnvelopeChars) ↔
      ∀ before after, codePoints (lit "a" ++ bom) = before ++ bom :: after →
        ¬ Opens (4096 - 4) before bom := by
  let _ := decimalNumerals.toPlatform
  exact @vault_survives_iff _ integersInDecimal_decimal sampleSealer standard_sampleSealer
    (lit "a" ++ bom) (isWellFormed_of_plain fun u hu =>
      plain_sample u (List.mem_append.2 (List.mem_append.1 hu).symm)) 4096 (by decide) 1
    [lit "a" ++ bom] (by decide +kernel)

/-- U+FEFF at the start of a text is gone when the part is opened. -/
theorem mark_at_start_is_lost :
    IsWellFormed (bom ++ lit "a") ∧
      splitVaultPlaintext 1 (bom ++ lit "a") (4096 - 4) = some [bom ++ lit "a"] ∧
      (padToBucket (bom ++ lit "a") 4096).bind unpad = some (lit "a") ∧
      lit "a" ≠ bom ++ lit "a" := by
  exact ⟨isWellFormed_of_plain plain_sample, by decide +kernel, by decide +kernel,
    by decide⟩

end SignetApp.Vault
