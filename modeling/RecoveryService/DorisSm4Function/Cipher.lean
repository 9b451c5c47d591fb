import RecoveryService.Lib.Base64
import RecoveryService.Lib.Feistel
import RecoveryService.Lib.Programs

/-! # The SM4 cipher

`sm4_encrypt_to_base64`, `sm4_decrypt_from_base64` and what they use of `services/doris_sm4_function.py`.
`md5` stands for `hashlib.md5`.  Decryption inverts encryption, and the other way round for a text that is
the Base64 form of its bytes. -/

namespace RecoveryService.Sm4Cipher

abbrev Word := BitVec 32

/-! ### Tables -/

/-- `_SBOX`. -/
def sbox : List ℕ := [
    0xD6, 0x90, 0xE9, 0xFE, 0xCC, 0xE1, 0x3D, 0xB7, 0x16, 0xB6, 0x14, 0xC2, 0x28, 0xFB, 0x2C, 0x05,
    0x2B, 0x67, 0x9A, 0x76, 0x2A, 0xBE, 0x04, 0xC3, 0xAA, 0x44, 0x13, 0x26, 0x49, 0x86, 0x06, 0x99,
    0x9C, 0x42, 0x50, 0xF4, 0x91, 0xEF, 0x98, 0x7A, 0x33, 0x54, 0x0B, 0x43, 0xED, 0xCF, 0xAC, 0x62,
    0xE4, 0xB3, 0x1C, 0xA9, 0xC9, 0x08, 0xE8, 0x95, 0x80, 0xDF, 0x94, 0xFA, 0x75, 0x8F, 0x3F, 0xA6,
    0x47, 0x07, 0xA7, 0xFC, 0xF3, 0x73, 0x17, 0xBA, 0x83, 0x59, 0x3C, 0x19, 0xE6, 0x85, 0x4F, 0xA8,
    0x68, 0x6B, 0x81, 0xB2, 0x71, 0x64, 0xDA, 0x8B, 0xF8, 0xEB, 0x0F, 0x4B, 0x70, 0x56, 0x9D, 0x35,
    0x1E, 0x24, 0x0E, 0x5E, 0x63, 0x58, 0xD1, 0xA2, 0x25, 0x22, 0x7C, 0x3B, 0x01, 0x21, 0x78, 0x87,
    0xD4, 0x00, 0x46, 0x57, 0x9F, 0xD3, 0x27, 0x52, 0x4C, 0x36, 0x02, 0xE7, 0xA0, 0xC4, 0xC8, 0x9E,
    0xEA, 0xBF, 0x8A, 0xD2, 0x40, 0xC7, 0x38, 0xB5, 0xA3, 0xF7, 0xF2, 0xCE, 0xF9, 0x61, 0x15, 0xA1,
    0xE0, 0xAE, 0x5D, 0xA4, 0x9B, 0x34, 0x1A, 0x55, 0xAD, 0x93, 0x32, 0x30, 0xF5, 0x8C, 0xB1, 0xE3,
    0x1D, 0xF6, 0xE2, 0x2E, 0x82, 0x66, 0xCA, 0x60, 0xC0, 0x29, 0x23, 0xAB, 0x0D, 0x53, 0x4E, 0x6F,
    0xD5, 0xDB, 0x37, 0x45, 0xDE, 0xFD, 0x8E, 0x2F, 0x03, 0xFF, 0x6A, 0x72, 0x6D, 0x6C, 0x5B, 0x51,
    0x8D, 0x1B, 0xAF, 0x92, 0xBB, 0xDD, 0xBC, 0x7F, 0x11, 0xD9, 0x5C, 0x41, 0x1F, 0x10, 0x5A, 0xD8,
    0x0A, 0xC1, 0x31, 0x88, 0xA5, 0xCD, 0x7B, 0xBD, 0x2D, 0x74, 0xD0, 0x12, 0xB8, 0xE5, 0xB4, 0xB0,
    0x89, 0x69, 0x97, 0x4A, 0x0C, 0x96, 0x77, 0x7E, 0x65, 0xB9, 0xF1, 0x09, 0xC5, 0x6E, 0xC6, 0x84,
    0x18, 0xF0, 0x7D, 0xEC, 0x3A, 0xDC, 0x4D, 0x20, 0x79, 0xEE, 0x5F, 0x3E, 0xD7, 0xCB, 0x39, 0x48]

/-- `_FK`. -/
def fk : List Word := [0xA3B1BAC6, 0x56AA3350, 0x677D9197, 0xB27022DC]

/-- `_CK`. -/
def ck : List Word := [
    0x00070E15, 0x1C232A31, 0x383F464D, 0x545B6269, 0x70777E85, 0x8C939AA1, 0xA8AFB6BD, 0xC4CBD2D9,
    0xE0E7EEF5, 0xFC030A11, 0x181F262D, 0x343B4249, 0x50575E65, 0x6C737A81, 0x888F969D, 0xA4ABB2B9,
    0xC0C7CED5, 0xDCE3EAF1, 0xF8FF060D, 0x141B2229, 0x30373E45, 0x4C535A61, 0x686F767D, 0x848B9299,
    0xA0A7AEB5, 0xBCC3CAD1, 0xD8DFE6ED, 0xF4FB0209, 0x10171E25, 0x2C333A41, 0x484F565D, 0x646B7279]

/-! ### Rounds -/

/-- `_rotate_left`. -/
def rotateLeft (value : Word) (bits : ℕ) : Word := value <<< bits ||| value >>> (32 - bits)

/-- The entry of the table for the low byte. -/
def substitute (value : Word) : Word := BitVec.ofNat 32 (sbox.getD (value &&& 0xFF).toNat 0)

/-- `_tau`. -/
def tau (value : Word) : Word :=
  substitute (value >>> 24) <<< 24 ||| substitute (value >>> 16) <<< 16 |||
    substitute (value >>> 8) <<< 8 ||| substitute value

/-- `_l`. -/
def l (value : Word) : Word :=
  value ^^^ rotateLeft value 2 ^^^ rotateLeft value 10 ^^^ rotateLeft value 18 ^^^ rotateLeft value 24

/-- `_l_prime`. -/
def lPrime (value : Word) : Word := value ^^^ rotateLeft value 13 ^^^ rotateLeft value 23

/-- `_to_int`. -/
def toInt (data : List UInt8) : Word :=
  BitVec.ofNat 32 (data.foldl (fun n byte => n * 256 + byte.toNat) 0)

/-- `_from_int`. -/
def fromInt (value : Word) : List UInt8 :=
  [UInt8.ofNat (value.toNat / 2 ^ 24), UInt8.ofNat (value.toNat / 2 ^ 16),
    UInt8.ofNat (value.toNat / 2 ^ 8), UInt8.ofNat value.toNat]

/-- The four words of `data`. -/
def words (data : List UInt8) : Word × Word × Word × Word :=
  (toInt (data.take 4), toInt ((data.drop 4).take 4), toInt ((data.drop 8).take 4),
    toInt ((data.drop 12).take 4))

def bytes (s : Word × Word × Word × Word) : List UInt8 :=
  fromInt s.1 ++ fromInt s.2.1 ++ fromInt s.2.2.1 ++ fromInt s.2.2.2

/-- `_round_keys`: the last four words of `k` go through the loop, and its new words are the keys. -/
def roundKeys (key : List UInt8) : List Word :=
  let mk := words key
  let start := (mk.1 ^^^ fk.getD 0 0, mk.2.1 ^^^ fk.getD 1 0, mk.2.2.1 ^^^ fk.getD 2 0,
    mk.2.2.2 ^^^ fk.getD 3 0)
  go start ck
where
  go (k : Word × Word × Word × Word) : List Word → List Word
    | [] => []
    | c :: rest =>
        let next := k.1 ^^^ lPrime (tau (k.2.1 ^^^ k.2.2.1 ^^^ k.2.2.2 ^^^ c))
        next :: go (k.2.1, k.2.2.1, k.2.2.2, next) rest

/-- What a round combines with the first word. -/
def mixed (rk b c d : Word) : Word := l (tau (b ^^^ c ^^^ d ^^^ rk))

/-- `_encrypt_block`: `x` in a window of four words, which are reversed at the end. -/
def encryptBlock (block : List UInt8) (rk : List Word) : List UInt8 :=
  bytes (Feistel.crypt (· ^^^ ·) mixed (rk.take 32) (words block))

/-! ### Padding -/

/-- `_pkcs7_pad`. -/
def pkcs7Pad (data : List UInt8) : List UInt8 :=
  let pad := 16 - data.length % 16
  data ++ List.replicate pad (UInt8.ofNat pad)

/-- `_pkcs7_unpad`. -/
def pkcs7Unpad (data : List UInt8) : Except String (List UInt8) :=
  match data.getLast? with
  | none => .error "SM4 plaintext is empty after decrypt."
  | some last =>
      let pad := last.toNat
      if pad < 1 ∨ pad > 16 ∨ data.length < pad ∨
          data.drop (data.length - pad) ≠ List.replicate pad (UInt8.ofNat pad) then
        .error "Invalid SM4 PKCS7 padding."
      else .ok (data.take (data.length - pad))

/-! ### Texts -/

/-- `value.encode("utf-8")`. -/
def utf8 (s : String) : List UInt8 := s.toByteArray.data.toList

/-- `data.decode("utf-8")`. -/
def fromUtf8 (data : List UInt8) : Except String String :=
  match String.fromUTF8? ⟨data.toArray⟩ with
  | some s => .ok s
  | none => .error "UnicodeDecodeError"

/-- The digits of `hexdigest()`, as bytes. -/
def hexDigits (byte : UInt8) : List UInt8 :=
  [byte / 16, byte % 16].map fun d => if d < 10 then 48 + d else 87 + d

variable (md5 : List UInt8 → List UInt8)

/-- `_derive_sm4_key`. -/
def deriveSm4Key (keySeed : String) : List UInt8 := ((md5 (utf8 keySeed)).flatMap hexDigits).take 16

/-- The blocks of `data`, one after the other: the first `n` of them. -/
def cryptBlocks (rk : List Word) : ℕ → List UInt8 → List UInt8
  | 0, _ => []
  | n + 1, data => encryptBlock (data.take 16) rk ++ cryptBlocks rk n (data.drop 16)

/-- The loop over `range(0, len(data), 16)`. -/
def cryptData (rk : List Word) (data : List UInt8) : List UInt8 :=
  cryptBlocks rk ((data.length + 15) / 16) data

/-- `sm4_encrypt_to_base64`. -/
def sm4EncryptToBase64 (value keySeed : String) : String :=
  let key := deriveSm4Key md5 keySeed
  String.ofList (Base64.encode (cryptData (roundKeys key) (pkcs7Pad (utf8 value))))

/-- `sm4_decrypt_from_base64`. -/
def sm4DecryptFromBase64 (value keySeed : String) : Except String String :=
  let key := deriveSm4Key md5 keySeed
  match Base64.decode value.toList with
  | none => .error "Only base64 data is allowed"
  | some data =>
      if data = [] ∨ data.length % 16 ≠ 0 then
        .error "SM4 ciphertext must be non-empty and aligned to 16-byte blocks."
      else do
        let plain ← pkcs7Unpad (cryptData (roundKeys key).reverse data)
        fromUtf8 plain

/-! ### Words and bytes -/

theorem toInt_fromInt (v : Word) : toInt (fromInt v) = v := by
  have hv := v.isLt
  apply BitVec.eq_of_toNat_eq
  unfold toInt fromInt
  simp only [List.foldl_cons, List.foldl_nil, BitVec.toNat_ofNat, UInt8.toNat_ofNat']
  omega

theorem fromInt_toInt (a b c d : UInt8) : fromInt (toInt [a, b, c, d]) = [a, b, c, d] := by
  have ha := a.toNat_lt
  have hb := b.toNat_lt
  have hc := c.toNat_lt
  have hd := d.toNat_lt
  have hbyte : ∀ (n : ℕ) (x : UInt8), n % 256 = x.toNat → UInt8.ofNat n = x := by
    intro n x hn
    apply UInt8.toNat_inj.mp
    rw [UInt8.toNat_ofNat']
    exact hn
  unfold toInt fromInt
  simp only [List.foldl_cons, List.foldl_nil, BitVec.toNat_ofNat]
  rw [hbyte _ a (by omega), hbyte _ b (by omega), hbyte _ c (by omega), hbyte _ d (by omega)]

variable {data : List UInt8}

theorem fromInt_toInt_of_length (h : data.length = 4) : fromInt (toInt data) = data := by
  obtain ⟨a, b, c, d, rfl⟩ := List.length_eq_four.mp h
  exact fromInt_toInt a b c d

theorem words_bytes (s : Word × Word × Word × Word) : words (bytes s) = s := by
  have h : words (bytes s) = (toInt (fromInt s.1), toInt (fromInt s.2.1), toInt (fromInt s.2.2.1),
      toInt (fromInt s.2.2.2)) := rfl
  rw [h, toInt_fromInt, toInt_fromInt, toInt_fromInt, toInt_fromInt]

theorem bytes_words {block : List UInt8} (h : block.length = 16) : bytes (words block) = block := by
  have hslice : ∀ n, n + 4 ≤ 16 → ((block.drop n).take 4).length = 4 := by
    intro n hn
    rw [List.length_take, List.length_drop]
    omega
  have hjoin : ∀ n, (block.drop n).take 4 ++ block.drop (n + 4) = block.drop n := by
    intro n
    rw [← List.drop_drop]
    exact List.take_append_drop 4 _
  have hfirst : (block.take 4).length = 4 := hslice 0 (by omega)
  have hlast : (block.drop 12).take 4 = block.drop 12 :=
    List.take_of_length_le (by rw [List.length_drop]; omega)
  unfold bytes words
  simp only
  rw [fromInt_toInt_of_length hfirst, fromInt_toInt_of_length (hslice 4 (by omega)),
    fromInt_toInt_of_length (hslice 8 (by omega)), fromInt_toInt_of_length (hslice 12 (by omega)),
    hlast, List.append_assoc, List.append_assoc, hjoin 8, hjoin 4]
  exact hjoin 0

/-! ### Blocks -/

theorem mixed_symm (rk b c d : Word) : mixed rk d c b = mixed rk b c d := by
  unfold mixed
  rw [BitVec.xor_comm d c, BitVec.xor_assoc c d b, BitVec.xor_comm d b, ← BitVec.xor_assoc c b d,
    BitVec.xor_comm c b]

/-- The reversed round keys invert a block. -/
theorem encryptBlock_reverse {rk : List Word} (hrk : rk.length = 32) {block : List UInt8}
    (hblock : block.length = 16) : encryptBlock (encryptBlock block rk) rk.reverse = block := by
  have hkeys : rk.take 32 = rk := List.take_of_length_le hrk.le
  have hreversed : rk.reverse.take 32 = rk.reverse :=
    List.take_of_length_le (by rw [List.length_reverse]; exact hrk.le)
  have hxor : ∀ a b : Word, a ^^^ b ^^^ b = a := by
    intro a b
    rw [BitVec.xor_assoc, BitVec.xor_self, BitVec.xor_zero]
  unfold encryptBlock
  rw [words_bytes, hkeys, hreversed, Feistel.crypt_reverse_crypt hxor mixed_symm, bytes_words hblock]

theorem encryptBlock_length (block : List UInt8) (rk : List Word) : (encryptBlock block rk).length = 16 := rfl

theorem cryptBlocks_length (rk : List Word) (n : ℕ) (data : List UInt8) :
    (cryptBlocks rk n data).length = 16 * n := by
  induction n generalizing data with
  | zero => rfl
  | succ n ih =>
      rw [cryptBlocks, List.length_append, encryptBlock_length, ih]
      omega

theorem cryptBlocks_reverse {rk : List Word} (hrk : rk.length = 32) {n : ℕ} (hdata : data.length = 16 * n) :
    cryptBlocks rk.reverse n (cryptBlocks rk n data) = data := by
  induction n generalizing data with
  | zero => exact (List.eq_nil_of_length_eq_zero hdata).symm
  | succ n ih =>
      have hblock : (data.take 16).length = 16 := by
        rw [List.length_take]
        omega
      have hrest : (data.drop 16).length = 16 * n := by
        rw [List.length_drop]
        omega
      have hlength := encryptBlock_length (data.take 16) rk
      have htake : (encryptBlock (data.take 16) rk ++ cryptBlocks rk n (data.drop 16)).take 16 =
          encryptBlock (data.take 16) rk := List.take_left' hlength
      have hdrop : (encryptBlock (data.take 16) rk ++ cryptBlocks rk n (data.drop 16)).drop 16 =
          cryptBlocks rk n (data.drop 16) := List.drop_left' hlength
      rw [cryptBlocks, cryptBlocks, htake, hdrop, encryptBlock_reverse hrk hblock, ih hrest,
        List.take_append_drop]

/-- Whole blocks are inverted by the reversed round keys. -/
theorem cryptData_reverse {rk : List Word} (hrk : rk.length = 32) (hdata : data.length % 16 = 0) :
    cryptData rk.reverse (cryptData rk data) = data := by
  have hlength : data.length = 16 * ((data.length + 15) / 16) := by omega
  have hcount : ((cryptData rk data).length + 15) / 16 = (data.length + 15) / 16 := by
    unfold cryptData
    rw [cryptBlocks_length]
    omega
  rw [cryptData, hcount]
  exact cryptBlocks_reverse hrk hlength

theorem cryptData_length (rk : List Word) (hdata : data.length % 16 = 0) :
    (cryptData rk data).length = data.length := by
  unfold cryptData
  rw [cryptBlocks_length]
  omega

theorem roundKeys_go_length (k : Word × Word × Word × Word) (cs : List Word) :
    (roundKeys.go k cs).length = cs.length := by
  induction cs generalizing k with
  | nil => rfl
  | cons c cs ih =>
      rw [roundKeys.go, List.length_cons, List.length_cons, ih]

theorem roundKeys_length (key : List UInt8) : (roundKeys key).length = 32 :=
  roundKeys_go_length _ ck

/-! ### Padding -/

theorem pkcs7Pad_length (data : List UInt8) : (pkcs7Pad data).length % 16 = 0 ∧ pkcs7Pad data ≠ [] := by
  have hlength : (pkcs7Pad data).length = data.length + (16 - data.length % 16) := by
    unfold pkcs7Pad
    rw [List.length_append, List.length_replicate]
  refine ⟨by omega, ?_⟩
  intro hnil
  rw [hnil, List.length_nil] at hlength
  omega

/-- Padding is removed again. -/
theorem pkcs7Unpad_pad (data : List UInt8) : pkcs7Unpad (pkcs7Pad data) = .ok data := by
  obtain ⟨pad, hpad⟩ : ∃ pad, pad = 16 - data.length % 16 := ⟨_, rfl⟩
  have hrange : 1 ≤ pad ∧ pad ≤ 16 := by omega
  have hbyte : (UInt8.ofNat pad).toNat = pad := by
    rw [UInt8.toNat_ofNat']
    omega
  have hpadded : pkcs7Pad data = data ++ List.replicate pad (UInt8.ofNat pad) := by
    rw [hpad]
    rfl
  have hlast : (pkcs7Pad data).getLast? = some (UInt8.ofNat pad) := by
    rw [hpadded, List.getLast?_append, List.getLast?_replicate, if_neg (by omega)]
    rfl
  have hlength : (pkcs7Pad data).length - pad = data.length := by
    rw [hpadded, List.length_append, List.length_replicate]
    omega
  unfold pkcs7Unpad
  rw [hlast]
  simp only [hbyte, hlength]
  rw [hpadded, List.drop_left, List.take_left]
  refine if_neg ?_
  rw [List.length_append, List.length_replicate]
  rintro (h | h | h | h)
  · omega
  · omega
  · omega
  · exact h rfl

/-- What was unpadded is padded to the same blocks. -/
theorem pkcs7Pad_unpad {plain : List UInt8} (hdata : data.length % 16 = 0) (h : pkcs7Unpad data = .ok plain) :
    pkcs7Pad plain = data := by
  unfold pkcs7Unpad at h
  split at h
  · cases h
  · next last hlast =>
      simp only at h
      split_ifs at h with hbad
      simp only [not_or, not_lt, not_not] at hbad
      obtain ⟨hlow, hhigh, hlength, htail⟩ := hbad
      cases h
      have hpad : 16 - (data.take (data.length - last.toNat)).length % 16 = last.toNat := by
        rw [List.length_take]
        omega
      unfold pkcs7Pad
      simp only [hpad]
      rw [← htail]
      exact List.take_append_drop _ _

/-! ### Texts -/

theorem fromUtf8_utf8 (s : String) : fromUtf8 (utf8 s) = .ok s := by
  have h : String.fromUTF8? ⟨(utf8 s).toArray⟩ = some s := dif_pos s.isValidUTF8
  unfold fromUtf8
  rw [h]

theorem utf8_fromUtf8 {s : String} (h : fromUtf8 data = .ok s) : utf8 s = data := by
  unfold fromUtf8 at h
  split at h
  · next t ht =>
      cases h
      unfold String.fromUTF8? at ht
      split_ifs at ht with hvalid
      cases ht
      rfl
  · cases h

/-! ### The cipher -/

/-- The Base64 form of some bytes. -/
def Canonical (c : String) : Prop := ∃ data, c = String.ofList (Base64.encode data)

variable {md5}

theorem sm4Decrypt_encrypt (value keySeed : String) :
    sm4DecryptFromBase64 md5 (sm4EncryptToBase64 md5 value keySeed) keySeed = .ok value := by
  obtain ⟨hlength, hne⟩ := pkcs7Pad_length (utf8 value)
  have hkeys := roundKeys_length (deriveSm4Key md5 keySeed)
  have hcrypt := cryptData_length (roundKeys (deriveSm4Key md5 keySeed)) hlength
  have hgood : ¬ (cryptData (roundKeys (deriveSm4Key md5 keySeed)) (pkcs7Pad (utf8 value)) = [] ∨
      (cryptData (roundKeys (deriveSm4Key md5 keySeed)) (pkcs7Pad (utf8 value))).length % 16 ≠ 0) := by
    rintro (h | h)
    · rw [h, List.length_nil] at hcrypt
      exact hne (List.eq_nil_of_length_eq_zero hcrypt.symm)
    · rw [hcrypt] at h
      exact h hlength
  unfold sm4DecryptFromBase64 sm4EncryptToBase64
  simp only [String.toList_ofList, Base64.decode_encode]
  rw [if_neg hgood, cryptData_reverse hkeys hlength, pkcs7Unpad_pad]
  exact fromUtf8_utf8 value

theorem sm4Encrypt_decrypt {c value keySeed : String} (hc : Canonical c)
    (h : sm4DecryptFromBase64 md5 c keySeed = .ok value) : sm4EncryptToBase64 md5 value keySeed = c := by
  obtain ⟨data, rfl⟩ := hc
  unfold sm4DecryptFromBase64 at h
  simp only [String.toList_ofList, Base64.decode_encode] at h
  split_ifs at h with hbad
  rw [not_or, not_not] at hbad
  obtain ⟨plain, hplain, htext⟩ := Program.returns_bind h
  have hkeys := roundKeys_length (deriveSm4Key md5 keySeed)
  have hreversed : (roundKeys (deriveSm4Key md5 keySeed)).reverse.length = 32 := by
    rw [List.length_reverse]
    exact hkeys
  have hlength : (cryptData (roundKeys (deriveSm4Key md5 keySeed)).reverse data).length % 16 = 0 := by
    rw [cryptData_length _ hbad.2]
    exact hbad.2
  have hback := cryptData_reverse hreversed hbad.2
  rw [List.reverse_reverse] at hback
  unfold sm4EncryptToBase64
  simp only
  rw [utf8_fromUtf8 htext, pkcs7Pad_unpad hlength hplain, hback]

/-- Decryption inverts encryption, the reversed round keys invert a block, and a canonical text that can be
decrypted is what its value is encrypted to. -/
theorem sm4_round_trip (md5 : List UInt8 → List UInt8) : (∀ value keySeed,
      sm4DecryptFromBase64 md5 (sm4EncryptToBase64 md5 value keySeed) keySeed = .ok value) ∧
    (∀ (rk : List Word) (block : List UInt8), rk.length = 32 → block.length = 16 →
      encryptBlock (encryptBlock block rk) rk.reverse = block) ∧
    ∀ c value keySeed, Canonical c → sm4DecryptFromBase64 md5 c keySeed = .ok value →
      sm4EncryptToBase64 md5 value keySeed = c :=
  ⟨sm4Decrypt_encrypt, fun _ _ hrk hblock => encryptBlock_reverse hrk hblock,
    fun _ _ _ hc h => sm4Encrypt_decrypt hc h⟩

/-- The text of one letter, under the key of an empty digest. -/
theorem sm4_round_trip_letter : encryptBlock (encryptBlock (List.replicate 16 0) (List.replicate 32 0))
        (List.replicate 32 (0 : Word)).reverse = List.replicate 16 0 ∧
      sm4EncryptToBase64 (fun _ => []) "a" "seed" = "NtvaIwAqrF3h/AM9WR1hIg==" :=
  ⟨(sm4_round_trip fun _ => []).2.1 _ _ List.length_replicate List.length_replicate,
    (sm4_round_trip fun _ => []).2.2 "NtvaIwAqrF3h/AM9WR1hIg==" "a" "seed"
      ⟨[54, 219, 218, 35, 0, 42, 172, 93, 225, 252, 3, 61, 89, 29, 97, 34], by decide +kernel⟩
      (by decide +kernel)⟩

/-! ### The length of a cipher text -/

/-- `_rewrite_encrypted_column_types` makes an encrypted column `varchar(2000)`. -/
def encryptedColumnLength : ℕ := 2000

/-- How long a cipher text is depends on the number of bytes only, and it fits into its column up to `1487`. -/
theorem sm4_fits_iff (md5 : List UInt8 → List UInt8) (value keySeed : String) :
    (sm4EncryptToBase64 md5 value keySeed).length = 4 * ((16 * ((utf8 value).length / 16 + 1) + 2) / 3) ∧
      ((sm4EncryptToBase64 md5 value keySeed).length ≤ encryptedColumnLength ↔ (utf8 value).length < 1488) := by
  have hpad : (pkcs7Pad (utf8 value)).length = 16 * ((utf8 value).length / 16 + 1) := by
    unfold pkcs7Pad
    rw [List.length_append, List.length_replicate]
    omega
  have hlength : (sm4EncryptToBase64 md5 value keySeed).length =
      4 * ((16 * ((utf8 value).length / 16 + 1) + 2) / 3) := by
    unfold sm4EncryptToBase64
    rw [String.length_ofList, Base64.length_encode, cryptData_length _ (pkcs7Pad_length _).1, hpad]
  refine ⟨hlength, ?_⟩
  rw [hlength, encryptedColumnLength]
  omega

end RecoveryService.Sm4Cipher
