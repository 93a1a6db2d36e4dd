import Toolbox.Crypto.Hex
import Toolbox.Crypto.Cbc

/-
RFC 1423 encryption of PEM blocks in package `crypto` (`EncryptPEMBlock`, `DecryptPEMBlock`).
The standard library's MD5, DES, triple DES and AES are given abstractly: MD5 as a 16-byte
digest, each cipher as a block permutation of its block size.  Over every such choice, decryption
with the password gives back what was encrypted.
-/

namespace Toolbox.Crypto

open Strings

/-- `md5.New()` as `deriveKey` uses it: the 16-byte digest of what was written since `Reset`. -/
structure Digest where
  sum : Bytes → Bytes
  sum_length : ∀ x, (sum x).length = 16

/-- The primitives of the standard library that `rfc1423Algos` names: MD5, and the DES, triple DES
and AES block ciphers for each key. -/
structure Primitives where
  md5 : Digest
  des : Bytes → Block
  tripleDES : Bytes → Block
  aes : Bytes → Block
  des_blockSize : ∀ key, (des key).blockSize = 8
  tripleDES_blockSize : ∀ key, (tripleDES key).blockSize = 8
  aes_blockSize : ∀ key, (aes key).blockSize = 16

/-- The error an error of the package wraps. -/
inductive Cause where
  /-- `errors.New(msg)`. -/
  | text (msg : Bytes)
  /-- An error of `hex.DecodeString`. -/
  | hex (err : Hex.HexError)
  /-- `des.KeySizeError` or `aes.KeySizeError`. -/
  | keySize (size : Nat)
  /-- `io.EOF`. -/
  | eof
  /-- `io.ErrUnexpectedEOF`. -/
  | unexpectedEOF
deriving DecidableEq, Repr

/-- `ErrEncryptFailure`, `ErrGenerateIVFailure` and `ErrDecryptFailure`. -/
inductive CryptoError where
  | encryptFailure (err : Cause)
  | generateIVFailure (err : Cause)
  | decryptFailure (err : Cause)
deriving DecidableEq, Repr

/-- `PEMCipher`, a Go `int`. -/
abbrev PEMCipher := Int

def pemCipherDES : PEMCipher := 1
def pemCipher3DES : PEMCipher := 2
def pemCipherAES128 : PEMCipher := 3
def pemCipherAES192 : PEMCipher := 4
def pemCipherAES256 : PEMCipher := 5

/-- `des.BlockSize`. -/
def desBlockSize : Nat := 8

/-- `aes.BlockSize`. -/
def aesBlockSize : Nat := 16

/-- `des.NewCipher`: an 8-byte key. -/
def desNewCipher (P : Primitives) (key : Bytes) : Except Cause Block :=
  if key.length = 8 then .ok (P.des key) else .error (.keySize key.length)

/-- `des.NewTripleDESCipher`: a 24-byte key. -/
def desNewTripleDESCipher (P : Primitives) (key : Bytes) : Except Cause Block :=
  if key.length = 24 then .ok (P.tripleDES key) else .error (.keySize key.length)

/-- `aes.NewCipher`: a 16-, 24- or 32-byte key. -/
def aesNewCipher (P : Primitives) (key : Bytes) : Except Cause Block :=
  if key.length = 16 ∨ key.length = 24 ∨ key.length = 32 then .ok (P.aes key)
  else .error (.keySize key.length)

/-- `rfc1423Algo`. -/
structure Rfc1423Algo where
  cipher : PEMCipher
  name : Bytes
  cipherFunc : Bytes → Except Cause Block
  keySize : Nat
  blockSize : Nat

/-- `rfc1423Algos`. -/
def rfc1423Algos (P : Primitives) : List Rfc1423Algo :=
  [⟨pemCipherDES, lit "DES-CBC", desNewCipher P, 8, desBlockSize⟩,
   ⟨pemCipher3DES, lit "DES-EDE3-CBC", desNewTripleDESCipher P, 24, desBlockSize⟩,
   ⟨pemCipherAES128, lit "AES-128-CBC", aesNewCipher P, 16, aesBlockSize⟩,
   ⟨pemCipherAES192, lit "AES-192-CBC", aesNewCipher P, 24, aesBlockSize⟩,
   ⟨pemCipherAES256, lit "AES-256-CBC", aesNewCipher P, 32, aesBlockSize⟩]

/-- `cipherByKey`: the first entry of the table with the cipher. -/
def cipherByKey (P : Primitives) (key : PEMCipher) : Option Rfc1423Algo :=
  (rfc1423Algos P).find? fun alg => alg.cipher == key

/-- `cipherByName`: the first entry of the table with the name. -/
def cipherByName (P : Primitives) (name : Bytes) : Option Rfc1423Algo :=
  (rfc1423Algos P).find? fun alg => alg.name == name

/-- `copy(dst[i:], src)`: as much of `src` as fits from offset `i` on. -/
def copyAt (dst : Bytes) (i : Nat) (src : Bytes) : Bytes :=
  dst.take i ++ src.take (dst.length - i) ++ dst.drop (i + src.length)

theorem length_copyAt {dst src : Bytes} {i : Nat} (h : i ≤ dst.length) :
    (copyAt dst i src).length = dst.length := by
  simp only [copyAt, List.length_append, List.length_take, List.length_drop]
  omega

/-- The loop of `deriveKey` from offset `i` of `out`, after the digest `digest`. -/
def deriveKeyLoop (md5 : Digest) (password salt out : Bytes) (i : Nat) (digest : Bytes) :
    Bytes :=
  if _h : i < out.length then
    let digest := md5.sum (digest ++ password ++ salt)
    deriveKeyLoop md5 password salt (copyAt out i digest) (i + digest.length) digest
  else out
termination_by out.length - i
decreasing_by
  rw [length_copyAt _h.le, md5.sum_length]
  omega

/-- `rfc1423Algo.deriveKey`: `keySize` bytes of chained MD5 digests of the previous digest, the
password and the salt. -/
def Rfc1423Algo.deriveKey (c : Rfc1423Algo) (md5 : Digest) (password salt : Bytes) : Bytes :=
  deriveKeyLoop md5 password salt (List.replicate c.keySize 0) 0 []

theorem length_deriveKeyLoop (md5 : Digest) (password salt : Bytes) :
    ∀ n out i digest, out.length - i = n →
      (deriveKeyLoop md5 password salt out i digest).length = out.length := by
  intro n
  induction n using Nat.strong_induction_on with
  | _ n ih =>
    intro out i digest hn
    rw [deriveKeyLoop]
    split
    · next h =>
      rw [ih _ (by rw [← hn, length_copyAt h.le, md5.sum_length]; omega) _ _ _ rfl,
        length_copyAt h.le]
    · rfl

theorem Rfc1423Algo.length_deriveKey (c : Rfc1423Algo) (md5 : Digest) (password salt : Bytes) :
    (c.deriveKey md5 password salt).length = c.keySize := by
  rw [deriveKey, length_deriveKeyLoop md5 password salt _ _ _ _ rfl, List.length_replicate]

/-! ### Key derivation against OpenSSL -/

/-- OpenSSL's `EVP_BytesToKey` with MD5 and one iteration, as RFC 1423 keys are made: `n` digests
chained from `prev`, each the MD5 of the one before, the password and the salt. -/
def evpDigests (md5 : Digest) (password salt : Bytes) : Nat → Bytes → Bytes
  | 0, _ => []
  | n + 1, prev =>
    let d := md5.sum (prev ++ password ++ salt)
    d ++ evpDigests md5 password salt n d

/-- The first `keySize` bytes of `D₁ ++ D₂ ++ ⋯` with `D₁ = MD5(password ++ salt)`; `keySize`
digests are more than enough. -/
def evpBytesToKey (md5 : Digest) (password salt : Bytes) (keySize : Nat) : Bytes :=
  (evpDigests md5 password salt keySize []).take keySize

/-- What `copy(out[i:], digest)` leaves up to the digest's end. -/
theorem take_copyAt {dst src : Bytes} {i : Nat} (h : i ≤ dst.length) :
    (copyAt dst i src).take (i + src.length) = dst.take i ++ src.take (dst.length - i) := by
  have hi : (dst.take i).length = i := List.length_take_of_le h
  rw [copyAt, List.append_assoc, List.take_append_eq_append_take, hi,
    List.take_of_length_le (by omega), Nat.add_sub_cancel_left, List.take_append_eq_append_take,
    List.take_of_length_le (List.length_take_le' _ _)]
  rcases Nat.lt_or_ge (dst.length - i) src.length with hlt | hge
  · rw [List.drop_of_length_le (by omega)]; simp
  · simp [List.take_of_length_le hge]

/-- The loop invariant of `deriveKey`: from offset `i` on, the loop fills `out` with the digests
chained from the last one, reusing its buffer; `m` digests cover what is left. -/
theorem deriveKeyLoop_eq (md5 : Digest) (password salt : Bytes) :
    ∀ m out i digest, out.length - i ≤ 16 * m →
      deriveKeyLoop md5 password salt out i digest =
        out.take i ++ (evpDigests md5 password salt m digest).take (out.length - i) := by
  intro m
  induction m with
  | zero =>
    intro out i digest h
    rw [deriveKeyLoop, dif_neg (by omega), List.take_of_length_le (by omega),
      Nat.sub_eq_zero_of_le (by omega)]
    simp
  | succ m ih =>
    intro out i digest h
    rw [deriveKeyLoop]
    split
    · next hi =>
      have hd := md5.sum_length (digest ++ password ++ salt)
      dsimp only
      rw [ih _ _ _ (by rw [length_copyAt hi.le]; omega), length_copyAt hi.le, take_copyAt hi.le,
        evpDigests, List.take_append_eq_append_take, List.append_assoc, hd, Nat.sub_sub]
    · next hi =>
      rw [List.take_of_length_le (by omega), Nat.sub_eq_zero_of_le (by omega)]
      simp

/-- `deriveKey` terminates with `keySize` bytes, and they are OpenSSL's `EVP_BytesToKey` key for
the password and salt, whatever the digest. -/
theorem Rfc1423Algo.deriveKey_eq_evpBytesToKey (c : Rfc1423Algo) (md5 : Digest)
    (password salt : Bytes) :
    (c.deriveKey md5 password salt).length = c.keySize ∧
      c.deriveKey md5 password salt = evpBytesToKey md5 password salt c.keySize := by
  refine ⟨c.length_deriveKey md5 password salt, ?_⟩
  rw [deriveKey, deriveKeyLoop_eq md5 password salt c.keySize _ _ _ (by simp; omega)]
  simp [evpBytesToKey]

/-- `io.ReadFull(rand, buf)` into a buffer of `n` bytes, `rand` being what the source yields. -/
def readFull (rand : Bytes) (n : Nat) : Except Cause Bytes :=
  if n ≤ rand.length then .ok (rand.take n)
  else if rand = [] then .error .eof
  else .error .unexpectedEOF

/-- `pem.Block`. -/
structure PemBlock where
  type : Bytes
  headers : GoMap Bytes
  bytes : Bytes

/-- `EncryptPEMBlock`: a random IV, the key derived from the password and the IV's first eight
bytes, the data padded to whole blocks with bytes holding the pad length, CBC encryption, and the
`DEK-Info` header naming the algorithm and the IV. -/
def encryptPEMBlock (P : Primitives) (rand blockType data password : Bytes) (alg : PEMCipher) :
    Option (Except CryptoError PemBlock) :=
  match cipherByKey P alg with
  | none => some (.error (.encryptFailure (.text (lit "unknown encryption mode"))))
  | some ciph =>
    match readFull rand ciph.blockSize with
    | .error e => some (.error (.generateIVFailure e))
    | .ok iv =>
      (slice iv 0 8).bind fun salt =>
        match ciph.cipherFunc (ciph.deriveKey P.md5 password salt) with
        | .error e => some (.error (.encryptFailure e))
        | .ok block =>
          let pad := ciph.blockSize - data.length % ciph.blockSize
          (block.cbcEncrypter iv (data ++ List.replicate pad (UInt8.ofNat pad))).map
            fun encrypted => .ok
              { type := blockType
                headers := ((∅ : GoMap Bytes).insert (lit "Proc-Type") (lit "4,ENCRYPTED")).insert
                  (lit "DEK-Info") (ciph.name ++ lit "," ++ Hex.encodeToString iv)
                bytes := encrypted }

/-- `ErrDecryptFailure` wrapping `errors.New(msg)`. -/
def decryptFailure {α : Type} (msg : String) : Option (Except CryptoError α) :=
  some (.error (.decryptFailure (.text (lit msg))))

/-- The padding check of `DecryptPEMBlock`: the last byte is the pad length, from one to the block
size, and every pad byte holds it; a bad pad is taken for a wrong password. -/
def unpad (blockSize : Nat) (data : Bytes) : Option (Except CryptoError Bytes) :=
  let dlen := data.length
  if dlen = 0 ∨ dlen % blockSize ≠ 0 then decryptFailure "invalid padding"
  else
    let last := (data.getD (dlen - 1) 0).toNat
    if dlen < last then decryptFailure "password is incorrect"
    else if last = 0 ∨ last > blockSize then decryptFailure "password is incorrect"
    else if (data.drop (dlen - last)).all fun val => val.toNat == last then
      some (.ok (data.take (dlen - last)))
    else decryptFailure "password is incorrect"

/-- `DecryptPEMBlock`: read the algorithm and the IV from the `DEK-Info` header, derive the key,
decrypt, and check the padding. -/
def decryptPEMBlock (P : Primitives) (b : Option PemBlock) (password : Bytes) :
    Option (Except CryptoError Bytes) :=
  match b with
  | none => decryptFailure "PEM block is nil"
  | some b =>
    match b.headers.lookup (lit "DEK-Info") with
    | none => decryptFailure "no DEK-Info header in block"
    | some dek =>
      let idx := index dek (lit ",")
      if idx = -1 then decryptFailure "malformed DEK-Info header"
      else
        (slice dek 0 idx).bind fun mode =>
        (slice dek (idx + 1) dek.length).bind fun hexIV =>
        match cipherByName P mode with
        | none => decryptFailure "unknown encryption mode"
        | some ciph =>
          match Hex.decodeString hexIV with
          | .error e => some (.error (.decryptFailure (.hex e)))
          | .ok iv =>
            if iv.length ≠ ciph.blockSize then decryptFailure "incorrect IV size"
            else
              (slice iv 0 8).bind fun salt =>
                match ciph.cipherFunc (ciph.deriveKey P.md5 password salt) with
                | .error e => some (.error (.decryptFailure e))
                | .ok block =>
                  if b.bytes.length % block.blockSize ≠ 0 then
                    decryptFailure "encrypted PEM data is not a multiple of the block size"
                  else (block.cbcDecrypter iv b.bytes).bind (unpad ciph.blockSize)

/-! ### The table -/

/-- What the round trip asks of an entry of the table: both lookups find it, its block is at
least eight bytes and fits a pad length in one byte, its name has no comma, and a key of its size
makes a cipher of its block size. -/
structure Rfc1423Algo.Sound (P : Primitives) (a : Rfc1423Algo) : Prop where
  byKey : cipherByKey P a.cipher = some a
  byName : cipherByName P a.name = some a
  blockSize_ge : 8 ≤ a.blockSize
  blockSize_lt : a.blockSize < 256
  comma_not_mem : (44 : UInt8) ∉ a.name
  cipherFunc_ok : ∀ key, key.length = a.keySize →
    ∃ block, a.cipherFunc key = .ok block ∧ block.blockSize = a.blockSize

theorem Rfc1423Algo.sound_of_mem {P : Primitives} {a : Rfc1423Algo} (h : a ∈ rfc1423Algos P) :
    a.Sound P := by
  simp only [rfc1423Algos, List.mem_cons, List.mem_singleton, List.not_mem_nil, or_false] at h
  rcases h with rfl | rfl | rfl | rfl | rfl <;>
    refine ⟨rfl, rfl, by dsimp only; decide, by dsimp only; decide, by dsimp only; decide,
      fun key hkey => ?_⟩
  · exact ⟨_, if_pos hkey, P.des_blockSize key⟩
  · exact ⟨_, if_pos hkey, P.tripleDES_blockSize key⟩
  · exact ⟨_, if_pos (.inl hkey), P.aes_blockSize key⟩
  · exact ⟨_, if_pos (.inr (.inl hkey)), P.aes_blockSize key⟩
  · exact ⟨_, if_pos (.inr (.inr hkey)), P.aes_blockSize key⟩

/-! ### The header and the padding -/

/-- The first comma of `name,rest` ends a name without one. -/
theorem index_comma {name : Bytes} (rest : Bytes) (h : (44 : UInt8) ∉ name) :
    index (name ++ lit "," ++ rest) (lit ",") = name.length := by
  have hfirst : indexOf? [44] (name ++ 44 :: rest) = some name.length := by
    induction name with
    | nil => simp [indexOf?]
    | cons x name ih =>
      have hx : x ≠ 44 := fun hx => h (hx ▸ List.mem_cons_self _ _)
      unfold indexOf?
      rw [if_neg (by simp [List.isPrefixOf, Ne.symm hx])]
      simp [ih fun hc => h (List.mem_cons_of_mem _ hc)]
  exact index_eq_of_indexOf? (by simpa using hfirst)

/-- The pad takes the data to whole blocks. -/
theorem length_padded {n : Nat} (hn : 0 < n) (data : Bytes) :
    data.length + (n - data.length % n) = (data.length / n + 1) * n := by
  have := Nat.mod_add_div data.length n
  have := Nat.mod_lt data.length hn
  rw [Nat.add_mul, Nat.one_mul, Nat.mul_comm]
  omega

/-- The padding check accepts the padding `EncryptPEMBlock` adds and strips it. -/
theorem unpad_padded {n : Nat} (hn : 0 < n) (hlt : n < 256) (data : Bytes) :
    unpad n (data ++ List.replicate (n - data.length % n) (UInt8.ofNat (n - data.length % n))) =
      some (.ok data) := by
  have hmod := Nat.mod_lt data.length hn
  have hblocks := length_padded hn data
  generalize hdef : n - data.length % n = pad at hblocks ⊢
  have hpad : 0 < pad ∧ pad ≤ n := by
    constructor <;> omega
  have hbyte : (UInt8.ofNat pad).toNat = pad := UInt8.toNat_ofNat_of_lt (by show pad < 256; omega)
  have hlen : (data ++ List.replicate pad (UInt8.ofNat pad)).length = data.length + pad := by simp
  have hlast : (data ++ List.replicate pad (UInt8.ofNat pad)).getD (data.length + pad - 1) 0 =
      UInt8.ofNat pad := by
    rw [List.getD_eq_getElem?_getD, List.getElem?_append_right (by omega)]
    simp [List.getElem?_replicate, show data.length + pad - 1 - data.length < pad by omega]
  unfold unpad
  dsimp only
  rw [hlen, hlast, hbyte, Nat.add_sub_cancel, List.drop_left, List.take_left,
    if_neg (by rw [hblocks, Nat.mul_mod_left]; omega), if_neg (by omega), if_neg (by omega)]
  simp [hbyte]

/-- The two halves of `name,rest` around its first comma, as `DecryptPEMBlock` slices them. -/
theorem slice_dekInfo (name rest : Bytes) :
    slice (name ++ lit "," ++ rest) 0 name.length = some name ∧
      slice (name ++ lit "," ++ rest) (name.length + 1) (name ++ lit "," ++ rest).length =
        some rest := by
  have hlen : (name ++ lit "," ++ rest).length = name.length + 1 + rest.length := by
    simp [lit]; omega
  have hsplit : name ++ lit "," ++ rest = (name ++ [44]) ++ rest := rfl
  constructor
  · simpa [List.append_assoc] using
      slice_natCast (s := name ++ lit "," ++ rest) (Nat.zero_le name.length) (by omega)
  · rw [show ((name.length : Int) + 1) = ((name.length + 1 : Nat) : Int) by omega,
      slice_natCast (by omega) le_rfl, hlen, hsplit, List.drop_left' (by simp),
      List.take_of_length_le (by omega)]

/-- The padding check never panics, and what it accepts is the data less a run of `k` bytes
holding `k`, for some `k` from one to the block size. -/
theorem unpad_spec (n : Nat) (data : Bytes) :
    ∃ r, unpad n data = some r ∧
      ∀ d, r = .ok d → ∃ k, 1 ≤ k ∧ k ≤ n ∧ data = d ++ List.replicate k (UInt8.ofNat k) := by
  unfold unpad decryptFailure
  dsimp only
  split_ifs with h0 h1 h2 h3 <;> try exact ⟨_, rfl, fun _ h => Except.noConfusion h⟩
  refine ⟨_, rfl, fun d hd => ?_⟩
  cases hd
  generalize hlast : (data.getD (data.length - 1) 0).toNat = last at *
  refine ⟨last, by omega, by omega, ?_⟩
  conv_lhs => rw [← List.take_append_drop (data.length - last) data]
  refine congrArg _ (List.eq_replicate_iff.mpr ⟨by simp; omega, fun b hb => ?_⟩)
  rw [← (beq_iff_eq.mp (List.all_eq_true.mp h3 b hb))]
  exact UInt8.toNat.inj (UInt8.toNat_ofNat_of_lt b.val.isLt).symm

/-- Any header with a comma splits at its first one, both slices in range. -/
theorem slice_index_comma {dek : Bytes} {a : Nat} (ha : indexOf? (lit ",") dek = some a) :
    slice dek 0 a = some (dek.take a) ∧ slice dek (a + 1) dek.length = some (dek.drop (a + 1)) ∧
      dek = dek.take a ++ lit "," ++ dek.drop (a + 1) := by
  have hlen := indexOf?_add_length_le (by decide) ha
  obtain ⟨rest, hrest⟩ := (indexOf?_eq_some ha).1
  refine ⟨slice_zero_left (by omega), by exact_mod_cast slice_to_length hlen, ?_⟩
  rw [← List.drop_drop, ← hrest]
  conv_lhs => rw [← List.take_append_drop a dek, ← hrest]
  rw [List.append_assoc]
  rfl

/-! ### The round trip -/

/-- `DecryptPEMBlock` with the password gives back what `EncryptPEMBlock` encrypted: for every
algorithm of the table, block type, data, password and random source yielding a block's worth of
bytes, whatever lawful digest and block ciphers the primitives are. -/
theorem decryptPEMBlock_encryptPEMBlock (P : Primitives) {alg : Rfc1423Algo}
    (halg : alg ∈ rfc1423Algos P) (rand blockType data password : Bytes)
    (hrand : alg.blockSize ≤ rand.length) :
    ∃ b, encryptPEMBlock P rand blockType data password alg.cipher = some (.ok b) ∧
      decryptPEMBlock P (some b) password = some (.ok data) := by
  have ha := Rfc1423Algo.sound_of_mem halg
  have hn : 0 < alg.blockSize := by have := ha.blockSize_ge; omega
  -- the IV, its first eight bytes as the salt, and the cipher of the derived key
  have hiv : (rand.take alg.blockSize).length = alg.blockSize := by simp [hrand]
  have hsalt : slice (rand.take alg.blockSize) 0 8 = some ((rand.take alg.blockSize).take 8) := by
    simpa using slice_natCast (s := rand.take alg.blockSize) (Nat.zero_le 8)
      (by rw [hiv]; exact ha.blockSize_ge)
  obtain ⟨block, hblock, hbs⟩ := ha.cipherFunc_ok _
    (alg.length_deriveKey P.md5 password ((rand.take alg.blockSize).take 8))
  -- the padded data is whole blocks, which CBC encrypts and decrypts back
  have hpadded : (data ++ List.replicate (alg.blockSize - data.length % alg.blockSize)
      (UInt8.ofNat (alg.blockSize - data.length % alg.blockSize))).length =
      (data.length / alg.blockSize + 1) * block.blockSize := by
    simpa [hbs] using length_padded hn data
  obtain ⟨hlen, hinv⟩ := block.cbcDecrypt_cbcEncrypt _ (hiv.trans hbs.symm) hpadded
  have hwhole : ∀ l : Bytes, l.length = (data.length / alg.blockSize + 1) * block.blockSize →
      l.length % block.blockSize = 0 := fun l hl => by rw [hl, Nat.mul_mod_left]
  refine ⟨⟨blockType, ((∅ : GoMap Bytes).insert (lit "Proc-Type") (lit "4,ENCRYPTED")).insert
    (lit "DEK-Info") (alg.name ++ lit "," ++ Hex.encodeToString (rand.take alg.blockSize)),
    block.cbcEncrypt (rand.take alg.blockSize) (data ++ List.replicate
      (alg.blockSize - data.length % alg.blockSize)
      (UInt8.ofNat (alg.blockSize - data.length % alg.blockSize)))⟩, ?_, ?_⟩
  · simp only [encryptPEMBlock, ha.byKey, readFull, if_pos hrand, hsalt, Option.some_bind, hblock,
      Block.cbcEncrypter, if_pos (And.intro (hiv.trans hbs.symm) (hwhole _ hpadded)),
      Option.map_some']
  · obtain ⟨hmode, hhexIV⟩ := slice_dekInfo alg.name (Hex.encodeToString (rand.take alg.blockSize))
    have hidx := index_comma (Hex.encodeToString (rand.take alg.blockSize)) ha.comma_not_mem
    have hmod := hwhole _ (hlen.trans hpadded)
    rw [hbs] at hmod
    simp only [decryptPEMBlock, AList.lookup_insert, hidx,
      if_neg (show (alg.name.length : Int) ≠ -1 by omega), hmode, hhexIV, Option.some_bind,
      ha.byName, Hex.decodeString_encodeToString, hiv, ne_eq, not_true_eq_false, if_false, hsalt,
      hblock, hbs, hmod, Block.cbcDecrypter, and_self, if_true, hinv]
    exact unpad_padded hn (by have := ha.blockSize_lt; omega) data

/-! ### Any block -/

/-- `DecryptPEMBlock` is total on every block and password: every slice is in range and CBC gets an
IV and data of whole blocks of its cipher, so it never panics.  What it accepts is the CBC
decryption, under the algorithm and IV of the `DEK-Info` header and the key derived from the
password, of the block's bytes less a run of `k` bytes holding `k`, `k` from one to the block
size. -/
theorem decryptPEMBlock_total (P : Primitives) (b : PemBlock) (password : Bytes) :
    ∃ r, decryptPEMBlock P (some b) password = some r ∧
      ∀ data, r = .ok data → ∃ mode hexIV ciph iv block k,
        b.headers.lookup (lit "DEK-Info") = some (mode ++ lit "," ++ hexIV) ∧
        cipherByName P mode = some ciph ∧ Hex.decodeString hexIV = .ok iv ∧
        ciph.cipherFunc (ciph.deriveKey P.md5 password (iv.take 8)) = .ok block ∧
        iv.length = block.blockSize ∧ b.bytes.length % block.blockSize = 0 ∧
        1 ≤ k ∧ k ≤ ciph.blockSize ∧
        block.cbcDecrypt iv b.bytes = data ++ List.replicate k (UInt8.ofNat k) := by
  simp only [decryptPEMBlock]
  cases hdek : b.headers.lookup (lit "DEK-Info") with
  | none => exact ⟨_, rfl, fun _ h => Except.noConfusion h⟩
  | some dek =>
    dsimp only
    by_cases hidx : index dek (lit ",") = -1
    · rw [if_pos hidx]
      exact ⟨_, rfl, fun _ h => Except.noConfusion h⟩
    rw [if_neg hidx]
    obtain ⟨a, ha, hidx'⟩ := indexOf?_of_index_ne hidx
    obtain ⟨hmode, hhexIV, hsplit⟩ := slice_index_comma ha
    rw [hidx', hmode, hhexIV, Option.some_bind, Option.some_bind]
    cases hc : cipherByName P (dek.take a) with
    | none => exact ⟨_, rfl, fun _ h => Except.noConfusion h⟩
    | some ciph =>
      have hs := Rfc1423Algo.sound_of_mem (List.mem_of_find?_eq_some hc)
      cases hiv : Hex.decodeString (dek.drop (a + 1)) with
      | error e => exact ⟨_, rfl, fun _ h => Except.noConfusion h⟩
      | ok iv =>
        dsimp only
        by_cases hivlen : iv.length ≠ ciph.blockSize
        · rw [if_pos hivlen]
          exact ⟨_, rfl, fun _ h => Except.noConfusion h⟩
        rw [if_neg hivlen]
        -- the salt is in range, and the derived key makes a cipher of the IV's block size
        have hge := hs.blockSize_ge
        have hsalt : slice iv 0 8 = some (iv.take 8) := slice_zero_left (n := 8) (by omega)
        obtain ⟨block, hblock, hbs⟩ :=
          hs.cipherFunc_ok _ (ciph.length_deriveKey P.md5 password (iv.take 8))
        rw [hsalt, Option.some_bind, hblock]
        dsimp only
        by_cases hmod : b.bytes.length % block.blockSize ≠ 0
        · rw [if_pos hmod]
          exact ⟨_, rfl, fun _ h => Except.noConfusion h⟩
        rw [if_neg hmod]
        rw [Block.cbcDecrypter, if_pos ⟨by omega, by omega⟩, Option.some_bind]
        obtain ⟨r, hr, hok⟩ := unpad_spec ciph.blockSize (block.cbcDecrypt iv b.bytes)
        refine ⟨r, hr, fun data hd => ?_⟩
        obtain ⟨k, hk1, hk2, heq⟩ := hok data hd
        exact ⟨_, _, ciph, iv, block, k, congrArg some hsplit, hc, hiv, hblock, by omega,
          by omega, hk1, hk2, heq⟩

/-- A block cipher that leaves each block as it is. -/
def identityBlock (n : Nat) (hn : 0 < n) : Block :=
  ⟨n, id, id, hn, fun _ h => h, fun _ _ => rfl⟩

/-- Primitives with identity ciphers and a constant digest: no protection, but lawful. -/
def identityPrimitives : Primitives :=
  ⟨⟨fun _ => List.replicate 16 0, fun _ => List.length_replicate _ _⟩,
    fun _ => identityBlock 8 (by decide), fun _ => identityBlock 8 (by decide),
    fun _ => identityBlock 16 (by decide), fun _ => rfl, fun _ => rfl, fun _ => rfl⟩

theorem decryptPEMBlock_encryptPEMBlock_des :
    (⟨pemCipherDES, lit "DES-CBC", desNewCipher identityPrimitives, 8, desBlockSize⟩ : Rfc1423Algo) ∈
        rfc1423Algos identityPrimitives ∧
      desBlockSize ≤ (List.replicate 8 (7 : UInt8)).length ∧
      ∃ b, encryptPEMBlock identityPrimitives (List.replicate 8 7) (lit "RSA PRIVATE KEY")
          (lit "secret") (lit "password") pemCipherDES = some (.ok b) ∧
        decryptPEMBlock identityPrimitives (some b) (lit "password") = some (.ok (lit "secret")) :=
  ⟨List.mem_cons_self _ _, le_rfl, decryptPEMBlock_encryptPEMBlock identityPrimitives
    (List.mem_cons_self _ _) _ _ _ _ le_rfl⟩

end Toolbox.Crypto
