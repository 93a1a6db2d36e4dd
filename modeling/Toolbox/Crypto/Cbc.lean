import Toolbox.Go.Strings

/-
Cipher block chaining (`cipher.NewCBCEncrypter`, `cipher.NewCBCDecrypter`) over an abstract block
cipher.  The cipher is a keyed permutation of its blocks: decrypting an encrypted block gives the
block back.  Chaining each block with the previous ciphertext keeps that inverse.
-/

namespace Toolbox.Crypto

/-- `cipher.Block`: a permutation of `blockSize`-byte blocks, with its inverse. -/
structure Block where
  blockSize : Nat
  encrypt : Bytes → Bytes
  decrypt : Bytes → Bytes
  blockSize_pos : 0 < blockSize
  encrypt_length : ∀ src, src.length = blockSize → (encrypt src).length = blockSize
  decrypt_encrypt : ∀ src, src.length = blockSize → decrypt (encrypt src) = src

/-- `subtle.XORBytes` on two blocks. -/
def xorBytes (a b : Bytes) : Bytes := List.zipWith (· ^^^ ·) a b

theorem UInt8.xor_xor_cancel (a b : UInt8) : a ^^^ b ^^^ b = a := by
  apply UInt8.eq_of_toBitVec_eq
  show a.toBitVec ^^^ b.toBitVec ^^^ b.toBitVec = a.toBitVec
  rw [BitVec.xor_assoc, BitVec.xor_self, BitVec.xor_zero]

theorem xorBytes_xorBytes {a b : Bytes} (h : a.length = b.length) :
    xorBytes (xorBytes a b) b = a := by
  induction a generalizing b with
  | nil => rfl
  | cons x a ih =>
    cases b with
    | nil => cases h
    | cons y b =>
      simp only [xorBytes, List.zipWith_cons_cons] at ih ⊢
      rw [UInt8.xor_xor_cancel, ih (by simpa using h)]

theorem length_xorBytes {a b : Bytes} (h : a.length = b.length) : (xorBytes a b).length = a.length := by
  simp [xorBytes, h]

namespace Block

variable (b : Block)

/-- The chaining of `CryptBlocks` on a CBC encrypter: each block is xored with the previous
ciphertext block, the IV first, and encrypted. -/
def cbcEncrypt (prev src : Bytes) : Bytes :=
  if src = [] then []
  else
    let c := b.encrypt (xorBytes (src.take b.blockSize) prev)
    c ++ cbcEncrypt c (src.drop b.blockSize)
termination_by src.length
decreasing_by
  have := b.blockSize_pos
  cases src with
  | nil => contradiction
  | cons => simp; omega

/-- The chaining of `CryptBlocks` on a CBC decrypter: each block is decrypted and xored with the
previous ciphertext block, the IV first. -/
def cbcDecrypt (prev src : Bytes) : Bytes :=
  if src = [] then []
  else
    let c := src.take b.blockSize
    xorBytes (b.decrypt c) prev ++ cbcDecrypt c (src.drop b.blockSize)
termination_by src.length
decreasing_by
  have := b.blockSize_pos
  cases src with
  | nil => contradiction
  | cons => simp; omega

/-- `cipher.NewCBCEncrypter(b, iv).CryptBlocks`; `none` for its panics on an IV that is not one
block long and on input that is not whole blocks. -/
def cbcEncrypter (iv src : Bytes) : Option Bytes :=
  if iv.length = b.blockSize ∧ src.length % b.blockSize = 0 then some (b.cbcEncrypt iv src)
  else none

/-- `cipher.NewCBCDecrypter(b, iv).CryptBlocks`, with the same panics. -/
def cbcDecrypter (iv src : Bytes) : Option Bytes :=
  if iv.length = b.blockSize ∧ src.length % b.blockSize = 0 then some (b.cbcDecrypt iv src)
  else none

variable {b}

theorem cbcEncrypt_nil (prev : Bytes) : b.cbcEncrypt prev [] = [] := by
  rw [cbcEncrypt, if_pos rfl]

theorem cbcDecrypt_nil (prev : Bytes) : b.cbcDecrypt prev [] = [] := by
  rw [cbcDecrypt, if_pos rfl]

/-- On `k` whole blocks, CBC encryption keeps the length and CBC decryption with the same IV
undoes it. -/
theorem cbcDecrypt_cbcEncrypt (k : Nat) :
    ∀ {prev src : Bytes}, prev.length = b.blockSize → src.length = k * b.blockSize →
      (b.cbcEncrypt prev src).length = src.length ∧
        b.cbcDecrypt prev (b.cbcEncrypt prev src) = src := by
  induction k with
  | zero =>
    intro prev src _ hsrc
    have hnil : src = [] := List.length_eq_zero.mp (by rw [hsrc, Nat.zero_mul])
    subst hnil
    rw [cbcEncrypt_nil, cbcDecrypt_nil]
    exact ⟨rfl, rfl⟩
  | succ k ih =>
    intro prev src hprev hsrc
    have hn := b.blockSize_pos
    rw [Nat.succ_mul] at hsrc
    have hne : src ≠ [] := fun h => by subst h; simp at hsrc; omega
    have htake : (src.take b.blockSize).length = b.blockSize := by
      simp [hsrc]
    have hxor : (xorBytes (src.take b.blockSize) prev).length = b.blockSize := by
      rw [length_xorBytes (htake.trans hprev.symm), htake]
    have hc := b.encrypt_length _ hxor
    have hdrop : (src.drop b.blockSize).length = k * b.blockSize := by
      simp [hsrc]
    obtain ⟨hlen, hinv⟩ := ih hc hdrop
    have henc : b.cbcEncrypt prev src = b.encrypt (xorBytes (src.take b.blockSize) prev) ++
        b.cbcEncrypt (b.encrypt (xorBytes (src.take b.blockSize) prev)) (src.drop b.blockSize) := by
      rw [cbcEncrypt, if_neg hne]
    refine ⟨?_, ?_⟩
    · rw [henc, List.length_append, hlen, hc, hdrop, hsrc]
      omega
    · have hne' : b.cbcEncrypt prev src ≠ [] := by
        rw [henc]
        exact List.append_ne_nil_of_left_ne_nil (fun h => by simp [h] at hc; omega) _
      rw [cbcDecrypt, if_neg hne', henc, List.take_left' hc, List.drop_left' hc]
      dsimp only
      rw [hinv, b.decrypt_encrypt _ hxor, xorBytes_xorBytes (htake.trans hprev.symm),
        List.take_append_drop]

end Block

end Toolbox.Crypto
