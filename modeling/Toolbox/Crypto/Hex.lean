import Toolbox.Go.Strings

/-
Package `encoding/hex` as the PEM encryption uses it for the IV of the `DEK-Info` header:
`EncodeToString` writes each byte as two lower-case digits, high half first, and `DecodeString`
reads them back.
-/

namespace Toolbox.Crypto.Hex

/-- `hextable`. -/
def hextable : Bytes := lit "0123456789abcdef"

/-- The value of a hex digit in either case, as `reverseHexTable` gives it, or `none` for a byte
that table marks invalid. -/
def fromHexChar (c : UInt8) : Option Nat :=
  if 48 ≤ c.toNat ∧ c.toNat ≤ 57 then some (c.toNat - 48)
  else if 97 ≤ c.toNat ∧ c.toNat ≤ 102 then some (c.toNat - 97 + 10)
  else if 65 ≤ c.toNat ∧ c.toNat ≤ 70 then some (c.toNat - 65 + 10)
  else none

/-- The errors of `DecodeString`: `ErrLength` and `InvalidByteError`. -/
inductive HexError where
  | length
  | invalidByte (b : UInt8)
deriving DecidableEq, Repr

/-- `EncodeToString`: `hextable[v>>4]` then `hextable[v&0x0f]` for each byte `v`. -/
def encodeToString (src : Bytes) : Bytes :=
  src.flatMap fun v => [hextable.getD (v.toNat >>> 4) 0, hextable.getD (v.toNat &&& 0x0f) 0]

/-- `DecodeString`: two digits a byte, `(a << 4) | b`; an invalid digit is reported before an odd
length. -/
def decodeString : Bytes → Except HexError Bytes
  | [] => .ok []
  | [p] => if (fromHexChar p).isSome then .error .length else .error (.invalidByte p)
  | p :: q :: rest =>
    match fromHexChar p, fromHexChar q with
    | none, _ => .error (.invalidByte p)
    | _, none => .error (.invalidByte q)
    | some a, some b => (decodeString rest).map (UInt8.ofNat (16 * a + b) :: ·)

theorem fromHexChar_hextable : ∀ d < 16, fromHexChar (hextable.getD d 0) = some d := by
  decide

theorem high_lt (v : UInt8) : v.toNat >>> 4 < 16 := by
  have := v.toBitVec.isLt
  rw [Nat.shiftRight_eq_div_pow]
  show v.toNat / 16 < 16
  exact Nat.div_lt_of_lt_mul (by simpa using this)

theorem low_eq_mod (v : UInt8) : v.toNat &&& 0x0f = v.toNat % 16 :=
  Nat.and_pow_two_sub_one_eq_mod v.toNat 4

theorem ofNat_halves (v : UInt8) :
    UInt8.ofNat (16 * (v.toNat >>> 4) + (v.toNat &&& 0x0f)) = v := by
  rw [low_eq_mod, Nat.shiftRight_eq_div_pow, show 2 ^ 4 = 16 from rfl, Nat.div_add_mod]
  apply UInt8.toNat.inj
  exact UInt8.toNat_ofNat_of_lt v.toBitVec.isLt

/-- `DecodeString` reads back what `EncodeToString` wrote. -/
theorem decodeString_encodeToString (src : Bytes) :
    decodeString (encodeToString src) = .ok src := by
  induction src with
  | nil => rfl
  | cons v rest ih =>
    have hhigh := fromHexChar_hextable _ (high_lt v)
    have hlow := fromHexChar_hextable _ (by rw [low_eq_mod]; omega : v.toNat &&& 0x0f < 16)
    show decodeString (hextable.getD (v.toNat >>> 4) 0 :: hextable.getD (v.toNat &&& 0x0f) 0 ::
      encodeToString rest) = .ok (v :: rest)
    simp only [decodeString, hhigh, hlow, ih, Except.map, ofNat_halves]

end Toolbox.Crypto.Hex
