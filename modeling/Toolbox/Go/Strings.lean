import Mathlib.Data.List.AList
import Mathlib.Data.List.Infix
import Mathlib.Algebra.Group.Nat.Basic

/-
Go strings and byte slices as lists of bytes, maps with string keys as association lists, with
the functions of the `strings` and `strconv` packages and the slice operations the toolbox
uses.  A model of Go code that can panic returns an `Option`, and `none` is the panic.
-/

namespace Toolbox

/-- Equality of results, so that the model's fallible functions can be evaluated by `decide`. -/
instance decidableEqExcept {ε α : Type} [DecidableEq ε] [DecidableEq α] :
    DecidableEq (Except ε α)
  | .error a, .error b => decidable_of_iff (a = b) (by simp)
  | .ok a, .ok b => decidable_of_iff (a = b) (by simp)
  | .error _, .ok _ => isFalse (by simp)
  | .ok _, .error _ => isFalse (by simp)

/-- A Go `string` or `[]byte`. -/
abbrev Bytes := List UInt8

/-- A Go map with string keys; Go ranges over it in an unspecified order, here the list's. -/
abbrev GoMap (ν : Type) := AList (fun _ : Bytes => ν)

/-- An ASCII literal of the source, as the bytes Go stores for it. -/
def lit (s : String) : Bytes := s.toList.map Char.toUInt8

namespace Strings

/-- The offset of the first occurrence of `sep` in `s`, if there is one. -/
def indexOf? (sep s : Bytes) : Option Nat :=
  if sep.isPrefixOf s then some 0
  else match s with
    | [] => none
    | _ :: rest => (indexOf? sep rest).map (· + 1)

/-- `strings.Index(s, sep)`: the byte offset of the first `sep` in `s`, or `-1`. -/
def index (s sep : Bytes) : Int :=
  match indexOf? sep s with
  | some n => n
  | none => -1

/-- `strings.Count(s, sep)` for the one-byte separators the toolbox passes: the number of
bytes of `s` equal to that byte. -/
def count (s sep : Bytes) : Nat := s.count (sep.headD 0)

/-- `s[lo:hi]`, which panics unless `0 ≤ lo ≤ hi ≤ len(s)`. -/
def slice (s : Bytes) (lo hi : Int) : Option Bytes :=
  if 0 ≤ lo ∧ lo ≤ hi ∧ hi ≤ s.length then some ((s.drop lo.toNat).take (hi - lo).toNat)
  else none

/-- `s` with its first occurrence of `pat` replaced by `rep`: what splicing a parameter into a
placeholder is meant to produce. -/
def replaceFirst (pat rep s : Bytes) : Bytes :=
  if pat.isPrefixOf s then rep ++ s.drop pat.length
  else match s with
    | [] => []
    | b :: rest => b :: replaceFirst pat rep rest

/-- `strings.ToLower` on the ASCII locale names and rule names the toolbox lowers: each byte
`A`..`Z` becomes `a`..`z`; every other byte is kept. -/
def toLower (s : Bytes) : Bytes :=
  s.map fun b => if 65 ≤ b ∧ b ≤ 90 then b + 32 else b

theorem indexOf?_eq_some {sep s : Bytes} {n : Nat} (h : indexOf? sep s = some n) :
    sep <+: s.drop n ∧ ∀ m < n, ¬ sep <+: s.drop m := by
  induction s generalizing n with
  | nil =>
      unfold indexOf? at h
      split at h
      · cases h
        exact ⟨List.isPrefixOf_iff_prefix.mp ‹_›, by simp⟩
      · cases h
  | cons b rest ih =>
      unfold indexOf? at h
      split at h
      · cases h
        exact ⟨List.isPrefixOf_iff_prefix.mp ‹_›, by simp⟩
      · rename_i hnot
        obtain ⟨k, hk, rfl⟩ := Option.map_eq_some'.mp h
        obtain ⟨hpre, hmin⟩ := ih hk
        refine ⟨by simpa using hpre, fun m hm => ?_⟩
        cases m with
        | zero => simpa [← List.isPrefixOf_iff_prefix] using hnot
        | succ m => simpa using hmin m (by omega)

theorem indexOf?_eq_none {sep s : Bytes} (h : indexOf? sep s = none) (m : Nat) :
    ¬ sep <+: s.drop m := by
  induction s generalizing m with
  | nil =>
      unfold indexOf? at h
      split at h
      · cases h
      · rename_i hnot
        simpa [← List.isPrefixOf_iff_prefix] using hnot
  | cons b rest ih =>
      unfold indexOf? at h
      split at h
      · cases h
      · rename_i hnot
        cases m with
        | zero => simpa [← List.isPrefixOf_iff_prefix] using hnot
        | succ m => simpa using ih (Option.map_eq_none'.mp h) m

/-- An offset where the separator starts, before which it starts nowhere, is its first
occurrence. -/
theorem indexOf?_eq_some_of_first {sep s : Bytes} {n : Nat} (h : sep <+: s.drop n)
    (hmin : ∀ m < n, ¬ sep <+: s.drop m) : indexOf? sep s = some n := by
  cases hs : indexOf? sep s with
  | none => exact absurd h (indexOf?_eq_none hs n)
  | some k =>
    obtain ⟨hk, hkmin⟩ := indexOf?_eq_some hs
    rcases Nat.lt_trichotomy k n with hlt | rfl | hgt
    · exact absurd hk (hmin k hlt)
    · rfl
    · exact absurd h (hkmin n hgt)

/-- The first occurrence of a non-empty separator lies inside the string. -/
theorem indexOf?_add_length_le {sep s : Bytes} {n : Nat} (hsep : sep ≠ [])
    (h : indexOf? sep s = some n) : n + sep.length ≤ s.length := by
  have hlen := (indexOf?_eq_some h).1.length_le
  have hpos : 0 < sep.length := List.length_pos.mpr hsep
  simp only [List.length_drop] at hlen
  omega

theorem indexOf?_singleton_cons (y x : UInt8) (s : Bytes) :
    indexOf? [y] (x :: s) = if x = y then some 0 else (indexOf? [y] s).map (· + 1) := by
  rw [indexOf?]
  by_cases h : x = y
  · simp [h, List.isPrefixOf]
  · simp [h, Ne.symm h, List.isPrefixOf]

/-- A byte is first found at the end of the longest prefix without it. -/
theorem indexOf?_singleton_append {y : UInt8} {a : Bytes} (ha : y ∉ a) (b : Bytes) :
    indexOf? [y] (a ++ y :: b) = some a.length := by
  induction a with
  | nil => simp [indexOf?_singleton_cons]
  | cons x a ih =>
    rw [List.mem_cons, not_or] at ha
    rw [List.cons_append, indexOf?_singleton_cons, if_neg (Ne.symm ha.1), ih ha.2]
    rfl

theorem indexOf?_singleton_eq_none {y : UInt8} {s : Bytes} : indexOf? [y] s = none ↔ y ∉ s := by
  induction s with
  | nil => simp [indexOf?]
  | cons x s ih =>
    rw [indexOf?_singleton_cons]
    split_ifs with h
    · simp [h]
    · simp [ih, Ne.symm h]

theorem exists_of_indexOf?_singleton {y : UInt8} {s : Bytes} {i : Nat}
    (h : indexOf? [y] s = some i) : ∃ a b, s = a ++ y :: b ∧ y ∉ a ∧ i = a.length := by
  induction s generalizing i with
  | nil => simp [indexOf?] at h
  | cons x s ih =>
    rw [indexOf?_singleton_cons] at h
    split_ifs at h with hx
    · cases h
      exact ⟨[], s, by simp [hx], List.not_mem_nil y, rfl⟩
    · obtain ⟨j, hj, rfl⟩ := Option.map_eq_some'.1 h
      obtain ⟨a, b, rfl, ha, rfl⟩ := ih hj
      exact ⟨x :: a, b, rfl, by simp [ha, Ne.symm hx], rfl⟩

theorem index_eq_neg_one_iff {s sep : Bytes} : index s sep = -1 ↔ indexOf? sep s = none := by
  unfold index
  split <;> simp_all

theorem index_eq_of_indexOf? {s sep : Bytes} {n : Nat} (h : indexOf? sep s = some n) :
    index s sep = n := by
  simp [index, h]

theorem indexOf?_of_index_ne {s sep : Bytes} (h : index s sep ≠ -1) :
    ∃ n : Nat, indexOf? sep s = some n ∧ index s sep = n := by
  cases hn : indexOf? sep s with
  | none => exact absurd (index_eq_neg_one_iff.mpr hn) h
  | some n => exact ⟨n, rfl, index_eq_of_indexOf? hn⟩

/-- A slice whose bounds are in range does not panic. -/
theorem slice_natCast {s : Bytes} {lo hi : Nat} (hlo : lo ≤ hi) (hhi : hi ≤ s.length) :
    slice s lo hi = some ((s.drop lo).take (hi - lo)) := by
  unfold slice
  rw [if_pos (by omega)]
  congr
  omega

theorem slice_zero_left {s : Bytes} {n : Nat} (h : n ≤ s.length) :
    slice s 0 n = some (s.take n) := by
  simpa using slice_natCast (s := s) (Nat.zero_le n) h

theorem slice_to_length {s : Bytes} {n : Nat} (h : n ≤ s.length) :
    slice s n s.length = some (s.drop n) := by
  rw [slice_natCast h le_rfl, List.take_of_length_le (by simp)]

/-- A slice whose bounds are reversed panics. -/
theorem slice_eq_none_of_lt {s : Bytes} {lo hi : Int} (h : hi < lo) : slice s lo hi = none := by
  unfold slice
  rw [if_neg (by omega)]

/-- The slice at the first occurrence of a separator is the separator. -/
theorem slice_indexOf? {sep s : Bytes} {n : Nat} (hsep : sep ≠ [])
    (h : indexOf? sep s = some n) :
    slice s n (n + sep.length : Nat) = some sep := by
  rw [slice_natCast (by omega) (indexOf?_add_length_le hsep h), Nat.add_sub_cancel_left]
  exact congrArg some (List.prefix_iff_eq_take.mp (indexOf?_eq_some h).1).symm

theorem replaceFirst_of_indexOf? {pat rep s : Bytes} {n : Nat} (h : indexOf? pat s = some n) :
    replaceFirst pat rep s = s.take n ++ rep ++ s.drop (n + pat.length) := by
  induction s generalizing n with
  | nil =>
      unfold indexOf? at h
      unfold replaceFirst
      split at h
      · cases h
        simp [*]
      · cases h
  | cons b rest ih =>
      unfold indexOf? at h
      unfold replaceFirst
      split at h
      · cases h
        simp [*]
      · obtain ⟨k, hk, rfl⟩ := Option.map_eq_some'.mp h
        simp [*, Nat.add_right_comm k 1]

theorem replaceFirst_of_indexOf?_none {pat rep s : Bytes} (h : indexOf? pat s = none) :
    replaceFirst pat rep s = s := by
  induction s with
  | nil =>
      unfold indexOf? at h
      unfold replaceFirst
      split at h <;> simp_all
  | cons b rest ih =>
      unfold indexOf? at h
      unfold replaceFirst
      split at h
      · cases h
      · simp_all

end Strings

namespace Strconv

/-- `strconv.Itoa` on the non-negative loop counters the toolbox passes it. -/
def itoa (i : Nat) : Bytes := (Nat.toDigits 10 i).map Char.toUInt8

/-- The number a list of decimal digit bytes spells, most significant first. -/
def decimalValue : Bytes → Nat
  | [] => 0
  | b :: s => (b.toNat - 48) * 10 ^ s.length + decimalValue s

theorem digitChar_toUInt8 : ∀ k < 10, (Nat.digitChar k).toUInt8.toNat = 48 + k := by
  decide

/-- One step of core's digit loop, stated here so that proofs need not unfold it. -/
theorem toDigitsCore_succ (fuel n : Nat) (ds : List Char) :
    Nat.toDigitsCore 10 (fuel + 1) n ds =
      if n / 10 = 0 then Nat.digitChar (n % 10) :: ds
      else Nat.toDigitsCore 10 fuel (n / 10) (Nat.digitChar (n % 10) :: ds) :=
  rfl

theorem toDigitsCore_decimal (fuel : Nat) : ∀ (n : Nat) (ds : List Char), n < fuel →
    decimalValue ((Nat.toDigitsCore 10 fuel n ds).map Char.toUInt8) =
      n * 10 ^ ds.length + decimalValue (ds.map Char.toUInt8) ∧
    ((∀ b ∈ ds.map Char.toUInt8, 48 ≤ b.toNat ∧ b.toNat < 58) →
      ∀ b ∈ (Nat.toDigitsCore 10 fuel n ds).map Char.toUInt8, 48 ≤ b.toNat ∧ b.toNat < 58) := by
  induction fuel with
  | zero => intro n ds h; omega
  | succ fuel ih =>
    intro n ds hn
    have hd := digitChar_toUInt8 (n % 10) (Nat.mod_lt _ (by decide))
    rw [toDigitsCore_succ]
    split
    · next h0 =>
      refine ⟨?_, fun hds b hb => ?_⟩
      · rw [List.map_cons, decimalValue, hd, List.length_map]
        have : n % 10 = n := Nat.mod_eq_of_lt (by omega)
        rw [Nat.add_sub_cancel_left, this]
      · rw [List.map_cons, List.mem_cons] at hb
        rcases hb with rfl | hb
        · omega
        · exact hds b hb
    · next h0 =>
      have hlt : n / 10 < fuel := by omega
      obtain ⟨hval, hdig⟩ := ih (n / 10) (Nat.digitChar (n % 10) :: ds) hlt
      refine ⟨?_, fun hds => hdig fun b hb => ?_⟩
      · rw [hval, List.map_cons, decimalValue, hd, List.length_map, List.length_cons,
          Nat.add_sub_cancel_left, ← Nat.add_assoc]
        congr 1
        calc n / 10 * 10 ^ (ds.length + 1) + n % 10 * 10 ^ ds.length
            = (10 * (n / 10) + n % 10) * 10 ^ ds.length := by
              rw [Nat.pow_succ, Nat.add_mul, Nat.mul_comm (10 ^ ds.length) 10, ← Nat.mul_assoc,
                Nat.mul_comm (n / 10) 10]
          _ = n * 10 ^ ds.length := by rw [Nat.div_add_mod]
      · rw [List.map_cons, List.mem_cons] at hb
        rcases hb with rfl | hb
        · omega
        · exact hds b hb

theorem decimalValue_itoa (i : Nat) : decimalValue (itoa i) = i := by
  have := (toDigitsCore_decimal (i + 1) i [] (by omega)).1
  simpa [decimalValue] using this

theorem itoa_injective {i j : Nat} (h : itoa i = itoa j) : i = j := by
  rw [← decimalValue_itoa i, h, decimalValue_itoa]

theorem digit_of_mem_itoa {i : Nat} {b : UInt8} (hb : b ∈ itoa i) : 48 ≤ b.toNat ∧ b.toNat < 58 :=
  (toDigitsCore_decimal (i + 1) i [] (by omega)).2 (by simp) b hb

end Strconv

/-- `xs[i]` of a Go slice; `none` when `i` is out of range, which panics. -/
def sliceAt {α : Type} (xs : List α) (i : Int) : Option α :=
  if 0 ≤ i then xs[i.toNat]? else none

/-- `xs[i] = v` on a Go slice; `none` when `i` is out of range, which panics. -/
def sliceSet {α : Type} (xs : List α) (i : Int) (v : α) : Option (List α) :=
  if 0 ≤ i ∧ i.toNat < xs.length then some (xs.set i.toNat v) else none

theorem sliceSet_eq_some {α : Type} {xs ys : List α} {i : Int} {v : α}
    (h : sliceSet xs i v = some ys) :
    0 ≤ i ∧ i.toNat < xs.length ∧ ys = xs.set i.toNat v := by
  unfold sliceSet at h
  split at h
  · cases h
    exact ⟨‹_ ∧ _›.1, ‹_ ∧ _›.2, rfl⟩
  · cases h

end Toolbox
