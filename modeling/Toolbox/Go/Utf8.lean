import Toolbox.Go.Strings

/-
Go's UTF-8 decoding as the `unicode/utf8` package does it, `unicode.IsSpace`, and the functions
of `strings` that walk a string rune by rune.  A byte that starts no valid sequence decodes as
`utf8.RuneError` of width one, so every decoding step consumes at least one byte; the loops over
runes take the string's length as fuel.
-/

namespace Toolbox

theorem UInt8.eq_iff_toNat (x y : UInt8) : x = y ↔ x.toNat = y.toNat :=
  ⟨fun h => h ▸ rfl, UInt8.toNat.inj⟩

theorem UInt8.le_iff_toNat (x y : UInt8) : x ≤ y ↔ x.toNat ≤ y.toNat :=
  UInt8.le_def.trans BitVec.le_def

theorem UInt8.lt_iff_toNat (x y : UInt8) : x < y ↔ x.toNat < y.toNat :=
  UInt8.lt_def.trans BitVec.lt_def

theorem UInt8.toNat_toUInt8 (n : Nat) : n.toUInt8.toNat = n % 256 :=
  BitVec.toNat_ofNat n 8

namespace Utf8

/-- `utf8.RuneError`, U+FFFD. -/
def runeError : Nat := 0xFFFD

/-- The `first` table for a byte from `0x80` on: the length of the sequence it starts and the
range of the byte after it; `none` for a byte that starts no sequence. -/
def first (b : UInt8) : Option (Nat × UInt8 × UInt8) :=
  if b < 0xC2 then none
  else if b ≤ 0xDF then some (2, 0x80, 0xBF)
  else if b = 0xE0 then some (3, 0xA0, 0xBF)
  else if b ≤ 0xEC then some (3, 0x80, 0xBF)
  else if b = 0xED then some (3, 0x80, 0x9F)
  else if b ≤ 0xEF then some (3, 0x80, 0xBF)
  else if b = 0xF0 then some (4, 0x90, 0xBF)
  else if b ≤ 0xF3 then some (4, 0x80, 0xBF)
  else if b = 0xF4 then some (4, 0x80, 0x8F)
  else none

/-- A continuation byte, `locb` to `hicb`. -/
def isCont (b : UInt8) : Bool := 0x80 ≤ b && b ≤ 0xBF

/-- `utf8.DecodeRuneInString`: the first rune and its width in bytes, `(RuneError, 1)` when the
bytes do not start a valid sequence and `(RuneError, 0)` on the empty string. -/
def decodeRune : Bytes → Nat × Nat
  | [] => (runeError, 0)
  | b :: rest =>
    if b < 0x80 then (b.toNat, 1)
    else match first b with
      | none => (runeError, 1)
      | some (sz, lo, hi) =>
        if rest.length + 1 < sz then (runeError, 1)
        else match rest with
          | s1 :: rest =>
            if s1 < lo || hi < s1 then (runeError, 1)
            else if sz = 2 then (b.toNat % 32 * 64 + s1.toNat % 64, 2)
            else match rest with
              | s2 :: rest =>
                if !isCont s2 then (runeError, 1)
                else if sz = 3 then (b.toNat % 16 * 4096 + s1.toNat % 64 * 64 + s2.toNat % 64, 3)
                else match rest with
                  | s3 :: _ =>
                    if !isCont s3 then (runeError, 1)
                    else (b.toNat % 8 * 262144 + s1.toNat % 64 * 4096 + s2.toNat % 64 * 64 +
                      s3.toNat % 64, 4)
                  | [] => (runeError, 1)
              | [] => (runeError, 1)
          | [] => (runeError, 1)

/-- `utf8.RuneStart`: not a continuation byte. -/
def runeStart (b : UInt8) : Bool := b < 0x80 || 0xC0 ≤ b

/-- `utf8.DecodeLastRuneInString`: the last rune and its width.  It looks back at most four
bytes for a byte that may start a rune, decodes from there, and gives `(RuneError, 1)` unless
that rune ends the string. -/
def decodeLastRune (s : Bytes) : Nat × Nat :=
  match s.getLast? with
  | none => (runeError, 0)
  | some last =>
    if last < 0x80 then (last.toNat, 1)
    else
      let lim := s.length - 4
      -- the loop `for start--; start >= lim; start--` stops at a rune start, else below `lim`
      let start := ((List.range (s.length - 1 - lim)).map (s.length - 2 - ·)).find?
        (fun i => runeStart (s.getD i 0)) |>.getD (lim - 1)
      let (r, size) := decodeRune (s.drop start)
      if start + size ≠ s.length then (runeError, 1) else (r, size)

/-- Where `utf8.ValidString` stands between bytes: between runes, or owing `n` continuation
bytes of which the next lies in `[lo, hi]`. -/
inductive Expect where
  | start
  | cont (n : Nat) (lo hi : UInt8)
deriving DecidableEq, Repr

/-- One byte of `utf8.ValidString`'s loop, or `none` where it returns false. -/
def step : Expect → UInt8 → Option Expect
  | .start, b =>
    if b < 0x80 then some .start
    else (first b).map fun (sz, lo, hi) => .cont (sz - 1) lo hi
  | .cont n lo hi, b =>
    if lo ≤ b ∧ b ≤ hi then some (if n ≤ 1 then .start else .cont (n - 1) 0x80 0xBF) else none

/-- The loop over every byte. -/
def run : Expect → Bytes → Option Expect
  | e, [] => some e
  | e, b :: bs => (step e b).bind (run · bs)

/-- `utf8.ValidString`: the bytes are a sequence of whole, valid UTF-8 encodings. -/
def validString (s : Bytes) : Bool := run .start s == some .start

theorem run_append (e : Expect) (a b : Bytes) : run e (a ++ b) = (run e a).bind (run · b) := by
  induction a generalizing e with
  | nil => rfl
  | cons x a ih =>
    simp only [List.cons_append, run]
    cases step e x with
    | none => rfl
    | some e' => exact ih e'

/-- Every sequence `first` admits owes a continuation byte next. -/
theorem first_lo {b : UInt8} {sz : Nat} {lo hi : UInt8} (h : first b = some (sz, lo, hi)) :
    0x80 ≤ lo := by
  simp only [first, ite_eq_iff, Option.some.injEq, Prod.mk.injEq, reduceCtorEq, false_and,
    false_or, and_false, or_false] at h
  -- each of the eight branches fixes `lo`
  rcases h with ⟨-, ⟨-, -, rfl, -⟩ | ⟨-, ⟨-, -, rfl, -⟩ | ⟨-, ⟨-, -, rfl, -⟩ | ⟨-, ⟨-, -, rfl, -⟩ |
    ⟨-, ⟨-, -, rfl, -⟩ | ⟨-, ⟨-, -, rfl, -⟩ | ⟨-, ⟨-, -, rfl, -⟩ | ⟨-, -, -, rfl, -⟩⟩⟩⟩⟩⟩⟩⟩ <;>
    decide

/-- What the validator can owe after any prefix: continuation bytes, from `0x80` on. -/
def Expect.ContHigh : Expect → Prop
  | .start => True
  | .cont _ lo _ => 0x80 ≤ lo

theorem step_contHigh {e e' : Expect} {b : UInt8} (he : e.ContHigh) (h : step e b = some e') :
    e'.ContHigh := by
  cases e with
  | start =>
    simp only [step] at h
    split_ifs at h
    · cases h; trivial
    · obtain ⟨⟨sz, lo, hi⟩, hf, rfl⟩ := Option.map_eq_some'.mp h
      exact first_lo hf
  | cont n lo hi =>
    simp only [step] at h
    split_ifs at h
    · cases h; trivial
    · cases h; show (0x80 : UInt8) ≤ 0x80; decide

theorem run_contHigh {e e' : Expect} (he : e.ContHigh) :
    ∀ {s : Bytes}, run e s = some e' → e'.ContHigh := by
  intro s
  induction s generalizing e with
  | nil => intro h; cases h; exact he
  | cons b s ih =>
    intro h
    obtain ⟨e₁, h₁, h₂⟩ := Option.bind_eq_some.mp h
    exact ih (step_contHigh he h₁) h₂

/-- A newline can only come between runes. -/
theorem step_newline {e e' : Expect} (he : e.ContHigh) (h : step e 10 = some e') :
    e = .start ∧ e' = .start := by
  cases e with
  | start => exact ⟨rfl, by simpa [step] using h.symm⟩
  | cont n lo hi =>
    simp only [step] at h
    split_ifs at h with hlo <;> exact absurd (UInt8.le_trans he hlo.1) (by decide)

theorem validString_append_newline {a b : Bytes} :
    validString (a ++ 10 :: b) ↔ validString a ∧ validString b := by
  simp only [validString, beq_iff_eq, run_append]
  constructor
  · intro h
    obtain ⟨e, ha, h⟩ := Option.bind_eq_some.mp h
    obtain ⟨e₁, h₁, hb⟩ := Option.bind_eq_some.mp h
    obtain ⟨rfl, rfl⟩ := step_newline (@run_contHigh .start _ trivial _ ha) h₁
    exact ⟨ha, hb⟩
  · rintro ⟨ha, hb⟩
    rw [ha, Option.some_bind]
    exact hb

theorem intercalate_newline_singleton (l : Bytes) : List.intercalate [10] [l] = l := by
  simp [List.intercalate]

theorem intercalate_newline_cons (l l' : Bytes) (ls : List Bytes) :
    List.intercalate [10] (l :: l' :: ls) = l ++ 10 :: List.intercalate [10] (l' :: ls) := by
  simp [List.intercalate, List.intersperse]

/-- Lines joined by newlines are valid exactly when each line is. -/
theorem validString_intercalate_newline :
    ∀ {ls : List Bytes}, validString (List.intercalate [10] ls) ↔ ∀ l ∈ ls, validString l
  | [] => by simp [validString, run]
  | [l] => by simp [intercalate_newline_singleton]
  | l :: l' :: ls => by
    rw [intercalate_newline_cons, validString_append_newline, validString_intercalate_newline]
    simp only [List.forall_mem_cons]

theorem validString_cons_of_lt {b : UInt8} (h : b < 0x80) (s : Bytes) :
    validString (b :: s) = validString s := by
  simp [validString, run, step, h]

/-- Cutting ASCII bytes off the front keeps a string valid. -/
theorem validString_drop {s : Bytes} (hs : validString s) :
    ∀ {k : Nat}, (∀ x ∈ s.take k, x < 0x80) → validString (s.drop k) := by
  induction s with
  | nil => intro k _; simpa using hs
  | cons b s ih =>
    intro k hk
    cases k with
    | zero => exact hs
    | succ k =>
      have hb : b < 0x80 := hk b (List.mem_cons_self _ _)
      rw [validString_cons_of_lt hb] at hs
      exact ih hs fun x hx => hk x (List.mem_cons_of_mem _ hx)

/-- The sequences `first` admits: two bytes from `0xC2`, three from `0xE0` (the second from
`0xA0` after `0xE0`), four from `0xF0` to `0xF4` (the second from `0x90` after `0xF0`), each
continuation byte from `0x80` to `0xBF`. -/
theorem first_cases {b : UInt8} {sz : Nat} {lo hi : UInt8} (h : first b = some (sz, lo, hi)) :
    0x80 ≤ lo.toNat ∧ hi.toNat ≤ 0xBF ∧
      (sz = 2 ∧ 0xC2 ≤ b.toNat ∧ b.toNat ≤ 0xDF ∨
        sz = 3 ∧ 0xE0 ≤ b.toNat ∧ b.toNat ≤ 0xEF ∧ (b.toNat = 0xE0 → 0xA0 ≤ lo.toNat) ∨
        sz = 4 ∧ 0xF0 ≤ b.toNat ∧ b.toNat ≤ 0xF4 ∧ (b.toNat = 0xF0 → 0x90 ≤ lo.toNat)) := by
  simp only [first, ite_eq_iff, Option.some.injEq, Prod.mk.injEq, reduceCtorEq, false_and,
    false_or, and_false, or_false, UInt8.lt_iff_toNat, UInt8.le_iff_toNat,
    UInt8.eq_iff_toNat] at h
  simp only [UInt8.toNat, UInt8.toBitVec_ofNat, BitVec.toNat_ofNat] at h ⊢
  rcases h with ⟨_, ⟨_, rfl, _⟩ | ⟨_, ⟨_, rfl, _⟩ | ⟨_, ⟨_, rfl, _⟩ | ⟨_, ⟨_, rfl, _⟩ |
    ⟨_, ⟨_, rfl, _⟩ | ⟨_, ⟨_, rfl, _⟩ | ⟨_, ⟨_, rfl, _⟩ | ⟨_, _, rfl, _⟩⟩⟩⟩⟩⟩⟩⟩ <;> omega

theorem isCont_of_lt {x : UInt8} (hx : x < 0x80) : isCont x = false := by
  rw [UInt8.lt_iff_toNat] at hx
  simp only [isCont, Bool.and_eq_false_iff, decide_eq_false_iff_not, UInt8.le_iff_toNat]
  exact .inl (by simpa using hx)

theorem decodeRune_cons_of_lt {x : UInt8} (hx : x < 0x80) (s : Bytes) :
    decodeRune (x :: s) = (x.toNat, 1) := by
  simp [decodeRune, hx]

/-- A rune that starts with a byte from `0x80` on is not ASCII (the sequences `first` admits
exclude the overlong encodings, and an invalid one decodes as `RuneError`), and it takes at least
one byte and at most the string. -/
theorem decodeRune_cons_of_not_lt {b : UInt8} (h₀ : ¬ b < 0x80) (rest : Bytes) :
    0x80 ≤ (decodeRune (b :: rest)).1 ∧ 1 ≤ (decodeRune (b :: rest)).2 ∧
      (decodeRune (b :: rest)).2 ≤ rest.length + 1 := by
  have hb : 0x80 ≤ b.toNat := by simpa [UInt8.lt_iff_toNat] using h₀
  simp only [decodeRune, if_neg h₀]
  rcases hf : first b with _ | ⟨sz, lo, hi⟩
  · simp [runeError]
  obtain ⟨hlo, hhi, hsz⟩ := first_cases hf
  dsimp only
  by_cases hlen : rest.length + 1 < sz
  · simp [hlen, runeError]
  rw [if_neg hlen]
  -- one step per byte the sequence still reads, each either failing or going on
  rcases rest with _ | ⟨s₁, rest⟩
  · simp [runeError]
  dsimp only
  by_cases hs₁ : (decide (s₁ < lo) || decide (hi < s₁)) = true
  · simp [hs₁, runeError]
  have hs₁' : lo.toNat ≤ s₁.toNat ∧ s₁.toNat ≤ hi.toNat := by
    simpa [UInt8.lt_iff_toNat] using hs₁
  rw [if_neg hs₁]
  by_cases h2 : sz = 2
  · rw [if_pos h2]; simp only [List.length_cons]; omega
  rw [if_neg h2]
  rcases rest with _ | ⟨s₂, rest⟩
  · simp [runeError]
  dsimp only
  by_cases hc₂ : (!isCont s₂) = true
  · simp [hc₂, runeError]
  rw [if_neg hc₂]
  by_cases h3 : sz = 3
  · rw [if_pos h3]; simp only [List.length_cons] at hlen ⊢; omega
  rw [if_neg h3]
  rcases rest with _ | ⟨s₃, rest⟩
  · simp [runeError]
  dsimp only
  by_cases hc₃ : (!isCont s₃) = true
  · simp [hc₃, runeError]
  rw [if_neg hc₃]
  simp only [List.length_cons] at hlen ⊢
  omega

/-- Decoding a non-empty string consumes at least one byte and at most the string. -/
theorem decodeRune_width {s : Bytes} (hs : s ≠ []) :
    1 ≤ (decodeRune s).2 ∧ (decodeRune s).2 ≤ s.length := by
  obtain ⟨b, rest, rfl⟩ := List.exists_cons_of_ne_nil hs
  by_cases h₀ : b < 0x80
  · simp [decodeRune_cons_of_lt h₀]
  exact (decodeRune_cons_of_not_lt h₀ rest).2

/-- An ASCII byte is never part of a longer rune: decoding stops before it. -/
theorem decodeRune_append_ascii {a : Bytes} (ha : a ≠ []) {x : UInt8} (hx : x < 0x80)
    (b : Bytes) : decodeRune (a ++ x :: b) = decodeRune a := by
  obtain ⟨b₀, rest, rfl⟩ := List.exists_cons_of_ne_nil ha
  by_cases h₀ : b₀ < 0x80
  · simp only [List.cons_append, decodeRune_cons_of_lt h₀]
  simp only [List.cons_append, decodeRune, if_neg h₀]
  rcases hf : first b₀ with _ | ⟨sz, lo, hi⟩
  · rfl
  obtain ⟨hlo, -, hsz⟩ := first_cases hf
  have hxlo : x < lo := by
    rw [UInt8.lt_iff_toNat] at hx ⊢
    simp only [UInt8.toNat, UInt8.toBitVec_ofNat, BitVec.toNat_ofNat] at hx hlo ⊢
    omega
  have hc := isCont_of_lt hx
  dsimp only
  match rest with
  | [] => simp [hxlo]
  | [_] | [_, _] =>
    rcases (by omega : sz = 2 ∨ sz = 3 ∨ sz = 4) with rfl | rfl | rfl <;> simp [hxlo, hc]
  | _ :: _ :: _ :: r =>
    rw [if_neg (by simp; omega), if_neg (by simp; omega)]
    rfl

/-- `utf8.EncodeRune`, the bytes `WriteRune` appends: one for an ASCII rune, else a lead byte and
continuation bytes; a surrogate half or a value past U+10FFFF is written as `RuneError`. -/
def encodeRune (r : Nat) : Bytes :=
  if r < 0x80 then [r.toUInt8]
  else if r < 0x800 then [(0xC0 + r / 64).toUInt8, (0x80 + r % 64).toUInt8]
  else if 0x10FFFF < r ∨ (0xD800 ≤ r ∧ r ≤ 0xDFFF) then [0xEF, 0xBF, 0xBD]
  else if r < 0x10000 then
    [(0xE0 + r / 4096).toUInt8, (0x80 + r / 64 % 64).toUInt8, (0x80 + r % 64).toUInt8]
  else
    [(0xF0 + r / 262144).toUInt8, (0x80 + r / 4096 % 64).toUInt8, (0x80 + r / 64 % 64).toUInt8,
      (0x80 + r % 64).toUInt8]

/-- An ASCII byte appears in an encoding only as the whole encoding of its own rune. -/
theorem eq_of_mem_encodeRune {y : UInt8} (hy : y < 0x80) {r : Nat} (h : y ∈ encodeRune r) :
    r = y.toNat := by
  have hyn : y.toNat < 0x80 := by simpa [UInt8.lt_iff_toNat] using hy
  unfold encodeRune at h
  split_ifs at h <;> simp only [List.mem_cons, List.mem_singleton, List.not_mem_nil, or_false,
    UInt8.eq_iff_toNat, UInt8.toNat_toUInt8] at h <;>
    simp only [UInt8.toNat, UInt8.toBitVec_ofNat, BitVec.toNat_ofNat] at h hyn ⊢ <;> omega

end Utf8

namespace Unicode

/-- `unicode.IsSpace`: the Latin-1 spaces, and the runes of the `White_Space` property above. -/
def isSpace (r : Nat) : Bool :=
  if r ≤ 0xFF then r = 9 || r = 10 || r = 11 || r = 12 || r = 13 || r = 32 || r = 0x85 || r = 0xA0
  else r = 0x1680 || (0x2000 ≤ r && r ≤ 0x200A) || r = 0x2028 || r = 0x2029 || r = 0x202F ||
    r = 0x205F || r = 0x3000

/-- `unicode.ToLower`: an ASCII rune by the ASCII rule, any other by `lowerCase`, which stands for
`unicode.To(unicode.LowerCase, r)` over the Unicode case tables. -/
def toLower (lowerCase : Nat → Nat) (r : Nat) : Nat :=
  if r ≤ 0x7F then (if 65 ≤ r ∧ r ≤ 90 then r + 32 else r) else lowerCase r

/-- `unicode.ToUpper`, `upperCase` standing for `unicode.To(unicode.UpperCase, r)`. -/
def toUpper (upperCase : Nat → Nat) (r : Nat) : Nat :=
  if r ≤ 0x7F then (if 97 ≤ r ∧ r ≤ 122 then r - 32 else r) else upperCase r

/-- No rune but `=` lowers to `=`, when the tables lower no other rune to it. -/
theorem toLower_eq_equals {lowerCase : Nat → Nat} (hlc : ∀ r, 0x7F < r → lowerCase r ≠ 61)
    {r : Nat} (h : toLower lowerCase r = 61) : r = 61 := by
  unfold toLower at h
  split_ifs at h with hr
  · omega
  · exact h
  · exact absurd h (hlc r (by omega))

end Unicode

namespace Strings

open Utf8 Unicode

/-- `strings.TrimLeftFunc(s, unicode.IsSpace)`: the string from its first rune that is not a
space. -/
def trimLeftSpace (s : Bytes) : Bytes := go s.length s
where
  go : Nat → Bytes → Bytes
  | 0, s => s
  | fuel + 1, s =>
    match s with
    | [] => []
    | _ :: _ => if isSpace (decodeRune s).1 then go fuel (s.drop (decodeRune s).2) else s

/-- `lastIndexFunc(s, unicode.IsSpace, false)` over the first `i` bytes: where the last rune that
is not a space starts, decoding backwards. -/
def lastIndexNonSpace (s : Bytes) : Option Nat := go s.length s.length
where
  go : Nat → Nat → Option Nat
  | 0, _ => none
  | fuel + 1, i =>
    if i = 0 then none
    else
      let (r, size) := decodeLastRune (s.take i)
      if isSpace r then go fuel (i - size) else some (i - size)

/-- `strings.TrimRightFunc(s, unicode.IsSpace)`: up to the end of the last rune that is not a
space, its width taken again by decoding forwards. -/
def trimRightSpace (s : Bytes) : Bytes :=
  match lastIndexNonSpace s with
  | none => []
  | some i => if 0x80 ≤ s.getD i 0 then s.take (i + (decodeRune (s.drop i)).2) else s.take (i + 1)

/-- `strings.TrimSpace`.  Its ASCII fast path skips exactly the ASCII bytes `unicode.IsSpace`
accepts and hands the rest to `TrimFunc`, so it is `TrimFunc(s, unicode.IsSpace)`. -/
def trimSpace (s : Bytes) : Bytes := trimRightSpace (trimLeftSpace s)

/-- The ASCII path of `strings.ToUpper`: each byte `a`..`z` becomes `A`..`Z`. -/
def toUpper (s : Bytes) : Bytes :=
  s.map fun b => if 97 ≤ b ∧ b ≤ 122 then b - 32 else b

/-- `strings.Map(mapping, s)`: each rune of `s` replaced by the encoding of its image, an invalid
byte being read as `RuneError`.  A valid rune the mapping keeps is written back as the bytes it
was read from, so this is also what the fast path returns for an unchanged string.  The
mappings here never drop a rune, which a negative image does in Go. -/
def map (mapping : Nat → Nat) (s : Bytes) : Bytes := go s.length s
where
  go : Nat → Bytes → Bytes
  | 0, _ => []
  | _ + 1, [] => []
  | fuel + 1, b :: rest =>
    encodeRune (mapping (decodeRune (b :: rest)).1) ++
      go fuel ((b :: rest).drop (decodeRune (b :: rest)).2)

/-- `strings.ToLower`: an ASCII string by its ASCII path, any other by
`Map(unicode.ToLower, s)`. -/
def toLowerWith (lowerCase : Nat → Nat) (s : Bytes) : Bytes :=
  if s.all (· < 0x80) then toLower s else map (Unicode.toLower lowerCase) s

/-- `strings.ToUpper`: an ASCII string by its ASCII path, any other by
`Map(unicode.ToUpper, s)`. -/
def toUpperWith (upperCase : Nat → Nat) (s : Bytes) : Bytes :=
  if s.all (· < 0x80) then toUpper s else map (Unicode.toUpper upperCase) s

theorem toUpperWith_of_ascii (upperCase : Nat → Nat) {s : Bytes} (h : ∀ b ∈ s, b < 0x80) :
    toUpperWith upperCase s = toUpper s := by
  rw [toUpperWith, if_pos (List.all_eq_true.2 fun b hb => decide_eq_true (h b hb))]

section Map

variable (f : Nat → Nat)

/-- The loop does not depend on its fuel once the fuel covers the string. -/
theorem map.go_fuel : ∀ {fuel fuel' : Nat} {s : Bytes}, s.length ≤ fuel → s.length ≤ fuel' →
    map.go f fuel s = map.go f fuel' s
  | 0, fuel', [], _, _ => by cases fuel' <;> rfl
  | fuel + 1, 0, [], _, _ => rfl
  | fuel + 1, fuel' + 1, [], _, _ => rfl
  | fuel + 1, fuel' + 1, b :: rest, h, h' => by
    have hw := decodeRune_width (List.cons_ne_nil b rest)
    simp only [map.go]
    congr 1
    exact map.go_fuel (by simp at h ⊢; omega) (by simp at h' ⊢; omega)
  | 0, _, _ :: _, h, _ => absurd h (by simp)
  | _ + 1, 0, _ :: _, _, h' => absurd h' (by simp)

theorem map.go_append_ascii {x : UInt8} (hx : x < 0x80) (b : Bytes) :
    ∀ {fuel : Nat} {a : Bytes}, (a ++ x :: b).length ≤ fuel →
      map.go f fuel (a ++ x :: b) = map.go f a.length a ++ (encodeRune (f x.toNat) ++ map f b)
  | 0, _, h => absurd h (by simp)
  | fuel + 1, [], h => by
    simp only [List.nil_append, map.go, decodeRune_cons_of_lt hx, List.drop_one, List.tail_cons,
      List.length_nil, List.nil_append, map]
    congr 1
    exact map.go_fuel f (by simp at h ⊢; omega) le_rfl
  | fuel + 1, a₀ :: a', h => by
    have hw := decodeRune_width (List.cons_ne_nil a₀ a')
    have hd := decodeRune_append_ascii (List.cons_ne_nil a₀ a') hx b
    rw [List.cons_append] at hd ⊢
    simp only [map.go, hd, List.length_cons, List.append_assoc]
    congr 1
    have h' : ((a₀ :: a').drop (decodeRune (a₀ :: a')).2 ++ x :: b).length ≤ fuel := by
      simp only [List.length_append, List.length_drop, List.length_cons] at h hw ⊢
      omega
    rw [← List.cons_append, List.drop_append_of_le_length hw.2, map.go_append_ascii hx b h']
    congr 1
    exact map.go_fuel f le_rfl (by simp only [List.length_drop, List.length_cons] at hw ⊢; omega)

/-- An ASCII byte splits the mapped string: runes never straddle it. -/
theorem map_append_ascii {x : UInt8} (hx : x < 0x80) (a b : Bytes) :
    map f (a ++ x :: b) = map f a ++ encodeRune (f x.toNat) ++ map f b := by
  rw [List.append_assoc]
  exact map.go_append_ascii f hx b le_rfl

/-- An ASCII byte `y` appears in the mapped string only where it was, when the mapping sends no
other rune to it. -/
theorem not_mem_map {y : UInt8} (hy : y < 0x80) (hf : ∀ r, f r = y.toNat → r = y.toNat) :
    ∀ {fuel : Nat} {s : Bytes}, y ∉ s → y ∉ map.go f fuel s
  | 0, _, _ => List.not_mem_nil y
  | _ + 1, [], _ => List.not_mem_nil y
  | fuel + 1, b :: rest, hs => by
    simp only [map.go, List.mem_append, not_or]
    refine ⟨fun hmem => hs ?_, not_mem_map hy hf fun h => hs (List.mem_of_mem_drop h)⟩
    have hr := hf _ (eq_of_mem_encodeRune hy hmem)
    by_cases hb : b < 0x80
    · rw [decodeRune_cons_of_lt hb] at hr
      exact (UInt8.eq_iff_toNat b y).2 hr ▸ List.mem_cons_self b rest
    · have := (decodeRune_cons_of_not_lt hb rest).1
      have hyn : y.toNat < 0x80 := by simpa [UInt8.lt_iff_toNat] using hy
      omega

end Map

theorem encodeRune_of_lt {r : Nat} (h : r < 0x80) : encodeRune r = [r.toUInt8] := by
  simp [encodeRune, h]

/-- `unicode.ToLower` of an ASCII byte is encoded as the byte the ASCII path gives. -/
theorem encodeRune_toLower_ascii (lowerCase : Nat → Nat) {x : UInt8} (hx : x < 0x80) :
    encodeRune (Unicode.toLower lowerCase x.toNat) = [if 65 ≤ x ∧ x ≤ 90 then x + 32 else x] := by
  have hxn : x.toNat < 0x80 := by simpa [UInt8.lt_iff_toNat] using hx
  have hcond : (65 ≤ x ∧ x ≤ 90) ↔ 65 ≤ x.toNat ∧ x.toNat ≤ 90 := by
    simp only [UInt8.le_iff_toNat]; rfl
  have hadd : (x + 32).toNat = x.toNat + 32 := by
    simp only [UInt8.toNat, UInt8.add_def, BitVec.toNat_add, UInt8.toBitVec_ofNat,
      BitVec.toNat_ofNat] at hxn ⊢
    omega
  unfold Unicode.toLower
  rw [if_pos (by omega)]
  by_cases hc : 65 ≤ x.toNat ∧ x.toNat ≤ 90
  · rw [if_pos hc, if_pos (hcond.2 hc), encodeRune_of_lt (by omega)]
    simp only [List.cons.injEq, and_true, UInt8.eq_iff_toNat, UInt8.toNat_toUInt8, hadd]
    omega
  · rw [if_neg hc, if_neg (mt hcond.1 hc), encodeRune_of_lt hxn]
    simp only [List.cons.injEq, and_true, UInt8.eq_iff_toNat, UInt8.toNat_toUInt8]
    omega

/-- The ASCII path of `strings.ToLower` is `Map(unicode.ToLower, s)` on an ASCII string, so
`strings.ToLower` is that map on every string. -/
theorem toLowerWith_eq_map (lowerCase : Nat → Nat) (s : Bytes) :
    toLowerWith lowerCase s = map (Unicode.toLower lowerCase) s := by
  unfold toLowerWith
  split_ifs with h
  · simp only [List.all_eq_true, decide_eq_true_eq] at h
    induction s with
    | nil => rfl
    | cons x s ih =>
      have hx := h x (List.mem_cons_self x s)
      rw [← List.nil_append (x :: s), map_append_ascii _ hx, List.nil_append,
        ← ih fun b hb => h b (List.mem_cons_of_mem x hb), encodeRune_toLower_ascii _ hx]
      rfl
  · rfl

/-- `strings.SplitN(s, sep, n)` for a one-byte separator and `n > 0`: at most `n` pieces, the
last one holding the rest of the string. -/
def splitN (s : Bytes) (sep : UInt8) : Nat → List Bytes
  | 0 => []
  | 1 => [s]
  | n + 2 =>
    match s.indexOf? sep with
    | none => [s]
    | some i => s.take i :: splitN (s.drop (i + 1)) sep (n + 1)

end Strings

end Toolbox
