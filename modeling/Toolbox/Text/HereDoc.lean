import Toolbox.Go.Utf8

/-
`HereDoc` of the toolbox's `strings` package: drop one leading newline, split into lines, and
remove the common indentation of the lines that are not blank.  `getMinIndent` counts the
indentation in runes that `unicode.IsSpace` accepts, and `removeIndentation` removes that many
bytes.  The two agree while the indentation is ASCII; with a space of two or more bytes the cut
falls inside a rune, and a valid UTF-8 string comes out invalid.
-/

namespace Toolbox.Text

open Strings Utf8 Unicode

/-- `maxInt` on a 64-bit platform, where `getMinIndent` starts. -/
def maxInt : Nat := 2 ^ 63 - 1

/-- The leading runes of a line that are spaces, as `getMinIndent`'s `range` loop counts them. -/
def indentSize (line : Bytes) : Nat := go line.length line
where
  go : Nat → Bytes → Nat
  | 0, _ => 0
  | fuel + 1, s =>
    match s with
    | [] => 0
    | _ :: _ => if isSpace (decodeRune s).1 then go fuel (s.drop (decodeRune s).2) + 1 else 0

/-- `getMinIndent`: the least indentation of the lines that are not blank, the first line left
out when `skipFirstLine`.  A line is blank when its length in bytes is its indentation in runes.
A blank last line less indented than the lines before it is emptied in the caller's slice, so
the lines are returned too. -/
def getMinIndent (lines : List Bytes) (skipFirstLine : Bool) : Nat × List Bytes :=
  go lines 0 maxInt
where
  go : List Bytes → Nat → Nat → Nat × List Bytes
  | [], _, m => (m, [])
  | line :: rest, i, m =>
    if i = 0 ∧ skipFirstLine = true then
      let r := go rest (i + 1) m
      (r.1, line :: r.2)
    else
      let indent := indentSize line
      if line.length = indent then
        let r := go rest (i + 1) m
        (r.1, (if rest = [] ∧ indent < m then [] else line) :: r.2)
      else
        let r := go rest (i + 1) (if indent < m then indent else m)
        (r.1, line :: r.2)

/-- `removeIndentation`: `n` bytes off the front of every line at least that long, the first
line left out when `skipFirstLine`. -/
def removeIndentation (lines : List Bytes) (n : Nat) (skipFirstLine : Bool) : List Bytes :=
  lines.mapIdx fun i line =>
    if i = 0 ∧ skipFirstLine = true then line
    else if n ≤ line.length then line.drop n
    else line

/-- `HereDoc`. -/
def hereDoc (raw : Bytes) : Bytes :=
  let (raw, skipFirstLine) := if raw.head? = some 10 then (raw.drop 1, false) else (raw, true)
  let r := getMinIndent (List.splitOn 10 raw) skipFirstLine
  List.intercalate [10] (removeIndentation r.2 r.1 skipFirstLine)

/-- A line indented with U+00A0 NO-BREAK SPACE, two bytes in UTF-8: `getMinIndent` counts one
rune, `removeIndentation` removes one byte, and half of the space is left as a stray
continuation byte. -/
theorem hereDoc_splits_multibyte_indent :
    validString [0x0A, 0xC2, 0xA0, 0x78] = true ∧
      hereDoc [0x0A, 0xC2, 0xA0, 0x78] = [0xA0, 0x78] ∧ validString [0xA0, 0x78] = false := by
  decide

/-- After the first line, every line `getMinIndent` hands back is emptied or kept, and the
indentation it returns is at most that of each kept line long enough to be cut. -/
theorem getMinIndent_go_spec (skip : Bool) :
    ∀ (lines : List Bytes) (i m : Nat), (i = 0 → skip = false) →
      (getMinIndent.go skip lines i m).1 ≤ m ∧ ∀ line' ∈ (getMinIndent.go skip lines i m).2,
        line' = [] ∨ line' ∈ lines ∧ ((getMinIndent.go skip lines i m).1 ≤ line'.length →
          (getMinIndent.go skip lines i m).1 ≤ indentSize line')
  | [], _, m, _ => by simp [getMinIndent.go]
  | line :: rest, i, m, hi => by
    have hnot : ¬(i = 0 ∧ skip = true) := fun h => by simp [hi h.1] at h
    have ih := fun m => getMinIndent_go_spec skip rest (i + 1) m (fun h => absurd h (by omega))
    simp only [getMinIndent.go, if_neg hnot]
    by_cases hblank : line.length = indentSize line
    · -- a blank line leaves the minimum alone, and is kept or emptied
      rw [if_pos hblank]
      obtain ⟨hle, hrest⟩ := ih m
      refine ⟨hle, ?_⟩
      rw [List.forall_mem_cons]
      refine ⟨?_, fun l hl => (hrest l hl).imp_right fun h => ⟨List.mem_cons_of_mem _ h.1, h.2⟩⟩
      split_ifs
      · exact .inl rfl
      · exact .inr ⟨List.mem_cons_self _ _, fun h => hblank ▸ h⟩
    · -- a line with text lowers the minimum to its indentation
      rw [if_neg hblank]
      obtain ⟨hle, hrest⟩ := ih (if indentSize line < m then indentSize line else m)
      have ⟨hm, hind⟩ : (if indentSize line < m then indentSize line else m) ≤ m ∧
          (if indentSize line < m then indentSize line else m) ≤ indentSize line := by
        split_ifs <;> omega
      refine ⟨hle.trans hm, ?_⟩
      rw [List.forall_mem_cons]
      exact ⟨.inr ⟨List.mem_cons_self _ _, fun _ => hle.trans hind⟩,
        fun l hl => (hrest l hl).imp_right fun h => ⟨List.mem_cons_of_mem _ h.1, h.2⟩⟩

/-- Cutting `n` bytes off a valid line whose leading spaces are ASCII, `n` at most their number,
leaves it valid. -/
theorem validString_drop_indent {line : Bytes} (hv : validString line)
    (ha : ∀ x ∈ line.take (indentSize line), x < 0x80) {n : Nat} (hn : n ≤ indentSize line) :
    validString (line.drop n) :=
  validString_drop hv fun x hx => ha x (List.take_subset_take_left _ hn hx)

section AsciiIndent

variable {lines : List Bytes}
  (hlines : ∀ line ∈ lines, validString line ∧ ∀ x ∈ line.take (indentSize line), x < 0x80)
include hlines

/-- A line `getMinIndent` hands back stays valid through `removeIndentation`'s cut. -/
theorem validString_cut {n : Nat} {line' : Bytes}
    (h : line' = [] ∨ line' ∈ lines ∧ (n ≤ line'.length → n ≤ indentSize line')) :
    validString (if n ≤ line'.length then line'.drop n else line') := by
  rcases h with rfl | ⟨hmem, hn⟩
  · rw [List.drop_nil, ite_self]
    rfl
  · obtain ⟨hv, ha⟩ := hlines _ hmem
    split
    · exact validString_drop_indent hv ha (hn ‹_›)
    · exact hv

theorem validString_removeIndentation (skip : Bool) :
    ∀ line' ∈ removeIndentation (getMinIndent lines skip).2 (getMinIndent lines skip).1 skip,
      validString line' := by
  cases skip with
  | false =>
    obtain ⟨-, hout⟩ := getMinIndent_go_spec false lines 0 maxInt fun _ => rfl
    simp only [removeIndentation, List.mem_mapIdx, Bool.false_eq_true, and_false, if_false]
    rintro _ ⟨i, hi, rfl⟩
    exact validString_cut hlines (hout _ (List.getElem_mem _))
  | true =>
    cases lines with
    | nil => simp [getMinIndent, getMinIndent.go, removeIndentation]
    | cons line rest =>
      -- the first line is kept whole; the others are cut as when none is skipped
      obtain ⟨-, hout⟩ := getMinIndent_go_spec true rest 1 maxInt (absurd · Nat.one_ne_zero)
      simp only [getMinIndent, getMinIndent.go, removeIndentation, List.mapIdx_cons, and_self,
        if_true, Nat.add_one_ne_zero, false_and, if_false, List.forall_mem_cons, List.mem_mapIdx]
      refine ⟨(hlines line (List.mem_cons_self _ _)).1, ?_⟩
      rintro _ ⟨i, hi, rfl⟩
      exact validString_cut hlines ((hout _ (List.getElem_mem _)).imp_right
        fun h => ⟨List.mem_cons_of_mem _ h.1, h.2⟩)

end AsciiIndent

theorem splitOn_newline_cons (r : Bytes) :
    List.splitOn 10 (10 :: r) = [] :: List.splitOn 10 r := by
  simp [List.splitOn, List.splitOnP_cons]

/-- Where every line's leading spaces are ASCII, the bytes `removeIndentation` cuts are those
spaces, and `HereDoc` of valid UTF-8 is valid UTF-8. -/
theorem hereDoc_valid_of_ascii_indent {raw : Bytes} (hv : validString raw)
    (hind : ∀ line ∈ List.splitOn 10 raw, ∀ x ∈ line.take (indentSize line), x < 0x80) :
    validString (hereDoc raw) := by
  have hlines : ∀ line ∈ List.splitOn 10 raw,
      validString line ∧ ∀ x ∈ line.take (indentSize line), x < 0x80 := fun line h =>
    ⟨validString_intercalate_newline.mp ((List.intercalate_splitOn raw 10).symm ▸ hv) line h,
      hind line h⟩
  unfold hereDoc
  by_cases h : raw.head? = some 10
  · obtain ⟨r, rfl⟩ : ∃ r, raw = 10 :: r := by
      cases raw with
      | nil => cases h
      | cons b r => cases Option.some.inj h; exact ⟨r, rfl⟩
    rw [if_pos h]
    refine validString_intercalate_newline.mpr (validString_removeIndentation
      (fun line h => hlines line ?_) false)
    rw [splitOn_newline_cons]
    exact List.mem_cons_of_mem _ h
  · rw [if_neg h]
    exact validString_intercalate_newline.mpr (validString_removeIndentation hlines true)

theorem hereDoc_valid_indented_accent :
    validString (hereDoc [0x0A, 0x20, 0x20, 0xC3, 0xA9, 0x0A, 0x20, 0x20, 0x78]) :=
  hereDoc_valid_of_ascii_indent (by decide) (by decide)

/-- The two ASCII spaces go and the accented letter stays whole. -/
example :
    hereDoc [0x0A, 0x20, 0x20, 0xC3, 0xA9, 0x0A, 0x20, 0x20, 0x78] = [0xC3, 0xA9, 0x0A, 0x78] := by
  decide

end Toolbox.Text
