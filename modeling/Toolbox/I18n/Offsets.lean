import Toolbox.I18n.Translator

/-
What the offsets the adds compute say about a template: each pair is the span of the first
occurrence of its placeholder.
-/

namespace Toolbox.I18n

open Strings

@[simp] theorem paramZero_length : paramZero.length = 3 := rfl

@[simp] theorem paramOne_length : paramOne.length = 3 := rfl

theorem paramZero_ne_nil : paramZero ≠ [] := by decide

theorem paramOne_ne_nil : paramOne ≠ [] := by decide

theorem param_ne_nil (i : Nat) : param i ≠ [] := by
  simp [param, leftBrace, lit]

theorem locateZero_eq_ok {method text : Bytes} {idxs : List Int}
    (h : locateZero method text = .ok idxs) :
    ∃ a : Nat, indexOf? paramZero text = some a ∧ idxs = [(a : Int), (a : Int) + 3] := by
  unfold locateZero at h
  dsimp only at h
  split_ifs at h with hidx
  obtain ⟨a, ha, hidx⟩ := indexOf?_of_index_ne hidx
  cases h
  exact ⟨a, ha, by rw [hidx]; rfl⟩

theorem locateRange_eq_ok {text : Bytes} {idxs : List Int} (h : locateRange text = .ok idxs) :
    ∃ a b : Nat, indexOf? paramZero text = some a ∧ indexOf? paramOne text = some b ∧
      idxs = [(a : Int), (a : Int) + 3, (b : Int), (b : Int) + 3] := by
  unfold locateRange at h
  dsimp only at h
  split_ifs at h with hidx hidx1
  obtain ⟨a, ha, hidx⟩ := indexOf?_of_index_ne hidx
  obtain ⟨b, hb, hidx1⟩ := indexOf?_of_index_ne hidx1
  cases h
  exact ⟨a, b, ha, hb, by rw [hidx, hidx1]; rfl⟩

/-- The offsets of `Add`'s loop from `{i}` on: pair `j` spans the first `{i+j}` of the text. -/
theorem paramIndexes_eq_ok {text : Bytes} {i n : Nat} {idxs : List Int}
    (h : paramIndexes text i n = .ok idxs) :
    idxs.length = 2 * n ∧ ∀ j < n, ∃ a : Nat, indexOf? (param (i + j)) text = some a ∧
      idxs[2 * j]? = some (a : Int) ∧ idxs[2 * j + 1]? = some ((a + (param (i + j)).length : Nat) : Int) := by
  induction n generalizing i idxs with
  | zero =>
      cases h
      exact ⟨rfl, fun j hj => absurd hj (Nat.not_lt_zero j)⟩
  | succ n ih =>
      unfold paramIndexes at h
      dsimp only at h
      split_ifs at h with hidx
      obtain ⟨a, ha, hidx⟩ := indexOf?_of_index_ne hidx
      cases hrest : paramIndexes text (i + 1) n with
      | error e => simp [hrest, Except.map] at h
      | ok rest =>
        simp only [hrest, Except.map, Except.ok.injEq] at h
        subst h
        obtain ⟨hlen, hrest⟩ := ih hrest
        refine ⟨by simp [hlen]; omega, fun j hj => ?_⟩
        cases j with
        | zero => exact ⟨a, ha, by simp [hidx], by simp [hidx]⟩
        | succ j =>
          obtain ⟨b, hb, hb0, hb1⟩ := hrest j (by omega)
          rw [show i + (j + 1) = i + 1 + j by omega]
          refine ⟨b, hb, ?_, ?_⟩
          · rw [show 2 * (j + 1) = 2 * j + 2 by omega]
            simpa using hb0
          · rw [show 2 * (j + 1) + 1 = 2 * j + 1 + 2 by omega]
            simpa using hb1

/-- A slot written by `AddCardinal` or `AddOrdinal` spans its first `{0}`. -/
theorem locateZero_slice {method text : Bytes} {idxs : List Int}
    (h : locateZero method text = .ok idxs) :
    ∃ a : Int, 0 ≤ a ∧ idxs = [a, a + 3] ∧ a + 3 ≤ text.length ∧
      slice text a (a + 3) = some paramZero := by
  obtain ⟨a, ha, rfl⟩ := locateZero_eq_ok h
  have hle := indexOf?_add_length_le paramZero_ne_nil ha
  exact ⟨a, by omega, rfl, by simp at hle; omega, by simpa using slice_indexOf? paramZero_ne_nil ha⟩

/-- A slot written by `AddRange` spans its first `{0}` and its first `{1}`. -/
theorem locateRange_slice {text : Bytes} {idxs : List Int} (h : locateRange text = .ok idxs) :
    ∃ a b : Int, 0 ≤ a ∧ 0 ≤ b ∧ idxs = [a, a + 3, b, b + 3] ∧
      slice text a (a + 3) = some paramZero ∧ slice text b (b + 3) = some paramOne := by
  obtain ⟨a, b, ha, hb, rfl⟩ := locateRange_eq_ok h
  exact ⟨a, b, by omega, by omega, rfl, by simpa using slice_indexOf? paramZero_ne_nil ha,
    by simpa using slice_indexOf? paramOne_ne_nil hb⟩

/-- The first `{0}` and the first `{1}` of a text never overlap: whichever comes first ends
before the other starts. -/
theorem paramZero_paramOne_apart {text : Bytes} {a b : Nat} (ha : indexOf? paramZero text = some a)
    (hb : indexOf? paramOne text = some b) : a + 3 ≤ b ∨ b + 3 ≤ a := by
  obtain ⟨r, hr⟩ := (indexOf?_eq_some ha).1
  obtain ⟨r', hr'⟩ := (indexOf?_eq_some hb).1
  rw [show paramZero = [123, 48, 125] from rfl] at hr
  rw [show paramOne = [123, 49, 125] from rfl] at hr'
  by_contra hnear
  rcases Nat.le_total a b with hab | hba
  · obtain ⟨d, rfl⟩ := Nat.exists_eq_add_of_le hab
    rw [← List.drop_drop, ← hr] at hr'
    rcases d with _ | _ | _ | d
    all_goals first | omega | simp at hr'
  · obtain ⟨d, rfl⟩ := Nat.exists_eq_add_of_le hba
    rw [← List.drop_drop, ← hr'] at hr
    rcases d with _ | _ | _ | d
    all_goals first | omega | simp at hr

/-- The offsets `Add` stores give, pair `i`, the span of the text's first `{i}`. -/
theorem paramIndexes_slice {text : Bytes} {n : Nat} {idxs : List Int}
    (h : paramIndexes text 0 n = .ok idxs) :
    idxs.length = 2 * n ∧ ∀ i < n, ∃ a b : Int, idxs[2 * i]? = some a ∧
      idxs[2 * i + 1]? = some b ∧ slice text a b = some (param i) := by
  obtain ⟨hlen, hpairs⟩ := paramIndexes_eq_ok h
  refine ⟨hlen, fun i hi => ?_⟩
  obtain ⟨a, ha, h0, h1⟩ := hpairs i hi
  rw [Nat.zero_add] at ha h1
  exact ⟨a, _, h0, h1, slice_indexOf? (param_ne_nil i) ha⟩

end Toolbox.I18n
