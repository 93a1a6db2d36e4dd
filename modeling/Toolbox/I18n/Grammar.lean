import Toolbox.I18n.Template
import Mathlib.Data.Finset.Card

/-
The template grammar of `Add`.  `Add` only counts braces and searches for `{0}`, `{1}`, ... with
`strings.Index`; it never parses the text.  Yet what it accepts is exactly the grammar the
documentation describes: with `N` the number of `{`, each of `{0}`, ..., `{N-1}` occurs exactly
once, in any order, and every brace of the text belongs to one of them.  The argument is a count:
distinct placeholders never overlap, each holds one `{` and one `}`, so the `N` first occurrences
account for all `N` of each brace.
-/

namespace Toolbox.I18n

open Strings

/-- `{i}` stands at offset `a` of the text. -/
def Occurs (text : Bytes) (i a : Nat) : Prop := param i <+: text.drop a

instance (text : Bytes) (i a : Nat) : Decidable (Occurs text i a) :=
  inferInstanceAs (Decidable (param i <+: text.drop a))

/-- The grammar of a plain template, as the documentation states it: with `N` the number of `{`,
each of `{0}`, ..., `{N-1}` occurs exactly once, and each `{` and `}` of the text lies in one of
these occurrences. -/
def TemplateGrammar (text : Bytes) : Prop :=
  (∀ i < text.count 123, ∃ a < text.length, Occurs text i a ∧
      ∀ b < text.length, Occurs text i b → b = a) ∧
    ∀ m < text.length, (text[m]? = some 123 ∨ text[m]? = some 125) →
      ∃ i < text.count 123, ∃ a < text.length, Occurs text i a ∧ a ≤ m ∧ m < a + (param i).length

instance : DecidablePred TemplateGrammar := fun _ =>
  inferInstanceAs (Decidable (_ ∧ _))


/-! ### The bytes of a placeholder -/

theorem param_length (i : Nat) : (param i).length = (Strconv.itoa i).length + 2 := by
  simp [param_eq]

theorem getElem?_param_zero (i : Nat) : (param i)[0]? = some 123 := by
  rw [param_eq, List.getElem?_cons_zero]

theorem getElem?_param_last (i : Nat) : (param i)[(param i).length - 1]? = some 125 := by
  rw [param_length, param_eq]
  simp [List.getElem?_append_right]

/-- The only `}` of a placeholder is its last byte. -/
theorem eq_last_of_getElem?_param {i k : Nat} (h : (param i)[k]? = some 125) :
    k = (param i).length - 1 := by
  rw [param_length]
  rw [param_eq] at h
  cases k with
  | zero => simp at h
  | succ k =>
    rw [List.getElem?_cons_succ] at h
    rcases Nat.lt_or_ge k (Strconv.itoa i).length with hk | hk
    · rw [List.getElem?_append_left hk] at h
      exact absurd (Strconv.digit_of_mem_itoa (List.getElem?_mem h)) (by decide)
    · have := (List.getElem?_eq_some_iff.mp h).1
      simp at this
      omega

/-! ### Occurrences -/

section Occurrences

variable {text : Bytes} {i j a b m : Nat}

theorem Occurs.add_length_le (h : Occurs text i a) : a + (param i).length ≤ text.length := by
  have := h.length_le
  simp only [List.length_drop] at this
  have := List.length_pos.mpr (param_ne_nil i)
  omega

theorem Occurs.getElem? (h : Occurs text i a) {k : Nat} (hk : k < (param i).length) :
    text[a + k]? = (param i)[k]? := by
  obtain ⟨r, hr⟩ := h
  rw [← List.getElem?_drop, ← hr, List.getElem?_append_left hk]

/-- Occurrences of placeholders never overlap unless they are one occurrence of one
placeholder: the second would start at a `{` inside the first. -/
theorem Occurs.eq_of_overlap (hi : Occurs text i a) (hj : Occurs text j b) (hab : a ≤ b)
    (hba : b < a + (param i).length) : b = a ∧ j = i := by
  have hb : text[b]? = some 123 := by
    simpa using (hj.getElem? (List.length_pos.mpr (param_ne_nil j))).trans
      (getElem?_param_zero j)
  obtain ⟨k, rfl⟩ := Nat.exists_eq_add_of_le hab
  rcases Nat.eq_zero_or_pos k with rfl | hk
  · obtain ⟨r, hr⟩ := hi
    have hj' : param j <+: param i ++ r := by rw [hr]; simpa using hj
    exact ⟨rfl, eq_of_starts_with_param hj'⟩
  · rw [hi.getElem? (by omega)] at hb
    exact absurd rfl (ne_brace_of_mem_param_tail hk hb)

theorem Occurs.lt_length (h : Occurs text i a) : a < text.length := by
  have := h.add_length_le
  have := List.length_pos.mpr (param_ne_nil i)
  omega

theorem Occurs.getElem?_start (h : Occurs text i a) : text[a]? = some 123 := by
  simpa using (h.getElem? (List.length_pos.mpr (param_ne_nil i))).trans (getElem?_param_zero i)

theorem Occurs.getElem?_end (h : Occurs text i a) :
    text[a + (param i).length - 1]? = some 125 := by
  have hpos := List.length_pos.mpr (param_ne_nil i)
  rw [Nat.add_sub_assoc hpos, h.getElem? (by omega), getElem?_param_last]

/-- The only `}` inside an occurrence is its last byte. -/
theorem Occurs.eq_end (h : Occurs text i a) (ham : a ≤ m) (hm : m < a + (param i).length)
    (hx : text[m]? = some 125) : m = a + (param i).length - 1 := by
  obtain ⟨k, rfl⟩ := Nat.exists_eq_add_of_le ham
  rw [h.getElem? (by omega)] at hx
  have := eq_last_of_getElem?_param hx
  omega

end Occurrences

/-! ### Counting braces by their positions -/

/-- The offsets of the text that hold `x`. -/
def positionsOf (text : Bytes) (x : UInt8) : Finset Nat :=
  (Finset.range text.length).filter fun m => text[m]? = some x

theorem mem_positionsOf {text : Bytes} {x : UInt8} {m : Nat} :
    m ∈ positionsOf text x ↔ text[m]? = some x := by
  simp only [positionsOf, Finset.mem_filter, Finset.mem_range, and_iff_right_iff_imp]
  exact fun h => (List.getElem?_eq_some_iff.mp h).1

theorem count_eq_card_positionsOf (text : Bytes) (x : UInt8) :
    text.count x = (positionsOf text x).card := by
  induction text using List.reverseRecOn with
  | nil => rfl
  | append_singleton l y ih =>
    have hfilter : ((Finset.range l.length).filter fun m => (l ++ [y])[m]? = some x) =
        positionsOf l x :=
      Finset.filter_congr fun m hm => by
        rw [List.getElem?_append_left (Finset.mem_range.mp hm)]
    have hlast : (l ++ [y])[l.length]? = some y := by simp
    have hsnoc : positionsOf (l ++ [y]) x =
        if y = x then insert l.length (positionsOf l x) else positionsOf l x := by
      rw [positionsOf, List.length_append, List.length_singleton, Finset.range_succ,
        Finset.filter_insert, hlast, hfilter]
      simp only [Option.some_inj]
    rw [List.count_append, List.count_singleton', ih, hsnoc]
    by_cases hy : y = x
    · rw [if_pos hy, if_pos hy, Finset.card_insert_of_not_mem
        fun h => by simpa using (List.getElem?_eq_some_iff.mp (mem_positionsOf.mp h)).1]
    · rw [if_neg hy, if_neg hy, Nat.add_zero]

section Pigeonhole

variable {text : Bytes} {x : UInt8} {n : Nat} {f : Nat → Nat}

/-- `n` distinct offsets holding `x` are all of them when `x` occurs `n` times. -/
theorem exists_eq_of_count (hx : ∀ j < n, text[f j]? = some x)
    (hinj : Set.InjOn f (Finset.range n)) (hcount : text.count x = n) {m : Nat}
    (hm : text[m]? = some x) : ∃ j < n, f j = m := by
  have hsub : (Finset.range n).image f ⊆ positionsOf text x := fun _ h => by
    obtain ⟨j, hj, rfl⟩ := Finset.mem_image.mp h
    exact mem_positionsOf.mpr (hx j (Finset.mem_range.mp hj))
  have heq := Finset.eq_of_subset_of_card_le hsub (by
    rw [← count_eq_card_positionsOf, hcount, Finset.card_image_of_injOn hinj, Finset.card_range])
  obtain ⟨j, hj, rfl⟩ := Finset.mem_image.mp (heq ▸ mem_positionsOf.mpr hm)
  exact ⟨j, Finset.mem_range.mp hj, rfl⟩

/-- `x` occurs `n` times when `n` distinct offsets hold it and no other does. -/
theorem count_eq_of_forall_exists (hx : ∀ j < n, text[f j]? = some x)
    (hinj : Set.InjOn f (Finset.range n)) (hall : ∀ m, text[m]? = some x → ∃ j < n, f j = m) :
    text.count x = n := by
  have heq : (Finset.range n).image f = positionsOf text x := by
    ext m
    rw [Finset.mem_image, mem_positionsOf]
    constructor
    · rintro ⟨j, hj, rfl⟩
      exact hx j (Finset.mem_range.mp hj)
    · intro hm
      obtain ⟨j, hj, rfl⟩ := hall m hm
      exact ⟨j, Finset.mem_range.mpr hj, rfl⟩
  rw [count_eq_card_positionsOf, ← heq, Finset.card_image_of_injOn hinj, Finset.card_range]

end Pigeonhole


/-! ### The grammar by counts -/

/-- Where `strings.Index` finds `{i}`; `0` when it is missing. -/
def firstAt (text : Bytes) (i : Nat) : Nat := (indexOf? (param i) text).getD 0

/-- Where the first `{i}` ends with its `}`. -/
def lastAt (text : Bytes) (i : Nat) : Nat := firstAt text i + (param i).length - 1

section FirstOccurrences

variable {text : Bytes} {i j n a : Nat}

theorem occurs_firstAt (h : Occurs text i a) : Occurs text i (firstAt text i) := by
  cases hidx : indexOf? (param i) text with
  | none => exact absurd h (indexOf?_eq_none hidx a)
  | some a' => simpa [firstAt, hidx] using (indexOf?_eq_some hidx).1

variable (hall : ∀ j < n, ∃ a, Occurs text j a)
include hall

theorem occurs_firstAt_of_lt (hj : j < n) : Occurs text j (firstAt text j) :=
  let ⟨_, ha⟩ := hall j hj
  occurs_firstAt ha

theorem firstAt_injOn : Set.InjOn (firstAt text) (Finset.range n) := by
  intro j hj k hk hjk
  have hj := occurs_firstAt_of_lt hall (Finset.mem_range.mp hj)
  have hk := occurs_firstAt_of_lt hall (Finset.mem_range.mp hk)
  have := List.length_pos.mpr (param_ne_nil j)
  exact (hj.eq_of_overlap hk hjk.le (by omega)).2.symm

theorem lastAt_injOn : Set.InjOn (lastAt text) (Finset.range n) := by
  intro j hj k hk hjk
  have hj := occurs_firstAt_of_lt hall (Finset.mem_range.mp hj)
  have hk := occurs_firstAt_of_lt hall (Finset.mem_range.mp hk)
  have := List.length_pos.mpr (param_ne_nil j)
  have := List.length_pos.mpr (param_ne_nil k)
  simp only [lastAt] at hjk
  rcases le_total (firstAt text j) (firstAt text k) with h | h
  · exact (hj.eq_of_overlap hk h (by omega)).2.symm
  · exact (hk.eq_of_overlap hj h (by omega)).2

end FirstOccurrences

/-- The grammar holds exactly when there are as many `}` as `{` and each of `{0}`, ...,
`{N-1}` occurs: the first occurrences are `N` disjoint spans with one `{` and one `}` each, so
they hold every brace of the text, and a second occurrence would need one more `{`. -/
theorem templateGrammar_iff {text : Bytes} : TemplateGrammar text ↔
    text.count 125 = text.count 123 ∧ ∀ j < text.count 123, ∃ a, Occurs text j a := by
  constructor
  · rintro ⟨huniq, hbraces⟩
    have hall : ∀ j < text.count 123, ∃ a, Occurs text j a := fun j hj =>
      let ⟨a, _, ha, _⟩ := huniq j hj
      ⟨a, ha⟩
    refine ⟨count_eq_of_forall_exists (fun j hj => (occurs_firstAt_of_lt hall hj).getElem?_end)
      (lastAt_injOn hall) fun m hm => ?_, hall⟩
    obtain ⟨i, hi, a, -, ha, ham, hma⟩ :=
      hbraces m (List.getElem?_eq_some_iff.mp hm).1 (.inr hm)
    obtain ⟨a', -, -, hone⟩ := huniq i hi
    have hfirst := occurs_firstAt ha
    rw [hone a ha.lt_length ha, ← hone _ hfirst.lt_length hfirst] at ham hma
    exact ⟨i, hi, ((occurs_firstAt ha).eq_end ham hma hm).symm⟩
  · rintro ⟨hcount, hall⟩
    have hpos := fun j => List.length_pos.mpr (param_ne_nil j)
    have hstart : ∀ m, text[m]? = some 123 → ∃ j < text.count 123, firstAt text j = m :=
      fun m hm => exists_eq_of_count (fun j hj => (occurs_firstAt_of_lt hall hj).getElem?_start)
        (firstAt_injOn hall) rfl hm
    refine ⟨fun i hi => ⟨firstAt text i, (occurs_firstAt_of_lt hall hi).lt_length,
      occurs_firstAt_of_lt hall hi, fun b _ hb => ?_⟩, fun m _ hm => ?_⟩
    · obtain ⟨j, hj, rfl⟩ := hstart b hb.getElem?_start
      rw [((occurs_firstAt_of_lt hall hj).eq_of_overlap hb le_rfl (by have := hpos j; omega)).2]
    · rcases hm with hm | hm
      · obtain ⟨j, hj, rfl⟩ := hstart m hm
        have hocc := occurs_firstAt_of_lt hall hj
        exact ⟨j, hj, _, hocc.lt_length, hocc, le_rfl, by have := hpos j; omega⟩
      · obtain ⟨j, hj, rfl⟩ := exists_eq_of_count
          (fun j hj => (occurs_firstAt_of_lt hall hj).getElem?_end) (lastAt_injOn hall) hcount hm
        have hocc := occurs_firstAt_of_lt hall hj
        have := hpos j
        exact ⟨j, hj, _, hocc.lt_length, hocc, by omega, by omega⟩


/-- Two `{1}` and no `{0}`: the braces pair up, but not as the grammar asks. -/
example : ¬ TemplateGrammar (lit "a\x7b1\x7d b \x7b1\x7d") := by decide

/-! ### What `Add` accepts -/

/-- The loop of `Add` finds offsets for `{i}`, ..., `{i+n-1}` exactly when each occurs. -/
theorem paramIndexes_ok_iff {text : Bytes} {i n : Nat} :
    (∃ idxs, paramIndexes text i n = .ok idxs) ↔ ∀ j < n, ∃ a, Occurs text (i + j) a := by
  constructor
  · rintro ⟨idxs, h⟩ j hj
    obtain ⟨a, ha, -⟩ := (paramIndexes_eq_ok h).2 j hj
    exact ⟨a, (indexOf?_eq_some ha).1⟩
  · induction n generalizing i with
    | zero => exact fun _ => ⟨[], rfl⟩
    | succ n ih =>
      intro hall
      obtain ⟨rest, hrest⟩ := ih (i := i + 1) fun j hj => by
        simpa [Nat.add_assoc, Nat.add_comm 1] using hall (j + 1) (by omega)
      obtain ⟨a, ha⟩ := hall 0 (Nat.succ_pos n)
      have hidx : index text (param i) ≠ -1 := fun h =>
        indexOf?_eq_none (index_eq_neg_one_iff.mp h) a ha
      exact ⟨_, by rw [paramIndexes, if_neg hidx, hrest]; rfl⟩

/-- `Add` under a string key it may write accepts exactly the texts whose brace counts agree
and whose placeholders `{0}`, ..., `{N-1}` are all found. -/
theorem add_string_error_eq_none_iff {t : Translator} {key text : Bytes} {override : Bool}
    (hkey : (t.translations.lookup key).isSome → override = true) :
    (t.add (.string key) text override).error = none ↔
      text.count 125 = text.count 123 ∧
        ∃ idxs, paramIndexes text 0 (text.count 123) = .ok idxs := by
  have hnew : ((t.translations.lookup key).isSome && !override) = false := by
    cases h : (t.translations.lookup key).isSome
    · rfl
    · simp [hkey h]
  constructor
  · intro h
    rcases Translator.add_cases t (.string key) text override with ⟨-, hsome⟩ | ⟨_, idxs, hk, hc, hp, -⟩
    · rw [h] at hsome; cases hsome
    · cases hk
      exact ⟨hc.symm, idxs, hp⟩
  · rintro ⟨hc, idxs, hp⟩
    have hc' : Strings.count text rightBrace = Strings.count text leftBrace := hc
    have hp' : paramIndexes text 0 (Strings.count text leftBrace) = .ok idxs := hp
    simp only [Translator.add, hnew, hc', hp', Bool.false_eq_true, if_false, ne_eq,
      not_true_eq_false]

/-- `Add` under a string key it may write accepts exactly the template grammar, and then stores
for each `{i}` the offsets where its one occurrence starts and ends. -/
theorem add_accepts_templateGrammar (t : Translator) (key text : Bytes) (override : Bool)
    (hkey : (t.translations.lookup key).isSome → override = true) :
    ((t.add (.string key) text override).error = none ↔ TemplateGrammar text) ∧
      ((t.add (.string key) text override).error = none →
        ∃ idxs, (t.add (.string key) text override).state.translations.lookup key =
            some ⟨text, idxs⟩ ∧ idxs.length = 2 * text.count 123 ∧
          ∀ i < text.count 123, ∀ a, Occurs text i a →
            idxs[2 * i]? = some (a : Int) ∧
              idxs[2 * i + 1]? = some ((a + (param i).length : Nat) : Int)) := by
  have hiff : (t.add (.string key) text override).error = none ↔ TemplateGrammar text := by
    rw [add_string_error_eq_none_iff hkey, templateGrammar_iff, paramIndexes_ok_iff]
    simp only [Nat.zero_add]
  refine ⟨hiff, fun h => ?_⟩
  rcases Translator.add_cases t (.string key) text override with ⟨-, hsome⟩ | ⟨_, idxs, hk, -, hp, hstate, -⟩
  · rw [h] at hsome; cases hsome
  cases hk
  obtain ⟨huniq, -⟩ := hiff.mp h
  obtain ⟨hlen, hoff⟩ := paramIndexes_eq_ok hp
  refine ⟨idxs, by rw [hstate, AList.lookup_insert], hlen, fun i hi a ha => ?_⟩
  obtain ⟨b, hb, h0, h1⟩ := hoff i hi
  rw [Nat.zero_add] at hb h1
  obtain ⟨c, -, -, hone⟩ := huniq i hi
  have hba : b = a := by
    have hbocc : Occurs text i b := (indexOf?_eq_some hb).1
    rw [hone a ha.lt_length ha, hone b hbocc.lt_length hbocc]
  exact hba ▸ ⟨h0, h1⟩


theorem add_accepts_templateGrammar_swapped :
    (((newTranslator en).translations.lookup (lit "k")).isSome → false = true) ∧
      TemplateGrammar (lit "\x7b1\x7d of \x7b0\x7d") ∧
      ((newTranslator en).add (.string (lit "k")) (lit "\x7b1\x7d of \x7b0\x7d") false).error =
        none :=
  have hkey : ((newTranslator en).translations.lookup (lit "k")).isSome → false = true :=
    fun h => by cases h
  have hg : TemplateGrammar (lit "\x7b1\x7d of \x7b0\x7d") := by decide
  ⟨hkey, hg, (add_accepts_templateGrammar (newTranslator en) (lit "k") _ false hkey).1.mpr hg⟩

/-- A key that is not a string is refused whatever the text, even one of the grammar. -/
theorem add_other_rejects_templateGrammar :
    TemplateGrammar [] ∧ ((newTranslator en).add .other [] true).error ≠ none :=
  ⟨by decide, by decide⟩

end Toolbox.I18n
