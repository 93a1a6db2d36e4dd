import Toolbox.I18n.Store

/-
Templates whose placeholders come in order.  `T` walks the offsets `Add` stores as if each
placeholder came after the one before it.  For a template made of brace-free pieces with `{0}`,
`{1}`, ... between them in that order, `Add` finds each placeholder where it was put, and `T`
then replaces each one by its parameter.  The search for `{i}` cannot stop early because a
placeholder starts only at a `{`, and the digits `strconv.Itoa` writes tell placeholders apart.
-/

namespace Toolbox.I18n

open Strings

/-- The template with the `pieces` and, between each piece and the next, the placeholders
`{i}`, `{i+1}`, ... in order. -/
def orderedTemplate : List Bytes → Nat → Bytes
  | s :: s' :: rest, i => s ++ param i ++ orderedTemplate (s' :: rest) (i + 1)
  | [s], _ => s
  | [], _ => []

/-- The pieces with `params[i]` in place of `{i}`: what rendering the template is meant to
give. -/
def filledTemplate (params : List Bytes) : List Bytes → Nat → Bytes
  | s :: s' :: rest, i => s ++ params.getD i [] ++ filledTemplate params (s' :: rest) (i + 1)
  | [s], _ => s
  | [], _ => []

/-- The offsets, start and end pairwise, of the placeholders of `orderedTemplate pieces i` when
it stands at offset `b` of a text. -/
def templateOffsets : List Bytes → Nat → Nat → List Int
  | s :: s' :: rest, i, b =>
    ((b + s.length : Nat) : Int) :: ((b + s.length : Nat) + (param i).length : Int) ::
      templateOffsets (s' :: rest) (i + 1) (b + s.length + (param i).length)
  | [_], _, _ => []
  | [], _, _ => []

/-! ### Where a placeholder can start -/

theorem param_eq (i : Nat) : param i = 123 :: (Strconv.itoa i ++ [125]) := rfl

theorem head?_of_starts_with_param {j : Nat} {l : Bytes} (h : param j <+: l) : l.head? = some 123 := by
  obtain ⟨r, rfl⟩ := h
  rw [param_eq]
  rfl

/-- No placeholder starts at an offset whose byte is not `{`. -/
theorem not_param_prefix_drop {j m : Nat} {text : Bytes} (h : text[m]? ≠ some 123) :
    ¬ param j <+: text.drop m := fun hp =>
  h (by rw [← List.head?_drop]; exact head?_of_starts_with_param hp)

theorem eq_of_digits_then_brace {x y r : Bytes} (hx : ∀ b ∈ x, 48 ≤ b.toNat ∧ b.toNat < 58)
    (hy : ∀ b ∈ y, 48 ≤ b.toNat ∧ b.toNat < 58) (h : x ++ [125] <+: y ++ 125 :: r) : x = y := by
  induction x generalizing y with
  | nil =>
    cases y with
    | nil => rfl
    | cons c y =>
      have hc := (List.cons_prefix_cons.mp h).1
      have := hy c (List.mem_cons_self _ _)
      rw [← hc] at this
      exact absurd this (by decide)
  | cons a x ih =>
    cases y with
    | nil =>
      have ha := (List.cons_prefix_cons.mp h).1
      have := hx a (List.mem_cons_self _ _)
      rw [ha] at this
      exact absurd this (by decide)
    | cons c y =>
      obtain ⟨rfl, hrest⟩ := List.cons_prefix_cons.mp h
      rw [ih (fun b hb => hx b (List.mem_cons_of_mem _ hb))
        (fun b hb => hy b (List.mem_cons_of_mem _ hb)) hrest]

/-- A placeholder that starts where another starts is that placeholder. -/
theorem eq_of_starts_with_param {i j : Nat} {r : Bytes} (h : param j <+: param i ++ r) : j = i := by
  rw [param_eq, param_eq, List.cons_append, List.append_assoc] at h
  exact Strconv.itoa_injective (eq_of_digits_then_brace (fun _ => Strconv.digit_of_mem_itoa)
    (fun _ => Strconv.digit_of_mem_itoa) (List.cons_prefix_cons.mp h).2)

theorem ne_brace_of_mem_param_tail {i k : Nat} {x : UInt8} (hk : 0 < k)
    (h : (param i)[k]? = some x) : x ≠ 123 := by
  rw [param_eq] at h
  obtain ⟨k, rfl⟩ := Nat.exists_eq_add_of_lt hk
  rw [Nat.zero_add, List.getElem?_cons_succ] at h
  rcases List.mem_append.mp (List.getElem?_mem h) with hx | hx
  · have := Strconv.digit_of_mem_itoa hx
    rintro rfl
    exact absurd this (by decide)
  · rw [List.mem_singleton.mp hx]
    decide

/-! ### `Add` on an ordered template -/

section Ordered

variable {pieces : List Bytes}

theorem count_orderedTemplate (hfree : ∀ s ∈ pieces, (123 : UInt8) ∉ s ∧ (125 : UInt8) ∉ s)
    (i : Nat) :
    (orderedTemplate pieces i).count 123 = pieces.length - 1 ∧
      (orderedTemplate pieces i).count 125 = pieces.length - 1 := by
  induction pieces generalizing i with
  | nil => exact ⟨rfl, rfl⟩
  | cons s rest ih =>
    cases rest with
    | nil =>
      exact ⟨List.count_eq_zero_of_not_mem (hfree s (List.mem_singleton_self _)).1,
        List.count_eq_zero_of_not_mem (hfree s (List.mem_singleton_self _)).2⟩
    | cons s' rest =>
      obtain ⟨h0, h1⟩ := ih (fun x hx => hfree x (List.mem_cons_of_mem _ hx)) (i + 1)
      have hs := hfree s (List.mem_cons_self _ _)
      have hdigits : (123 : UInt8) ∉ Strconv.itoa i ∧ (125 : UInt8) ∉ Strconv.itoa i :=
        ⟨fun h => absurd (Strconv.digit_of_mem_itoa h) (by decide),
          fun h => absurd (Strconv.digit_of_mem_itoa h) (by decide)⟩
      simp only [orderedTemplate, param_eq, List.count_append, List.count_cons, h0, h1,
        List.count_eq_zero_of_not_mem hs.1, List.count_eq_zero_of_not_mem hs.2,
        List.count_eq_zero_of_not_mem hdigits.1, List.count_eq_zero_of_not_mem hdigits.2,
        List.count_nil, List.length_cons]
      constructor <;> simp <;> omega

/-- The loop of `Add` over `{i}`, `{i+1}`, ... on a text that holds an ordered template at
offset `b`, no placeholder from `{i}` on starting before it, stores the template's offsets. -/
theorem paramIndexes_orderedTemplate {text : Bytes} :
    ∀ (pieces : List Bytes) (i b : Nat),
      (∀ s ∈ pieces, (123 : UInt8) ∉ s ∧ (125 : UInt8) ∉ s) → text.drop b = orderedTemplate pieces i →
      (∀ j, i ≤ j → ∀ m < b, ¬ param j <+: text.drop m) →
      paramIndexes text i (pieces.length - 1) = .ok (templateOffsets pieces i b)
  | [], _, _, _, _, _ => rfl
  | [_], _, _, _, _, _ => rfl
  | s :: s' :: rest, i, b, hfree, hsuffix, hbefore => by
    have hs := hfree s (List.mem_cons_self _ _)
    have hat : text.drop (b + s.length) = param i ++ orderedTemplate (s' :: rest) (i + 1) := by
      rw [← List.drop_drop, hsuffix, orderedTemplate, List.append_assoc, List.drop_left]
    -- inside the piece no placeholder starts: its bytes are not `{`
    have hpiece : ∀ j m, b ≤ m → m < b + s.length → ¬ param j <+: text.drop m := by
      intro j m hbm hm
      apply not_param_prefix_drop
      obtain ⟨k, rfl⟩ := Nat.exists_eq_add_of_le hbm
      rw [← List.getElem?_drop, hsuffix, orderedTemplate, List.append_assoc,
        List.getElem?_append_left (by omega)]
      intro hk
      exact hs.1 (List.getElem?_mem hk)
    have hfirst : indexOf? (param i) text = some (b + s.length) :=
      indexOf?_eq_some_of_first (by rw [hat]; exact List.prefix_append _ _) fun m hm =>
        if hmb : m < b then hbefore i le_rfl m hmb else hpiece i m (by omega) hm
    -- before the next piece only `{i}` starts, and only at its own offset
    have hnext : ∀ j, i + 1 ≤ j → ∀ m < b + s.length + (param i).length,
        ¬ param j <+: text.drop m := by
      intro j hj m hm
      by_cases hmb : m < b
      · exact hbefore j (by omega) m hmb
      by_cases hms : m < b + s.length
      · exact hpiece j m (by omega) hms
      obtain ⟨k, rfl⟩ := Nat.exists_eq_add_of_le (Nat.le_of_not_lt hms)
      rcases Nat.eq_zero_or_pos k with rfl | hk
      · rw [Nat.add_zero, hat]
        exact fun h => by have := eq_of_starts_with_param h; omega
      · apply not_param_prefix_drop
        rw [← List.getElem?_drop, hat, List.getElem?_append_left (by omega)]
        intro hx
        exact ne_brace_of_mem_param_tail hk hx rfl
    have ih := paramIndexes_orderedTemplate (s' :: rest) (i + 1)
      (b + s.length + (param i).length) (fun x hx => hfree x (List.mem_cons_of_mem _ hx))
      (by rw [← List.drop_drop, hat, List.drop_left]) hnext
    rw [List.length_cons, List.length_cons, Nat.add_sub_cancel, paramIndexes]
    simp only [List.length_cons, Nat.add_sub_cancel] at ih
    rw [index_eq_of_indexOf? hfirst, if_neg (by omega), ih]
    rfl

/-- `T`'s loop over the offsets of an ordered template standing at offset `b` of the text
splices each parameter in. -/
theorem renderParams_orderedTemplate {text : Bytes} {params : List Bytes} :
    ∀ (pieces : List Bytes) (i b : Nat), text.drop b = orderedTemplate pieces i →
      b ≤ text.length → i + (pieces.length - 1) ≤ params.length →
      Translator.renderParams text params b i (templateOffsets pieces i b) =
        some (filledTemplate params pieces i)
  | [], _, b, hsuffix, hb, _ => by
    rw [templateOffsets, Translator.renderParams, slice_to_length hb, hsuffix]
    rfl
  | [_], _, b, hsuffix, hb, _ => by
    rw [templateOffsets, Translator.renderParams, slice_to_length hb, hsuffix]
    rfl
  | s :: s' :: rest, i, b, hsuffix, hb, hparams => by
    have hlen : b + s.length + (param i).length ≤ text.length := by
      have := congrArg List.length hsuffix
      simp only [List.length_drop, orderedTemplate, List.length_append] at this
      omega
    have hpiece : slice text b ((b + s.length : Nat) : Int) = some s := by
      rw [slice_natCast (by omega) (by omega), Nat.add_sub_cancel_left, hsuffix, orderedTemplate,
        List.append_assoc, List.take_left]
    have hparam : params[i]? = some (params.getD i []) := by
      rw [List.getD_eq_getElem?_getD, List.getElem?_eq_getElem (by simp at hparams; omega)]
      rfl
    have ih := @renderParams_orderedTemplate text params (s' :: rest) (i + 1)
      (b + s.length + (param i).length)
      (by rw [Nat.add_assoc, ← List.drop_drop, hsuffix, orderedTemplate,
        List.drop_left' (List.length_append _ _)]) hlen
      (by simp only [List.length_cons] at hparams ⊢; omega)
    have hnext : (((b + s.length : Nat) : Int) + (param i).length : Int) =
        ((b + s.length + (param i).length : Nat) : Int) := by push_cast; rfl
    simp only [templateOffsets, Translator.renderParams, hpiece, hparam, hnext, ih,
      Option.bind_eq_bind, Option.pure_def, Option.some_bind, filledTemplate, List.append_assoc]

end Ordered

/-- `Add` accepts every template whose placeholders `{0}`, `{1}`, ... come in order between
brace-free pieces, unless the key holds a text that `override` does not let it replace; `T`
then renders the template with each placeholder replaced by its parameter. -/
theorem add_T_orderedTemplate (t : Translator) (key : Bytes) (override : Bool)
    (hkey : (t.translations.lookup key).isSome → override = true) {pieces : List Bytes}
    (hfree : ∀ s ∈ pieces, (123 : UInt8) ∉ s ∧ (125 : UInt8) ∉ s) {params : List Bytes}
    (hparams : pieces.length - 1 ≤ params.length) :
    (t.add (.string key) (orderedTemplate pieces 0) override).error = none ∧
      (t.add (.string key) (orderedTemplate pieces 0) override).state.T (.string key) params =
        some (.ok (filledTemplate params pieces 0)) := by
  obtain ⟨hleft, hright⟩ := count_orderedTemplate hfree 0
  have hidx := @paramIndexes_orderedTemplate (orderedTemplate pieces 0) pieces 0 0 hfree rfl
    fun _ _ m hm => absurd hm (Nat.not_lt_zero m)
  have hcount : Strings.count (orderedTemplate pieces 0) leftBrace = pieces.length - 1 := hleft
  have hcount' : Strings.count (orderedTemplate pieces 0) rightBrace = pieces.length - 1 := hright
  have hnew : ((t.translations.lookup key).isSome && !override) = false := by
    cases h : (t.translations.lookup key).isSome
    · rfl
    · simp [hkey h]
  simp only [Translator.add, hnew, hcount, hcount', hidx, Bool.false_eq_true, if_false,
    ne_eq, not_true_eq_false]
  refine ⟨trivial, ?_⟩
  simp only [Translator.T, AList.lookup_insert, Option.map_eq_some']
  exact ⟨_, renderParams_orderedTemplate pieces 0 0 rfl (Nat.zero_le _) (by omega), rfl⟩

theorem add_T_orderedTemplate_greeting :
    (((newTranslator en).translations.lookup (lit "k")).isSome → false = true) ∧
    (∀ s ∈ [lit "Hello ", lit ", you have ", lit " messages"],
      (123 : UInt8) ∉ s ∧ (125 : UInt8) ∉ s) ∧
    [lit "Hello ", lit ", you have ", lit " messages"].length - 1 ≤ [lit "Bob", lit "3"].length ∧
    ((newTranslator en).add (.string (lit "k"))
        (orderedTemplate [lit "Hello ", lit ", you have ", lit " messages"] 0) false).error = none ∧
      ((newTranslator en).add (.string (lit "k"))
        (orderedTemplate [lit "Hello ", lit ", you have ", lit " messages"] 0) false).state.T
          (.string (lit "k")) [lit "Bob", lit "3"] =
        some (.ok (filledTemplate [lit "Bob", lit "3"]
          [lit "Hello ", lit ", you have ", lit " messages"] 0)) :=
  ⟨(fun h => by cases h), by decide, by decide,
    add_T_orderedTemplate (newTranslator en) (lit "k") false (fun h => by cases h) (by decide)
      (by decide)⟩

example : filledTemplate [lit "Bob", lit "3"] [lit "Hello ", lit ", you have ", lit " messages"] 0 =
    lit "Hello Bob, you have 3 messages" := by
  decide

end Toolbox.I18n
