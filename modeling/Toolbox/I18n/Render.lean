import Toolbox.I18n.Store

/-
Rendering after verification.  `VerifyTranslations` returning nil means every plural key has a
slot for every rule its locale lists; with the store invariant this makes `C` and `O` total and
correct.  `T` and `R` walk the stored offsets as if they were in text order, which the adds do
not ensure: after verification `R` renders exactly the slots whose `{0}` comes before their `{1}`.
-/

namespace Toolbox.I18n

open Strings

/-! ### What a nil verification says -/

theorem checkRules_eq_nil {loc : Locale} {c : Category} {key : Bytes}
    {slots : List (Option TransText)} {rules : List PluralRule}
    (h : checkRules loc c key slots rules = some none) :
    ∀ rule ∈ rules, ∃ e, sliceAt slots rule = some (some e) := by
  induction rules with
  | nil => simp
  | cons rule rules ih =>
      unfold checkRules at h
      split at h
      · cases h
      · cases h
      · rename_i e he
        intro r hr
        rcases List.mem_cons.mp hr with rfl | hr
        · exact ⟨e, he⟩
        · exact ih h r hr

theorem verifyMap_eq_nil {loc : Locale} {c : Category}
    {entries : List (Σ _ : Bytes, List (Option TransText))}
    (h : verifyMap loc c entries = some none) :
    ∀ entry ∈ entries, ∀ rule ∈ loc.plurals c, ∃ e, sliceAt entry.2 rule = some (some e) := by
  induction entries with
  | nil => simp
  | cons entry entries ih =>
      obtain ⟨hfirst, hrest⟩ := orElseNil_eq_nil.mp h
      intro entry' hmem
      rcases List.mem_cons.mp hmem with rfl | hmem
      · exact checkRules_eq_nil hfirst
      · exact ih hrest entry' hmem

/-- A nil verification means every key of every plural map has a slot for every rule the
locale lists for that map. -/
theorem verifyTranslations_eq_nil {t : Translator} (h : t.verifyTranslations = some none)
    (c : Category) {key : Bytes} {tarr : List (Option TransText)}
    (hk : (t.plurals c).lookup key = some tarr) :
    ∀ rule ∈ t.locale.plurals c, ∃ e, sliceAt tarr rule = some (some e) := by
  obtain ⟨hcard, hrest⟩ := orElseNil_eq_nil.mp h
  obtain ⟨hord, hrange⟩ := orElseNil_eq_nil.mp hrest
  have hmem : (⟨key, tarr⟩ : Σ _ : Bytes, List (Option TransText)) ∈ (t.plurals c).entries :=
    AList.mem_lookup_iff.mp hk
  cases c with
  | cardinal => exact verifyMap_eq_nil hcard _ hmem
  | ordinal => exact verifyMap_eq_nil hord _ hmem
  | range => exact verifyMap_eq_nil hrange _ hmem

/-! ### `C` and `O` -/

theorem sliceAt_eq_getElem? {α : Type} {xs : List α} {i : Int} {x : α} (h : sliceAt xs i = some x) :
    0 ≤ i ∧ xs[i.toNat]? = some x := by
  unfold sliceAt at h
  split_ifs at h with hi
  exact ⟨hi, h⟩

/-- `C` and `O` on a slot whose offsets span its first `{0}` splice the parameter there. -/
theorem renderOne_eq_replaceFirst {t : Translator} {c : Category} {key : Bytes}
    {tarr : List (Option TransText)} {rule : PluralRule} {e : TransText} {a : Nat}
    (hk : (t.plurals c).lookup key = some tarr) (hslot : sliceAt tarr rule = some (some e))
    (ha : indexOf? paramZero e.text = some a) (hidx : e.indexes = [(a : Int), (a : Int) + 3])
    (param : Bytes) :
    t.renderOne c (.string key) rule param = some (.ok (replaceFirst paramZero param e.text)) := by
  have hle : a + 3 ≤ e.text.length := indexOf?_add_length_le paramZero_ne_nil ha
  have hpre := slice_zero_left (s := e.text) (n := a) (by omega)
  have hpost : slice e.text ((a : Int) + 3) e.text.length = some (e.text.drop (a + 3)) := by
    simpa using slice_to_length hle
  simp [Translator.renderOne, hk, hslot, hidx, hpre, hpost, replaceFirst_of_indexOf? ha]

/-- After a nil verification, `C`- or `O`-style rendering of a key of a reachable store, at a
rule the locale lists, finds a slot and splices the parameter into its first `{0}`. -/
theorem verified_renderOne {loc : Locale} {t : Translator} (hreach : Reachable loc t)
    (hverify : t.verifyTranslations = some none) {c : Category} (hc : c ≠ .range)
    {key : Bytes} {tarr : List (Option TransText)} (hk : (t.plurals c).lookup key = some tarr)
    {rule : PluralRule} (hrule : rule ∈ loc.plurals c) (param : Bytes) :
    ∃ e, sliceAt tarr rule = some (some e) ∧
      t.renderOne c (.string key) rule param = some (.ok (replaceFirst paramZero param e.text)) := by
  have hinv := hreach.inv
  obtain ⟨e, he⟩ := verifyTranslations_eq_nil hverify c hk rule (hinv.locale ▸ hrule)
  obtain ⟨-, hget⟩ := sliceAt_eq_getElem? he
  have hloc := ((hinv.plural c key tarr hk).2 _ e hget).2
  have hzero : ∃ m, c.locate = locateZero m := by
    cases c with
    | cardinal => exact ⟨_, rfl⟩
    | ordinal => exact ⟨_, rfl⟩
    | range => exact absurd rfl hc
  obtain ⟨m, hm⟩ := hzero
  rw [hm] at hloc
  obtain ⟨a, ha, hidx⟩ := locateZero_eq_ok hloc
  exact ⟨e, he, renderOne_eq_replaceFirst hk he ha hidx param⟩

/-- After a nil verification of a reachable store, `C` and `O` on a key of their map, at
arguments whose rule the locale lists, return without panicking the selected slot's text with
its first `{0}` replaced by the parameter. -/
theorem verified_C_O_render {loc : Locale} {t : Translator} (hreach : Reachable loc t)
    (hverify : t.verifyTranslations = some none) :
    (∀ key tarr num digits param, t.cardinalTanslations.lookup key = some tarr →
      loc.cardinalPluralRule num digits ∈ loc.pluralsCardinal →
      ∃ e, sliceAt tarr (loc.cardinalPluralRule num digits) = some (some e) ∧
        t.C (.string key) num digits param = some (.ok (replaceFirst paramZero param e.text))) ∧
    (∀ key tarr num digits param, t.ordinalTanslations.lookup key = some tarr →
      loc.ordinalPluralRule num digits ∈ loc.pluralsOrdinal →
      ∃ e, sliceAt tarr (loc.ordinalPluralRule num digits) = some (some e) ∧
        t.O (.string key) num digits param = some (.ok (replaceFirst paramZero param e.text))) := by
  have hloc := hreach.inv.locale
  refine ⟨fun key tarr num digits param hk hrule => ?_, fun key tarr num digits param hk hrule => ?_⟩
  · simpa [Translator.C, hloc] using
      verified_renderOne hreach hverify (c := .cardinal) (by decide) hk hrule param
  · simpa [Translator.O, hloc] using
      verified_renderOne hreach hverify (c := .ordinal) (by decide) hk hrule param

theorem verified_C_O_render_en :
    Reachable en enStore ∧ enStore.verifyTranslations = some none ∧
    ((∀ key tarr num digits param, enStore.cardinalTanslations.lookup key = some tarr →
      en.cardinalPluralRule num digits ∈ en.pluralsCardinal →
      ∃ e, sliceAt tarr (en.cardinalPluralRule num digits) = some (some e) ∧
        enStore.C (.string key) num digits param =
          some (.ok (replaceFirst paramZero param e.text))) ∧
    (∀ key tarr num digits param, enStore.ordinalTanslations.lookup key = some tarr →
      en.ordinalPluralRule num digits ∈ en.pluralsOrdinal →
      ∃ e, sliceAt tarr (en.ordinalPluralRule num digits) = some (some e) ∧
        enStore.O (.string key) num digits param =
          some (.ok (replaceFirst paramZero param e.text)))) :=
  ⟨reachable_enStore, rfl, verified_C_O_render reachable_enStore rfl⟩

/-! ### `T` and `R` assume offsets in text order -/

/-- `Add` accepts `{1}{0}`, whose offsets are stored by placeholder number, and `T` then slices
the text backwards and panics. -/
theorem T_panics_on_out_of_order_template :
    ((newTranslator en).add (.string (lit "k")) (lit "\x7b1\x7d\x7b0\x7d") false).error = none ∧
    ((newTranslator en).add (.string (lit "k")) (lit "\x7b1\x7d\x7b0\x7d") false).state.T
      (.string (lit "k")) [lit "a", lit "b"] = none := by
  decide

/-- `AddRange` accepts `{1}-{0}`, verification succeeds, and `R` then slices from the end of
`{0}` back to the start of `{1}` and panics. -/
theorem R_panics_on_reversed_range_template :
    ∃ s, (newTranslator en).addRange (.string (lit "k")) (lit "\x7b1\x7d-\x7b0\x7d") 6 false =
        some s ∧ s.error = none ∧ s.state.verifyTranslations = some none ∧
      en.rangePluralRule 1 0 2 0 ∈ en.pluralsRange ∧
      s.state.R (.string (lit "k")) 1 0 2 0 (lit "a") (lit "b") = none :=
  ⟨_, rfl, rfl, rfl, by decide, rfl⟩

/-- `R` on a key whose selected slot holds four offsets: the text before the first, the first
parameter, the text between the second and the third, the second parameter, and the text after
the fourth, each slice panicking when its bounds are out of order. -/
theorem R_eq_slices {t : Translator} {key : Bytes} {tarr : List (Option TransText)}
    {num1 num2 : Float} {digits1 digits2 : UInt64} {e : TransText} {i0 i1 i2 i3 : Int}
    (hk : t.rangeTanslations.lookup key = some tarr)
    (hslot : sliceAt tarr (t.locale.rangePluralRule num1 digits1 num2 digits2) = some (some e))
    (hidx : e.indexes = [i0, i1, i2, i3]) (param1 param2 : Bytes) :
    t.R (.string key) num1 digits1 num2 digits2 param1 param2 =
      (slice e.text 0 i0).bind fun pre => (slice e.text i1 i2).bind fun mid =>
        (slice e.text i3 e.text.length).bind fun post =>
          some (.ok (pre ++ param1 ++ mid ++ param2 ++ post)) := by
  obtain ⟨text, indexes⟩ := e
  dsimp only at hidx
  subst hidx
  unfold Translator.R
  dsimp only
  rw [hk]
  dsimp only
  rw [hslot]
  rfl

/-- After a nil verification of a reachable store, `R` on a key of its range map, at arguments
whose rule the locale lists, finds a slot.  It splices `param1` over the slot's first `{0}` and
`param2` over its first `{1}` when `{0}` comes first, and panics when `{1}` does. -/
theorem verified_R_render {loc : Locale} {t : Translator} (hreach : Reachable loc t)
    (hverify : t.verifyTranslations = some none) {key : Bytes} {tarr : List (Option TransText)}
    (hk : t.rangeTanslations.lookup key = some tarr) {num1 num2 : Float} {digits1 digits2 : UInt64}
    (hrule : loc.rangePluralRule num1 digits1 num2 digits2 ∈ loc.pluralsRange)
    (param1 param2 : Bytes) :
    ∃ e a b, sliceAt tarr (loc.rangePluralRule num1 digits1 num2 digits2) = some (some e) ∧
      indexOf? paramZero e.text = some a ∧ indexOf? paramOne e.text = some b ∧
      ((a + 3 ≤ b ∧ t.R (.string key) num1 digits1 num2 digits2 param1 param2 =
          some (.ok (e.text.take a ++ param1 ++ (e.text.drop (a + 3)).take (b - (a + 3)) ++
            param2 ++ e.text.drop (b + 3)))) ∨
        (b + 3 ≤ a ∧ t.R (.string key) num1 digits1 num2 digits2 param1 param2 = none)) := by
  have hinv := hreach.inv
  obtain ⟨e, he⟩ := verifyTranslations_eq_nil hverify .range hk
    (loc.rangePluralRule num1 digits1 num2 digits2) (by rw [hinv.locale]; exact hrule)
  obtain ⟨-, hget⟩ := sliceAt_eq_getElem? he
  obtain ⟨a, b, ha, hb, hidx⟩ := locateRange_eq_ok ((hinv.plural .range key tarr hk).2 _ e hget).2
  have hR := R_eq_slices hk (by rw [hinv.locale]; exact he) hidx param1 param2
  have hale : a + 3 ≤ e.text.length := indexOf?_add_length_le paramZero_ne_nil ha
  have hble : b + 3 ≤ e.text.length := indexOf?_add_length_le paramOne_ne_nil hb
  have hpre := slice_zero_left (s := e.text) (Nat.le_trans (Nat.le_add_right a 3) hale)
  have hpost : slice e.text ((b : Int) + 3) e.text.length = some (e.text.drop (b + 3)) := by
    simpa using slice_to_length hble
  refine ⟨e, a, b, he, ha, hb, ?_⟩
  rcases paramZero_paramOne_apart ha hb with hab | hba
  · have hmid : slice e.text ((a : Int) + 3) b = some ((e.text.drop (a + 3)).take (b - (a + 3))) := by
      simpa using @slice_natCast e.text (a + 3) b hab (by omega)
    exact .inl ⟨hab, by rw [hR, hpre, hmid, hpost]; rfl⟩
  · have hmid : slice e.text ((a : Int) + 3) b = none := slice_eq_none_of_lt (by omega)
    exact .inr ⟨hba, by rw [hR, hpre, hmid]; rfl⟩

theorem verified_R_render_en :
    ∃ s tarr, (newTranslator en).addRange (.string (lit "k")) (lit "\x7b0\x7d-\x7b1\x7d") 6 false =
        some s ∧ Reachable en s.state ∧ s.state.verifyTranslations = some none ∧
      s.state.rangeTanslations.lookup (lit "k") = some tarr ∧
      en.rangePluralRule 1 0 2 0 ∈ en.pluralsRange ∧
      ∃ e a b, sliceAt tarr (en.rangePluralRule 1 0 2 0) = some (some e) ∧
        indexOf? paramZero e.text = some a ∧ indexOf? paramOne e.text = some b ∧
        ((a + 3 ≤ b ∧ s.state.R (.string (lit "k")) 1 0 2 0 (lit "x") (lit "y") =
            some (.ok (e.text.take a ++ lit "x" ++ (e.text.drop (a + 3)).take (b - (a + 3)) ++
              lit "y" ++ e.text.drop (b + 3)))) ∨
          (b + 3 ≤ a ∧ s.state.R (.string (lit "k")) 1 0 2 0 (lit "x") (lit "y") = none)) :=
  have hreach : Reachable en _ := .step
    (.addRange (.string (lit "k")) (lit "\x7b0\x7d-\x7b1\x7d") 6 false) .init rfl
  ⟨_, _, rfl, hreach, rfl, rfl, by decide,
    @verified_R_render en _ hreach rfl (lit "k") _ rfl 1 2 0 0 (by decide) (lit "x") (lit "y")⟩

end Toolbox.I18n
