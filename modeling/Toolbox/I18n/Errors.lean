import Toolbox.I18n.Render

/-
What the errors of package `i18n` say (`errors.go`).  `VerifyTranslations` on a store the Add
family reaches returns without panicking when its locale lists rules of `PluralRule` only; it
returns nil exactly when every plural key has a translation at every rule its locale lists, and
otherwise it names such a key and rule that has none.  The text of the error of a failing add
contains the locale, the key and the text of the call.
-/

namespace Toolbox.I18n

open Strings

/-- `Error()` of each error of the package. -/
def I18nError.error : I18nError → Bytes
  | .keyIsNotString => lit "translation key must be a string"
  | .unknownTranslation key => lit "unknown translation key: " ++ key
  | .existingTranslator locale => lit "conflicting translator for locale '" ++ locale ++ lit "'"
  | .conflictingTranslation locale key rule text =>
    lit "conflicting key '" ++ key ++ lit "' rule '" ++ ruleString rule ++ lit "' with text '" ++
      text ++ lit "' for locale '" ++ locale ++ lit "', value being ignored"
  | .rangeTranslation text => text
  | .ordinalTranslation text => text
  | .cardinalTranslation text => text
  | .missingPluralTranslation locale key rule translationType =>
    lit "missing '" ++ translationType ++ lit "' plural rule '" ++ ruleString rule ++
      lit "' for translation with key '" ++ key ++ lit "' and locale '" ++ locale ++ lit "'"
  | .missingBrace locale key text =>
    lit "missing brace (\x7b\x7d), in translation. locale: '" ++ locale ++ lit "' key: '" ++ key ++
      lit "' text: '" ++ text ++ lit "'"
  | .badParamSyntax locale param key text =>
    lit "bad parameter syntax, missing parameter '" ++ param ++ lit "' in translation. locale: '" ++
      locale ++ lit "' key: '" ++ key ++ lit "' text: '" ++ text ++ lit "'"
  | .localeNotRegistered locale => lit "locale '" ++ locale ++ lit "' is not registered."
  | .invalidRuleType ruleType => lit "rule type '" ++ ruleType ++ lit "' is not valid"

/-! ### `VerifyTranslations` -/

theorem orElseNil_eq_error {first next : Option (Option I18nError)} {e : I18nError} :
    orElseNil first next = some (some e) ↔
      first = some (some e) ∨ (first = some none ∧ next = some (some e)) := by
  unfold orElseNil
  split <;> simp_all

theorem orElseNil_isSome {first next : Option (Option I18nError)} (h₁ : first.isSome)
    (h₂ : next.isSome) : (orElseNil first next).isSome := by
  unfold orElseNil
  split <;> simp_all

section Verify

variable {loc : Locale} {c : Category} {key : Bytes} {slots : List (Option TransText)}
  {rules : List PluralRule} {e : I18nError}

/-- The inner loop reports the first rule whose slot is nil. -/
theorem checkRules_eq_error (h : checkRules loc c key slots rules = some (some e)) :
    ∃ rule ∈ rules, sliceAt slots rule = some none ∧
      e = .missingPluralTranslation loc.name key rule c.translationType := by
  induction rules with
  | nil => cases h
  | cons rule rules ih =>
    unfold checkRules at h
    split at h
    · cases h
    · next hslot => cases h; exact ⟨rule, List.mem_cons_self _ _, hslot, rfl⟩
    · obtain ⟨r, hr, hslot, he⟩ := ih h
      exact ⟨r, List.mem_cons_of_mem _ hr, hslot, he⟩

theorem checkRules_eq_nil_of (h : ∀ rule ∈ rules, ∃ e, sliceAt slots rule = some (some e)) :
    checkRules loc c key slots rules = some none := by
  induction rules with
  | nil => rfl
  | cons rule rules ih =>
    obtain ⟨e, he⟩ := h rule (List.mem_cons_self _ _)
    unfold checkRules
    rw [he]
    exact ih fun r hr => h r (List.mem_cons_of_mem _ hr)

theorem checkRules_isSome (h : ∀ rule ∈ rules, (sliceAt slots rule).isSome) :
    (checkRules loc c key slots rules).isSome := by
  induction rules with
  | nil => rfl
  | cons rule rules ih =>
    obtain ⟨x, hx⟩ := Option.isSome_iff_exists.mp (h rule (List.mem_cons_self _ _))
    unfold checkRules
    rw [hx]
    cases x with
    | none => rfl
    | some _ => exact ih fun r hr => h r (List.mem_cons_of_mem _ hr)

variable {m : GoMap (List (Option TransText))}

theorem verifyMap_eq_error {entries : List (Σ _ : Bytes, List (Option TransText))}
    (h : verifyMap loc c entries = some (some e)) :
    ∃ entry ∈ entries, ∃ rule ∈ loc.plurals c, sliceAt entry.2 rule = some none ∧
      e = .missingPluralTranslation loc.name entry.1 rule c.translationType := by
  induction entries with
  | nil => cases h
  | cons entry entries ih =>
    rcases orElseNil_eq_error.mp h with h | ⟨-, h⟩
    · obtain ⟨rule, hr, hslot, he⟩ := checkRules_eq_error h
      exact ⟨entry, List.mem_cons_self _ _, rule, hr, hslot, he⟩
    · obtain ⟨entry', hmem, rest⟩ := ih h
      exact ⟨entry', List.mem_cons_of_mem _ hmem, rest⟩

/-- The loop over a plural map reports a key of the map and a listed rule whose slot is nil. -/
theorem verifyMap_entries_eq_error (h : verifyMap loc c m.entries = some (some e)) :
    ∃ key tarr rule, m.lookup key = some tarr ∧ rule ∈ loc.plurals c ∧
      sliceAt tarr rule = some none ∧
      e = .missingPluralTranslation loc.name key rule c.translationType :=
  let ⟨entry, hmem, rule, hr, hslot, he⟩ := verifyMap_eq_error h
  ⟨entry.1, entry.2, rule, AList.mem_lookup_iff.mpr hmem, hr, hslot, he⟩

theorem verifyMap_eq_nil_of {entries : List (Σ _ : Bytes, List (Option TransText))}
    (h : ∀ entry ∈ entries, ∀ rule ∈ loc.plurals c, ∃ e, sliceAt entry.2 rule = some (some e)) :
    verifyMap loc c entries = some none := by
  induction entries with
  | nil => rfl
  | cons entry entries ih =>
    exact orElseNil_eq_nil.mpr ⟨checkRules_eq_nil_of (h entry (List.mem_cons_self _ _)),
      ih fun x hx => h x (List.mem_cons_of_mem _ hx)⟩

theorem verifyMap_isSome {entries : List (Σ _ : Bytes, List (Option TransText))}
    (h : ∀ entry ∈ entries, ∀ rule ∈ loc.plurals c, (sliceAt entry.2 rule).isSome) :
    (verifyMap loc c entries).isSome := by
  induction entries with
  | nil => rfl
  | cons entry entries ih =>
    exact orElseNil_isSome (checkRules_isSome (h entry (List.mem_cons_self _ _)))
      (ih fun x hx => h x (List.mem_cons_of_mem _ hx))

end Verify

/-- On a store the Add family reaches whose locale lists only rules of `PluralRule`,
`VerifyTranslations` returns without panicking.  It returns nil exactly when every key of every
plural map has a translation at every rule the locale lists for that map; otherwise its error
names such a key and rule that has none, with the map's translation type and the locale. -/
theorem Reachable.verifyTranslations_exact {loc : Locale} {t : Translator} (h : Reachable loc t)
    (hrules : ∀ c, ∀ rule ∈ loc.plurals c, 0 ≤ rule ∧ rule < 7) :
    ∃ res, t.verifyTranslations = some res ∧
      (res = none ↔ ∀ c key tarr, (t.plurals c).lookup key = some tarr →
        ∀ rule ∈ loc.plurals c, ∃ e, sliceAt tarr rule = some (some e)) ∧
      ∀ e, res = some e → ∃ c key tarr rule, (t.plurals c).lookup key = some tarr ∧
        rule ∈ loc.plurals c ∧ sliceAt tarr rule = some none ∧
        e = .missingPluralTranslation loc.name key rule c.translationType := by
  have hinv := h.inv
  obtain rfl := hinv.locale
  -- every slot a listed rule selects can be read: the arrays have seven slots
  have hread : ∀ c, ∀ entry ∈ (t.plurals c).entries, ∀ rule ∈ t.locale.plurals c,
      (sliceAt entry.2 rule).isSome := fun c entry hmem rule hr => by
    have hlen := (hinv.plural c entry.1 entry.2 (AList.mem_lookup_iff.mpr hmem)).1
    obtain ⟨h0, h7⟩ := hrules c rule hr
    simp [sliceAt, h0, hlen, (Int.toNat_lt h0).mpr h7]
  obtain ⟨res, hres⟩ : ∃ res, t.verifyTranslations = some res := Option.isSome_iff_exists.mp
    (orElseNil_isSome (verifyMap_isSome (hread .cardinal))
      (orElseNil_isSome (verifyMap_isSome (hread .ordinal)) (verifyMap_isSome (hread .range))))
  refine ⟨res, hres, ⟨fun hnil c key tarr hk => ?_, fun hall => ?_⟩, fun e he => ?_⟩
  · subst hnil
    exact verifyTranslations_eq_nil hres c hk
  · have hfilled : ∀ c, ∀ entry ∈ (t.plurals c).entries, ∀ rule ∈ t.locale.plurals c,
        ∃ e, sliceAt entry.2 rule = some (some e) := fun c entry hmem =>
      hall c entry.1 entry.2 (AList.mem_lookup_iff.mpr hmem)
    have hnil : t.verifyTranslations = some none :=
      orElseNil_eq_nil.mpr ⟨verifyMap_eq_nil_of (hfilled .cardinal),
        orElseNil_eq_nil.mpr ⟨verifyMap_eq_nil_of (hfilled .ordinal),
          verifyMap_eq_nil_of (hfilled .range)⟩⟩
    rw [hres] at hnil
    exact Option.some.inj hnil
  · subst he
    rcases orElseNil_eq_error.mp hres with hc | ⟨-, hres⟩
    · exact ⟨.cardinal, verifyMap_entries_eq_error hc⟩
    rcases orElseNil_eq_error.mp hres with ho | ⟨-, hr⟩
    · exact ⟨.ordinal, verifyMap_entries_eq_error ho⟩
    · exact ⟨.range, verifyMap_entries_eq_error hr⟩

/-- After one `AddCardinal` at `Other` only, verification reports the missing `One`. -/
theorem verifyTranslations_exact_en :
    ∃ s, (newTranslator en).addCardinal (.string (lit "n")) (lit "\x7b0\x7d items") 6 false =
        some s ∧ Reachable en s.state ∧ (∀ c, ∀ rule ∈ en.plurals c, 0 ≤ rule ∧ rule < 7) ∧
      ∃ res, s.state.verifyTranslations = some res ∧
        (res = none ↔ ∀ c key tarr, (s.state.plurals c).lookup key = some tarr →
          ∀ rule ∈ en.plurals c, ∃ e, sliceAt tarr rule = some (some e)) ∧
        ∀ e, res = some e → ∃ c key tarr rule, (s.state.plurals c).lookup key = some tarr ∧
          rule ∈ en.plurals c ∧ sliceAt tarr rule = some none ∧
          e = .missingPluralTranslation en.name key rule c.translationType :=
  have hreach : Reachable en _ :=
    .step (.addCardinal (.string (lit "n")) (lit "\x7b0\x7d items") 6 false) .init rfl
  have hrules : ∀ c, ∀ rule ∈ en.plurals c, 0 ≤ rule ∧ rule < 7 := fun c => by
    cases c <;> decide
  ⟨_, rfl, hreach, hrules, Reachable.verifyTranslations_exact hreach hrules⟩

/-! ### The errors of the Add family -/

/-- The key a call of the Add family is made with. -/
def Call.key : Call → Key
  | .add k _ _ => k
  | .addCardinal k _ _ _ => k
  | .addOrdinal k _ _ _ => k
  | .addRange k _ _ _ => k

/-- The text a call of the Add family is made with. -/
def Call.text : Call → Bytes
  | .add _ text _ => text
  | .addCardinal _ text _ _ => text
  | .addOrdinal _ text _ _ => text
  | .addRange _ text _ _ => text

/-- The text of an error contains a locale, a key and a text. -/
def I18nError.Names (e : I18nError) (locale key text : Bytes) : Prop :=
  locale <:+: e.error ∧ key <:+: e.error ∧ text <:+: e.error

theorem infix_append_of_infix {x m : Bytes} (a : Bytes) (h : x <:+: m) : x <:+: a ++ m :=
  h.trans (List.suffix_append a m).isInfix

theorem error_categoryError (c : Category) (text : Bytes) : (c.error text).error = text := by
  cases c <;> rfl

section Names

variable (locale key text : Bytes)

/-- The texts the Add family builds its errors from contain the call's locale, key and text. -/
theorem names_of_errors (rule : PluralRule) (c : Category) (param msg : Bytes) :
    (I18nError.conflictingTranslation locale key rule text).Names locale key text ∧
      (I18nError.missingBrace locale key text).Names locale key text ∧
      (I18nError.badParamSyntax locale param key text).Names locale key text ∧
      (c.error (invalidRuleText c rule locale key text)).Names locale key text ∧
      (c.error (msg ++ contextText locale key text)).Names locale key text := by
  refine ⟨?_, ?_, ?_, ?_, ?_⟩ <;>
    simp only [I18nError.Names, ↓error_categoryError, I18nError.error, invalidRuleText,
      contextText, List.append_assoc] <;>
    refine ⟨?_, ?_, ?_⟩ <;>
    repeat (first
      | exact List.infix_append' [] _ _
      | exact List.infix_refl _
      | apply infix_append_of_infix)

end Names

namespace Translator

variable {t : Translator} {k : Key} {text : Bytes} {override : Bool} {e : I18nError}

theorem add_error_names (h : (t.add k text override).error = some e) :
    (k = .other ∧ e = .keyIsNotString) ∨ ∃ key, k = .string key ∧ e.Names t.locale.name key text := by
  unfold add at h
  cases k with
  | other => exact .inl ⟨rfl, (Option.some.inj h).symm⟩
  | string key =>
    refine .inr ⟨key, rfl, ?_⟩
    dsimp only at h
    split_ifs at h
    · cases h; exact (names_of_errors _ _ _ 0 .cardinal [] []).1
    · cases h; exact (names_of_errors _ _ _ 0 .cardinal [] []).2.1
    · split at h
      · next param _ => cases h; exact (names_of_errors _ _ _ 0 .cardinal param []).2.2.1
      · cases h

theorem addPlural_error_names {c : Category} {rule : PluralRule} {s : Step}
    (h : t.addPlural c k text rule override = some s) (he : s.error = some e) :
    (k = .other ∧ e = .keyIsNotString) ∨ ∃ key, k = .string key ∧ e.Names t.locale.name key text := by
  unfold addPlural at h
  cases k with
  | other => cases h; exact .inl ⟨rfl, (Option.some.inj he).symm⟩
  | string key =>
    refine .inr ⟨key, rfl, ?_⟩
    dsimp only at h
    split_ifs at h
    · split at h
      · cases h
      · cases h; cases he; exact (names_of_errors _ _ _ rule c [] []).1
      · split at h
        · next msg _ =>
          obtain ⟨t', -, rfl⟩ := Option.map_eq_some'.mp h
          cases he
          exact (names_of_errors _ _ _ rule c [] msg).2.2.2.2
        · obtain ⟨t', -, rfl⟩ := Option.map_eq_some'.mp h
          cases he
    · cases h; cases he; exact (names_of_errors _ _ _ rule c [] []).2.2.2.1

/-- Every error a call of the Add family returns says in its text the call's locale, key and
text, unless the key is not a string. -/
theorem call_error_names {call : Call} {s : Step} (h : t.call call = some s)
    (he : s.error = some e) :
    (call.key = .other ∧ e = .keyIsNotString) ∨
      ∃ key, call.key = .string key ∧ e.Names t.locale.name key call.text := by
  cases call with
  | add k text override => cases h; exact add_error_names he
  | addCardinal => exact addPlural_error_names h he
  | addOrdinal => exact addPlural_error_names h he
  | addRange => exact addPlural_error_names h he

end Translator

end Toolbox.I18n
