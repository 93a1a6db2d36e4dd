import Toolbox.I18n.Store

/-
The registry of package `i18n` (`universalTranslator.go`): one store per registered locale,
keyed by its lower-cased name, and a fallback store.  Stores are shared objects, so the registry
holds them in a heap and refers to them by address.
-/

namespace Toolbox.I18n

open Strings

/-- `UniversalTranslator`: the stores created so far, addressed by position; `translators`, from
lower-cased locale names to stores; and the fallback store, if any. -/
structure UniversalTranslator where
  heap : List Translator
  translators : GoMap Nat
  fallback : Option Nat

namespace UniversalTranslator

/-- The loop of `NewUniversalTranslator`: register a store for each supported locale, and make it
the fallback when its locale's name is the fallback's; reading the name of a nil fallback
panics. -/
def registerSupported (fallback : Option Locale) :
    UniversalTranslator → List Locale → Option UniversalTranslator
  | u, [] => some u
  | u, v :: vs =>
    match fallback with
    | none => none
    | some fb =>
      registerSupported fallback
        { heap := u.heap ++ [newTranslator v]
          translators := u.translators.insert (toLower v.name) u.heap.length
          fallback := if fb.name = v.name then some u.heap.length else u.fallback } vs

end UniversalTranslator

/-- `NewUniversalTranslator`: the supported locales' stores, then a store of its own for a
fallback that none of them matched. -/
def newUniversalTranslator (fallback : Option Locale) (supportedLocales : List Locale) :
    Option UniversalTranslator :=
  (UniversalTranslator.registerSupported fallback ⟨[], ∅, none⟩ supportedLocales).map fun u =>
    match u.fallback, fallback with
    | none, some fb => { u with heap := u.heap ++ [newTranslator fb], fallback := some u.heap.length }
    | _, _ => u

namespace UniversalTranslator

/-- `FindTranslator`: the first locale registered under its lower-cased name, else the
fallback with `found` false. -/
def findTranslator (u : UniversalTranslator) : List Bytes → Option Nat × Bool
  | [] => (u.fallback, false)
  | locale :: locales =>
    match u.translators.lookup (toLower locale) with
    | some p => (some p, true)
    | none => u.findTranslator locales

/-- `GetTranslator`. -/
def getTranslator (u : UniversalTranslator) (locale : Bytes) : Option Nat × Bool :=
  match u.translators.lookup (toLower locale) with
  | some p => (some p, true)
  | none => (u.fallback, false)

/-- `AddTranslator`: a fresh store for the locale, refused when its lower-cased name is taken
and `override` is false; it replaces the fallback when the fallback's locale has the same name,
and reading the name of a nil fallback panics. -/
def addTranslator (u : UniversalTranslator) (translator : Locale) (override : Bool) :
    Option (UniversalTranslator × Option I18nError) :=
  let lc := toLower translator.name
  if (u.translators.lookup lc).isSome && !override then
    some (u, some (.existingTranslator translator.name))
  else
    match u.fallback.bind (u.heap[·]?) with
    | none => none
    | some fb =>
      let heap := u.heap ++ [newTranslator translator]
      if fb.locale.name = translator.name then
        if !override then some (u, some (.existingTranslator translator.name))
        else some (⟨heap, u.translators.insert lc u.heap.length, some u.heap.length⟩, none)
      else some (⟨heap, u.translators.insert lc u.heap.length, u.fallback⟩, none)

/-- `VerifyTranslations`: each registered store's `VerifyTranslations`, in the order Go ranges over
`translators` in, given here as a list of its entries, stopping at the first error. -/
def verifyTranslations (u : UniversalTranslator) :
    List (Σ _ : Bytes, Nat) → Option (Option I18nError)
  | [] => some none
  | ⟨_, p⟩ :: rest =>
    orElseNil ((u.heap[p]?).bind Translator.verifyTranslations) (u.verifyTranslations rest)

/-- The fallback is the very store registered under the fallback's lower-cased locale name,
whenever that name is registered. -/
def FallbackShared (u : UniversalTranslator) : Prop :=
  ∀ p fb, u.fallback = some p → u.heap[p]? = some fb →
    ∀ q, u.translators.lookup (toLower fb.locale.name) = some q → q = p

/-- What `AddTranslator` can do: refuse, leaving the registry as it was; or, when the name is
free or `override` is set, append a fresh store, register it under the lower-cased name, and
make it the fallback when the fallback's locale has the same name, which `override` must then
allow. -/
theorem addTranslator_cases {u u' : UniversalTranslator} {translator : Locale} {override : Bool}
    {e : Option I18nError} (h : u.addTranslator translator override = some (u', e)) :
    (u' = u ∧ e.isSome) ∨
      (e = none ∧ ((u.translators.lookup (toLower translator.name)).isSome → override) ∧
        ∃ p fb, u.fallback = some p ∧ u.heap[p]? = some fb ∧
          (fb.locale.name = translator.name → override) ∧
          u' = ⟨u.heap ++ [newTranslator translator],
            u.translators.insert (toLower translator.name) u.heap.length,
            if fb.locale.name = translator.name then some u.heap.length else u.fallback⟩) := by
  unfold addTranslator at h
  dsimp only at h
  split at h
  · cases h; exact .inl ⟨rfl, rfl⟩
  · next hfree =>
    have hfree : (u.translators.lookup (toLower translator.name)).isSome → override := by
      simpa using hfree
    split at h
    · cases h
    · next fb hfb =>
      obtain ⟨p, hp, hfb⟩ := Option.bind_eq_some.mp hfb
      split at h
      · split at h
        · cases h; exact .inl ⟨rfl, rfl⟩
        · next hsame hover =>
          cases h
          exact .inr ⟨rfl, hfree, p, fb, hp, hfb, fun _ => by simpa using hover, by rw [if_pos hsame]⟩
      · next hother =>
        cases h
        exact .inr ⟨rfl, hfree, p, fb, hp, hfb, fun h => absurd h hother, by rw [if_neg hother]⟩

theorem verifyTranslations_eq_nil_iff_mem {u : UniversalTranslator}
    {l : List (Σ _ : Bytes, Nat)} :
    u.verifyTranslations l = some none ↔
      ∀ x ∈ l, (u.heap[x.2]?).bind Translator.verifyTranslations = some none := by
  induction l with
  | nil => simp [verifyTranslations]
  | cons x l ih => simp [verifyTranslations, orElseNil_eq_nil, ih]

/-- The registry's `VerifyTranslations` returns nil exactly when every registered store's
`VerifyTranslations` does, whatever order Go ranges over `translators` in. -/
theorem verifyTranslations_eq_nil_iff {u : UniversalTranslator} {l : List (Σ _ : Bytes, Nat)}
    (hl : l.Perm u.translators.entries) :
    u.verifyTranslations l = some none ↔
      ∀ name p, u.translators.lookup name = some p →
        ∃ t, u.heap[p]? = some t ∧ t.verifyTranslations = some none := by
  rw [verifyTranslations_eq_nil_iff_mem]
  constructor
  · intro h name p hp
    exact Option.bind_eq_some.mp (h ⟨name, p⟩ (hl.mem_iff.mpr (AList.mem_lookup_iff.mp hp)))
  · rintro h ⟨name, p⟩ hx
    obtain ⟨t, ht, hv⟩ := h name p (AList.mem_lookup_iff.mpr (hl.mem_iff.mp hx))
    rw [ht]
    exact hv

theorem verifyTranslations_eq_nil_iff_en :
    ∃ u, newUniversalTranslator (some en) [en] = some u ∧
      u.verifyTranslations u.translators.entries = some none ∧
      (u.verifyTranslations u.translators.entries = some none ↔
        ∀ name p, u.translators.lookup name = some p →
          ∃ t, u.heap[p]? = some t ∧ t.verifyTranslations = some none) :=
  ⟨_, rfl, rfl, verifyTranslations_eq_nil_iff (List.Perm.refl _)⟩

end UniversalTranslator

/-- The registries reachable from `NewUniversalTranslator(fallback, supported...)` by
`AddTranslator` calls that return, with or without an error. -/
inductive RegistryReachable (fallback : Option Locale) (supported : List Locale) :
    UniversalTranslator → Prop
  | init {u : UniversalTranslator} :
      newUniversalTranslator fallback supported = some u → RegistryReachable fallback supported u
  | add {u u' : UniversalTranslator} {e : Option I18nError} (translator : Locale) (override : Bool) :
      RegistryReachable fallback supported u → u.addTranslator translator override = some (u', e) →
      RegistryReachable fallback supported u'

/-- The registry keys stores by lower-cased name but matches the fallback by exact name: with
fallback `EN` and supported locale `en`, the fallback is a store of its own while `EN` is
registered under `en`, so `GetTranslator("EN")` and a fallback lookup reach different stores. -/
theorem fallback_not_shared_across_case :
    ∃ u, newUniversalTranslator (some { en with name := lit "EN" }) [en] = some u ∧
      RegistryReachable (some { en with name := lit "EN" }) [en] u ∧
      u.fallback = some 1 ∧ u.heap[1]?.map (·.locale.name) = some (lit "EN") ∧
      u.translators.lookup (toLower (lit "EN")) = some 0 ∧ ¬ u.FallbackShared ∧
      u.getTranslator (lit "EN") = (some 0, true) ∧ u.getTranslator (lit "fr") = (some 1, false) :=
  ⟨_, rfl, .init rfl, rfl, rfl, rfl,
    fun h => absurd (h 1 _ rfl rfl 0 rfl) (by decide), rfl, rfl⟩

end Toolbox.I18n
