import Toolbox.I18n.Frame
import Toolbox.I18n.Registry

/-
The import of package `i18n` (`ImportFromReader`): a decoded translation file maps keys to
records, and each record goes through the Add family of the store its locale resolves to.  Go
ranges over the decoded map in an unspecified order; the outcome does not depend on it.
-/

namespace Toolbox.I18n

open Strings

/-- `translation`: one record of a translation file. -/
structure Record where
  locale : Bytes := []
  overrideExisting : Bool := false
  ruleType : Bytes := []
  zero : Bytes := []
  one : Bytes := []
  two : Bytes := []
  few : Bytes := []
  many : Bytes := []
  other : Bytes := []
deriving DecidableEq, Repr

/-- The plural fields of a record with their rules, in the order the import adds them. -/
def Record.fields (r : Record) : List (PluralRule × Bytes) :=
  [(1, r.zero), (2, r.one), (3, r.two), (4, r.few), (5, r.many), (6, r.other)]

/-- The `switch` of `ImportFromReader` on the lower-cased rule type: `some none` for a plain
record, `some (some c)` for a plural record of category `c`, `none` for an unknown type. -/
def ruleCategory? (ruleType : Bytes) : Option (Option Category) :=
  if ruleType = [] ∨ ruleType = lit "plain" then some none
  else if ruleType = lit "cardinal" then some (some .cardinal)
  else if ruleType = lit "ordinal" then some (some .ordinal)
  else if ruleType = lit "range" then some (some .range)
  else none

namespace Translator

/-- The plural adds of a record: each non-empty field, `Zero` to `Other`, at its rule, up to
the first error. -/
def addFields (t : Translator) (c : Category) (key : Bytes) (override : Bool) :
    List (PluralRule × Bytes) → Option Step
  | [] => some ⟨t, none⟩
  | (rule, text) :: rest =>
    if text = [] then t.addFields c key override rest
    else (t.addPlural c (.string key) text rule override).bind fun s =>
      match s.error with
      | none => s.state.addFields c key override rest
      | some _ => some s

/-- What a record does to the store its locale resolves to. -/
def importInto (t : Translator) (key : Bytes) (r : Record) : Option Category → Option Step
  | none => some (t.add (.string key) r.other r.overrideExisting)
  | some c => t.addFields c key r.overrideExisting r.fields

end Translator

namespace UniversalTranslator

/-- One iteration of the loop of `ImportFromReader`: resolve the record's locale, dispatch on
its rule type, and apply it to the store found. -/
def importRecord (u : UniversalTranslator) (key : Bytes) (r : Record) :
    Option (UniversalTranslator × Option I18nError) :=
  match u.findTranslator [r.locale] with
  | (some p, true) =>
    match ruleCategory? (toLower r.ruleType) with
    | none => some (u, some (.invalidRuleType r.ruleType))
    | some cat =>
      match u.heap[p]? with
      | none => none
      | some t =>
        (t.importInto key r cat).map fun s => ({ u with heap := u.heap.set p s.state }, s.error)
  | _ => some (u, some (.localeNotRegistered r.locale))

/-- The loop of `ImportFromReader` over the decoded records in the order Go ranges over them;
the first error ends the import. -/
def importRecords (u : UniversalTranslator) :
    List (Σ _ : Bytes, Record) → Option (UniversalTranslator × Option I18nError)
  | [] => some (u, none)
  | ⟨key, r⟩ :: rest =>
    (u.importRecord key r).bind fun res =>
      match res.2 with
      | none => res.1.importRecords rest
      | some e => some (res.1, some e)

end UniversalTranslator

/-! ### Frame and locality of one record -/

namespace Translator

variable {key k' : Bytes} {t t₁ t₂ : Translator} {c : Category} {override : Bool}

theorem addFields_frame {fs : List (PluralRule × Bytes)} {s : Step}
    (h : t.addFields c key override fs = some s) (hne : k' ≠ key) : AgreeAt k' t s.state := by
  induction fs generalizing t with
  | nil => cases h; exact .refl k' t
  | cons f fs ih =>
    obtain ⟨rule, text⟩ := f
    unfold addFields at h
    split_ifs at h
    · exact ih h
    · obtain ⟨s₁, h₁, h₂⟩ := Option.bind_eq_some.mp h
      have hframe := addPlural_frame h₁ hne
      split at h₂
      · exact hframe.trans (ih h₂)
      · cases h₂; exact hframe

theorem AgreeAt.addFields (h : AgreeAt key t₁ t₂) (c : Category) (override : Bool)
    (fs : List (PluralRule × Bytes)) :
    Option.Rel (StepAgree key) (t₁.addFields c key override fs)
      (t₂.addFields c key override fs) := by
  induction fs generalizing t₁ t₂ with
  | nil => exact .some ⟨rfl, h⟩
  | cons f fs ih =>
    obtain ⟨rule, text⟩ := f
    unfold Translator.addFields
    split_ifs
    · exact ih h
    · refine optionRel_bind (h.addPlural c text rule override) fun s₁ s₂ hs => ?_
      obtain ⟨herr, hagree⟩ := hs
      cases h₂ : s₂.error with
      | none => simp only [herr, h₂]; exact ih hagree
      | some e => simp only [herr, h₂]; exact .some ⟨herr, hagree⟩

theorem importInto_frame {r : Record} {cat : Option Category} {s : Step}
    (h : t.importInto key r cat = some s) (hne : k' ≠ key) : AgreeAt k' t s.state := by
  cases cat with
  | none => cases h; exact add_frame hne t _ _
  | some c => exact addFields_frame h hne

theorem AgreeAt.importInto (h : AgreeAt key t₁ t₂) (r : Record) (cat : Option Category) :
    Option.Rel (StepAgree key) (t₁.importInto key r cat) (t₂.importInto key r cat) := by
  cases cat with
  | none => exact .some (h.add _ _)
  | some c => exact h.addFields c _ _

end Translator

namespace UniversalTranslator

/-- Two registries with the same layout whose stores agree at a key. -/
structure AgreeAt (key : Bytes) (u₁ u₂ : UniversalTranslator) : Prop where
  translators : u₁.translators = u₂.translators
  fallback : u₁.fallback = u₂.fallback
  length : u₁.heap.length = u₂.heap.length
  stores : ∀ (p : Nat) (t₁ t₂ : Translator), u₁.heap[p]? = some t₁ → u₂.heap[p]? = some t₂ →
    Translator.AgreeAt key t₁ t₂

/-- Registries that differ at most in the order of their maps' entries. -/
def Equiv (u₁ u₂ : UniversalTranslator) : Prop :=
  ∀ key, AgreeAt key u₁ u₂

variable {key k' : Bytes} {u u' u₁ u₂ u₃ : UniversalTranslator}

theorem getElem?_isSome_of_length_eq {α β : Type} {l₁ : List α} {l₂ : List β}
    (hlen : l₁.length = l₂.length) {p : Nat} {x : α} (h : l₁[p]? = some x) :
    ∃ y, l₂[p]? = some y := by
  cases h₂ : l₂[p]? with
  | some y => exact ⟨y, rfl⟩
  | none =>
    have := (List.getElem?_eq_some_iff.mp h).1
    have := List.getElem?_eq_none_iff.mp h₂
    omega

theorem AgreeAt.refl (key : Bytes) (u : UniversalTranslator) : AgreeAt key u u :=
  ⟨rfl, rfl, rfl, fun p t₁ t₂ h₁ h₂ => by rw [h₁] at h₂; cases h₂; exact .refl key t₁⟩

theorem AgreeAt.symm (h : AgreeAt key u₁ u₂) : AgreeAt key u₂ u₁ :=
  ⟨h.translators.symm, h.fallback.symm, h.length.symm,
    fun p t₁ t₂ h₁ h₂ => (h.stores p t₂ t₁ h₂ h₁).symm⟩

theorem AgreeAt.trans (h₁ : AgreeAt key u₁ u₂) (h₂ : AgreeAt key u₂ u₃) : AgreeAt key u₁ u₃ := by
  refine ⟨h₁.translators.trans h₂.translators, h₁.fallback.trans h₂.fallback,
    h₁.length.trans h₂.length, fun p t₁ t₃ ht₁ ht₃ => ?_⟩
  obtain ⟨t₂, ht₂⟩ := getElem?_isSome_of_length_eq h₁.length ht₁
  exact (h₁.stores p t₁ t₂ ht₁ ht₂).trans (h₂.stores p t₂ t₃ ht₂ ht₃)

theorem agreeAt_set {p : Nat} {t s : Translator} (ht : u.heap[p]? = some t)
    (hagree : Translator.AgreeAt k' t s) : AgreeAt k' u { u with heap := u.heap.set p s } := by
  refine ⟨rfl, rfl, (List.length_set ..).symm, fun q t₁ t₂ h₁ h₂ => ?_⟩
  simp only [List.getElem?_set] at h₂
  split_ifs at h₂ with hq
  · subst hq
    rw [ht] at h₁
    cases h₁; cases h₂; exact hagree
  · rw [h₁] at h₂; cases h₂; exact .refl k' t₁

theorem AgreeAt.set (h : AgreeAt key u₁ u₂) (p : Nat) {s₁ s₂ : Translator}
    (hs : Translator.AgreeAt key s₁ s₂) :
    AgreeAt key { u₁ with heap := u₁.heap.set p s₁ } { u₂ with heap := u₂.heap.set p s₂ } := by
  refine ⟨h.translators, h.fallback, by simp [h.length], fun q t₁ t₂ h₁ h₂ => ?_⟩
  simp only [List.getElem?_set, h.length] at h₁ h₂
  split_ifs at h₁ h₂
  · cases h₁; cases h₂; exact hs
  · exact h.stores q t₁ t₂ h₁ h₂

/-- What one record that returns can do to the registry: leave it as it was, or replace the
store at one address by what the record does to that store. -/
theorem importRecord_cases {r : Record} {e : Option I18nError}
    (h : u.importRecord key r = some (u', e)) :
    u' = u ∨ ∃ p t s cat, u.heap[p]? = some t ∧ t.importInto key r cat = some s ∧ s.error = e ∧
      u' = { u with heap := u.heap.set p s.state } := by
  unfold importRecord at h
  split at h
  · split at h
    · cases h; exact .inl rfl
    · split at h
      · cases h
      · obtain ⟨s, hs, heq⟩ := Option.map_eq_some'.mp h
        cases heq
        exact .inr ⟨_, _, s, _, ‹_›, hs, rfl, rfl⟩
  · cases h; exact .inl rfl

theorem importRecord_frame {r : Record} {e : Option I18nError}
    (h : u.importRecord key r = some (u', e)) (hne : k' ≠ key) : AgreeAt k' u u' := by
  rcases importRecord_cases h with rfl | ⟨p, t, s, cat, ht, hs, -, rfl⟩
  · exact .refl k' _
  · exact agreeAt_set ht (Translator.importInto_frame hs hne)

theorem AgreeAt.importRecord (h : AgreeAt key u₁ u₂) (r : Record) :
    Option.Rel (fun a b => a.2 = b.2 ∧ AgreeAt key a.1 b.1) (u₁.importRecord key r)
      (u₂.importRecord key r) := by
  have hfind : u₁.findTranslator [r.locale] = u₂.findTranslator [r.locale] := by
    simp [findTranslator, h.translators, h.fallback]
  unfold UniversalTranslator.importRecord
  rw [hfind]
  split
  · next p _ =>
    split
    · exact .some ⟨rfl, h⟩
    · next cat _ =>
      cases h₁ : u₁.heap[p]? with
      | none =>
        cases h₂ : u₂.heap[p]? with
        | none => exact .none
        | some t₂ => obtain ⟨_, h₁'⟩ := getElem?_isSome_of_length_eq h.length.symm h₂; simp_all
      | some t₁ =>
        obtain ⟨t₂, h₂⟩ := getElem?_isSome_of_length_eq h.length h₁
        simp only [h₂]
        exact optionRel_map ((h.stores p t₁ t₂ h₁ h₂).importInto r cat)
          fun s₁ s₂ hs => ⟨hs.1, h.set p hs.2⟩
  · exact .some ⟨rfl, h⟩

end UniversalTranslator

/-! ### No panics in a well-formed registry -/

namespace Translator

variable {t : Translator} {loc : Locale} {c : Category} {key : Bytes} {rule : Int}
  {override : Bool}

theorem conflicts_isSome {o : Option (List (Option TransText))}
    (h : ∀ tarr, o = some tarr → tarr.length = 7) (h0 : 0 ≤ rule) (h7 : rule < 7) :
    ∃ b, conflicts o rule override = some b := by
  cases o with
  | none => exact ⟨false, rfl⟩
  | some tarr =>
    have hlt : rule.toNat < tarr.length := by rw [h tarr rfl]; omega
    have hat : sliceAt tarr rule = some tarr[rule.toNat] := by
      simp only [sliceAt, if_pos h0, List.getElem?_eq_getElem hlt]
    simp [conflicts, hat, show 0 < tarr.length by omega]

theorem storeSlot_isSome {tarr : List (Option TransText)} {slot : Option TransText}
    (hlen : tarr.length = 7) (h0 : 0 ≤ rule) (h7 : rule < 7) :
    ∃ t', t.storeSlot c key tarr rule slot = some t' := by
  simp [storeSlot, sliceSet, hlen, h0, show rule.toNat < 7 by omega]

theorem Inv.addPlural_isSome (h : t.Inv loc) (k : Key) (text : Bytes) (h0 : 0 ≤ rule)
    (h7 : rule < 7) : ∃ s, t.addPlural c k text rule override = some s := by
  unfold Translator.addPlural
  cases k with
  | other => exact ⟨_, rfl⟩
  | string key =>
    dsimp only
    split_ifs
    · obtain ⟨b, hb⟩ : ∃ b, conflicts ((t.plurals c).lookup key) rule override = some b :=
        conflicts_isSome (fun tarr hk => (h.plural c key tarr hk).1) h0 h7
      have hlen : (t.slotsOf c key).length = 7 := (h.slotsOf c key).1
      cases b with
      | true => simp only [hb]; exact ⟨_, rfl⟩
      | false =>
        simp only [hb]
        split
        · obtain ⟨t', ht'⟩ : ∃ t', t.storeSlot c key (t.slotsOf c key) rule none = some t' :=
            storeSlot_isSome hlen h0 h7
          exact ⟨_, by rw [ht']; rfl⟩
        · obtain ⟨t', ht'⟩ : ∃ t', t.storeSlot c key (t.slotsOf c key) rule
              (some ⟨text, _⟩) = some t' := storeSlot_isSome hlen h0 h7
          exact ⟨_, by rw [ht']; rfl⟩
    · exact ⟨_, rfl⟩

theorem Inv.addFields (h : t.Inv loc) {fs : List (PluralRule × Bytes)}
    (hfs : ∀ x ∈ fs, 0 ≤ x.1 ∧ x.1 < 7) :
    ∃ s, t.addFields c key override fs = some s ∧ s.state.Inv loc := by
  induction fs generalizing t with
  | nil => exact ⟨_, rfl, h⟩
  | cons f fs ih =>
    obtain ⟨rule, text⟩ := f
    have hrest : ∀ x ∈ fs, 0 ≤ x.1 ∧ x.1 < 7 := fun x hx => hfs x (List.mem_cons_of_mem _ hx)
    obtain ⟨h0, h7⟩ := hfs (rule, text) (List.mem_cons_self _ _)
    unfold addFields
    split_ifs
    · exact ih h hrest
    · obtain ⟨s, hs⟩ : ∃ s, t.addPlural c (.string key) text rule override = some s :=
        h.addPlural_isSome _ text h0 h7
      have hinv := h.addPlural hs
      rw [hs, Option.some_bind]
      cases herr : s.error with
      | none => exact ih hinv hrest
      | some e => exact ⟨s, rfl, hinv⟩

theorem Inv.importInto (h : t.Inv loc) (key : Bytes) (r : Record) (cat : Option Category) :
    ∃ s, t.importInto key r cat = some s ∧ s.state.Inv loc := by
  cases cat with
  | none => exact ⟨_, rfl, h.add _ _ _⟩
  | some c =>
    refine h.addFields fun x hx => ?_
    simp only [Record.fields, List.mem_cons, List.mem_singleton, List.not_mem_nil, or_false] at hx
    rcases hx with rfl | rfl | rfl | rfl | rfl | rfl <;> simp

end Translator

namespace UniversalTranslator

/-- A registry whose addresses point into its heap and whose stores keep the store
invariant, as every registry built by the package's functions does. -/
structure WellFormed (u : UniversalTranslator) : Prop where
  translators : ∀ name p, u.translators.lookup name = some p → p < u.heap.length
  fallback : ∀ p, u.fallback = some p → p < u.heap.length
  stores : ∀ t ∈ u.heap, t.Inv t.locale

variable {u : UniversalTranslator} {key : Bytes}

theorem WellFormed.set (hu : u.WellFormed) {p : Nat} {t s : Translator}
    (ht : u.heap[p]? = some t) (hs : s.Inv t.locale) :
    ({ u with heap := u.heap.set p s } : UniversalTranslator).WellFormed := by
  refine ⟨fun name q hq => by simpa using hu.translators name q hq,
    fun q hq => by simpa using hu.fallback q hq, fun s' hs' => ?_⟩
  rcases List.mem_or_eq_of_mem_set hs' with hmem | rfl
  · exact hu.stores s' hmem
  · rw [hs.locale]; exact (hu.stores t (List.getElem?_mem ht)).locale ▸ hs

theorem findTranslator_found {locales : List Bytes} {p : Nat}
    (h : u.findTranslator locales = (some p, true)) : ∃ name, u.translators.lookup name = some p := by
  induction locales with
  | nil => simp [findTranslator] at h
  | cons locale locales ih =>
    unfold findTranslator at h
    split at h
    · cases h; exact ⟨_, ‹_›⟩
    · exact ih h

/-- In a well-formed registry a record never panics, and the registry stays well-formed. -/
theorem WellFormed.importRecord (hu : u.WellFormed) (key : Bytes) (r : Record) :
    ∃ u' e, u.importRecord key r = some (u', e) ∧ u'.WellFormed := by
  unfold UniversalTranslator.importRecord
  split
  · next p hfind =>
    split
    · exact ⟨_, _, rfl, hu⟩
    · next cat _ =>
      have hp : p < u.heap.length :=
        let ⟨name, hname⟩ := findTranslator_found hfind
        hu.translators name p hname
      obtain ⟨t, ht⟩ : ∃ t, u.heap[p]? = some t := ⟨_, List.getElem?_eq_getElem hp⟩
      obtain ⟨s, hs, hinv⟩ := (hu.stores t (List.getElem?_mem ht)).importInto key r cat
      simp only [ht, hs, Option.map_some']
      exact ⟨_, _, rfl, hu.set ht hinv⟩
  · exact ⟨_, _, rfl, hu⟩

end UniversalTranslator

/-! ### Registries built by the package are well-formed -/

namespace UniversalTranslator

variable {u u' : UniversalTranslator}

theorem lookup_insert_le {m : GoMap Nat} {k name : Bytes} {n p : Nat} {bound : Nat}
    (hm : ∀ name p, m.lookup name = some p → p < bound) (h : (m.insert k n).lookup name = some p) :
    p ≤ max n bound := by
  by_cases hk : name = k
  · subst hk; rw [AList.lookup_insert, Option.some.injEq] at h; omega
  · rw [AList.lookup_insert_ne hk] at h; have := hm name p h; omega

/-- Appending a fresh store keeps a registry well-formed when the new addresses stay within the
grown heap. -/
theorem WellFormed.append (hu : u.WellFormed) (v : Locale) {translators : GoMap Nat}
    {fallback : Option Nat}
    (ht : ∀ name p, translators.lookup name = some p → p ≤ u.heap.length)
    (hf : ∀ p, fallback = some p → p ≤ u.heap.length) :
    WellFormed ⟨u.heap ++ [newTranslator v], translators, fallback⟩ := by
  refine ⟨fun name p hp => ?_, fun p hp => ?_, fun t ht' => ?_⟩
  · have := ht name p hp; simp only [List.length_append, List.length_singleton]; omega
  · have := hf p hp; simp only [List.length_append, List.length_singleton]; omega
  · rcases List.mem_append.mp ht' with h | h
    · exact hu.stores t h
    · rw [List.mem_singleton.mp h]; exact Reachable.init.inv

theorem WellFormed.registerSupported (hu : u.WellFormed) {fb : Option Locale} {vs : List Locale}
    (h : registerSupported fb u vs = some u') : u'.WellFormed := by
  induction vs generalizing u with
  | nil => cases h; exact hu
  | cons v vs ih =>
    unfold registerSupported at h
    split at h
    · cases h
    · refine ih (hu.append v (fun name p hp => ?_) (fun p hp => ?_)) h
      · have := lookup_insert_le hu.translators hp; omega
      · split_ifs at hp
        · cases hp; exact le_rfl
        · exact (hu.fallback p hp).le

theorem wellFormed_empty : WellFormed ⟨[], ∅, none⟩ :=
  ⟨fun _ _ hp => (by cases hp), fun _ hp => (by cases hp), fun _ ht => (by cases ht)⟩

theorem newUniversalTranslator_wellFormed {fallback : Option Locale} {vs : List Locale}
    (h : newUniversalTranslator fallback vs = some u) : u.WellFormed := by
  obtain ⟨u₀, h₀, rfl⟩ := Option.map_eq_some'.mp h
  have hwf := wellFormed_empty.registerSupported h₀
  split
  · next hnone =>
    exact hwf.append _ (fun name p hp => (hwf.translators name p hp).le)
      fun p hp => by cases hp; exact le_rfl
  · exact hwf

theorem WellFormed.addTranslator (hu : u.WellFormed) {translator : Locale} {override : Bool}
    {e : Option I18nError} (h : u.addTranslator translator override = some (u', e)) :
    u'.WellFormed := by
  rcases addTranslator_cases h with ⟨rfl, -⟩ | ⟨-, -, p, fb, -, -, -, rfl⟩
  · exact hu
  · refine hu.append translator (fun name q hq => ?_) (fun q hq => ?_)
    · have := lookup_insert_le hu.translators hq; omega
    · split_ifs at hq
      · cases hq; exact le_rfl
      · exact (hu.fallback q hq).le

theorem RegistryReachable.wellFormed {fallback : Option Locale} {supported : List Locale}
    (h : RegistryReachable fallback supported u) : u.WellFormed := by
  induction h with
  | init h => exact newUniversalTranslator_wellFormed h
  | add _ _ _ hadd ih => exact ih.addTranslator hadd

/-! ### The whole loop -/

variable {key : Bytes} {u₁ u₂ : UniversalTranslator} {l : List (Σ _ : Bytes, Record)}

theorem AgreeAt.importRecord_some (h : AgreeAt key u₁ u₂) {r : Record} {v₁ : UniversalTranslator}
    {e : Option I18nError} (h₁ : u₁.importRecord key r = some (v₁, e)) :
    ∃ v₂, u₂.importRecord key r = some (v₂, e) ∧ AgreeAt key v₁ v₂ := by
  have hrel := h.importRecord r
  rw [h₁] at hrel
  obtain ⟨⟨v₂, e₂⟩, h₂, he, hv⟩ := optionRel_some_left hrel
  cases he
  exact ⟨v₂, h₂, hv⟩

/-- When every record of a document imports without error on its own, the loop imports them all;
each key with a record ends as that record alone leaves it, and every other key keeps its
entries. -/
theorem importRecords_of_ok (hl : l.NodupKeys)
    (hok : ∀ x ∈ l, ∃ v, u.importRecord x.1 x.2 = some (v, none)) :
    ∃ u', u.importRecords l = some (u', none) ∧ (∀ k, k ∉ l.keys → AgreeAt k u u') ∧
      ∀ x ∈ l, ∀ v, u.importRecord x.1 x.2 = some (v, none) → AgreeAt x.1 v u' := by
  induction l generalizing u with
  | nil => exact ⟨u, rfl, fun k _ => .refl k u, fun x hx => absurd hx (List.not_mem_nil x)⟩
  | cons x rest ih =>
    obtain ⟨key, r⟩ := x
    obtain ⟨hnew, hrest⟩ := List.nodupKeys_cons.mp hl
    obtain ⟨u₁, h₁⟩ := hok _ (List.mem_cons_self _ _)
    have hframe : ∀ y ∈ rest, AgreeAt y.1 u u₁ := fun y hy =>
      importRecord_frame h₁ fun he => hnew (by rw [← he]; exact List.mem_keys_of_mem hy)
    have hok₁ : ∀ y ∈ rest, ∃ v, u₁.importRecord y.1 y.2 = some (v, none) := fun y hy =>
      let ⟨_, hv⟩ := hok y (List.mem_cons_of_mem _ hy)
      let ⟨v₁, hv₁, _⟩ := (hframe y hy).importRecord_some hv
      ⟨v₁, hv₁⟩
    obtain ⟨u', hrun, hout, hin⟩ := ih hrest hok₁
    refine ⟨u', by simp [importRecords, h₁, hrun], fun k hk => ?_, fun y hy v hv => ?_⟩
    · simp only [List.keys_cons, List.mem_cons, not_or] at hk
      exact (importRecord_frame h₁ hk.1).trans (hout k hk.2)
    · rcases List.mem_cons.mp hy with rfl | hy
      · rw [h₁, Option.some.injEq, Prod.mk.injEq] at hv
        rw [← hv.1]
        exact hout key hnew
      · obtain ⟨v₁, hv₁, hvv⟩ := (hframe y hy).importRecord_some hv
        exact hvv.trans (hin y hy v₁ hv₁)

/-- On a well-formed registry, a record that fails on its own makes the loop fail. -/
theorem importRecords_of_error (hu : u.WellFormed) (hl : l.NodupKeys) {x : Σ _ : Bytes, Record}
    (hx : x ∈ l) {v : UniversalTranslator} {e : I18nError}
    (herr : u.importRecord x.1 x.2 = some (v, some e)) :
    ∃ u' e', u.importRecords l = some (u', some e') := by
  induction l generalizing u v with
  | nil => cases hx
  | cons y rest ih =>
    obtain ⟨key, r⟩ := y
    obtain ⟨hnew, hrest⟩ := List.nodupKeys_cons.mp hl
    obtain ⟨u₁, e₁, h₁, hwf⟩ := hu.importRecord key r
    cases e₁ with
    | some e₁ => exact ⟨u₁, e₁, by simp [importRecords, h₁]⟩
    | none =>
      rcases List.mem_cons.mp hx with rfl | hx
      · rw [h₁] at herr; cases herr
      · have hne : x.1 ≠ key := fun he =>
          hnew (he ▸ (List.mem_keys_of_mem hx : x.1 ∈ rest.keys))
        obtain ⟨v₁, herr₁, -⟩ := (importRecord_frame h₁ hne).importRecord_some herr
        obtain ⟨u', e', hrun⟩ := ih hwf hrest hx herr₁
        exact ⟨u', e', by simp [importRecords, h₁, hrun]⟩

/-- `ImportFromReader` does not depend on the order in which Go ranges over the decoded
document: on a well-formed registry, any two orders of its records both import every record and
leave registries with the same entries, or both stop with an error. -/
theorem importRecords_order_independent (hu : u.WellFormed) (doc : GoMap Record)
    {l₁ l₂ : List (Σ _ : Bytes, Record)} (h₁ : l₁.Perm doc.entries) (h₂ : l₂.Perm doc.entries) :
    ∃ r₁ r₂, u.importRecords l₁ = some r₁ ∧ u.importRecords l₂ = some r₂ ∧
      ((r₁.2 = none ∧ r₂.2 = none ∧ Equiv r₁.1 r₂.1) ∨ (r₁.2.isSome ∧ r₂.2.isSome)) := by
  have hn₁ : l₁.NodupKeys := (List.perm_nodupKeys h₁).mpr doc.nodupKeys
  have hn₂ : l₂.NodupKeys := (List.perm_nodupKeys h₂).mpr doc.nodupKeys
  by_cases herr : ∃ x ∈ doc.entries, ∃ v e, u.importRecord x.1 x.2 = some (v, some e)
  · obtain ⟨x, hx, v, e, hv⟩ := herr
    obtain ⟨u₁, e₁, hrun₁⟩ := importRecords_of_error hu hn₁ (h₁.mem_iff.mpr hx) hv
    obtain ⟨u₂, e₂, hrun₂⟩ := importRecords_of_error hu hn₂ (h₂.mem_iff.mpr hx) hv
    exact ⟨_, _, hrun₁, hrun₂, .inr ⟨rfl, rfl⟩⟩
  · have hok : ∀ x ∈ doc.entries, ∃ v, u.importRecord x.1 x.2 = some (v, none) := fun x hx => by
      obtain ⟨v, e, hv, -⟩ := hu.importRecord x.1 x.2
      cases e with
      | none => exact ⟨v, hv⟩
      | some e => exact absurd ⟨x, hx, v, e, hv⟩ herr
    obtain ⟨u₁, hrun₁, hout₁, hin₁⟩ := importRecords_of_ok hn₁ fun x hx => hok x (h₁.subset hx)
    obtain ⟨u₂, hrun₂, hout₂, hin₂⟩ := importRecords_of_ok hn₂ fun x hx => hok x (h₂.subset hx)
    refine ⟨_, _, hrun₁, hrun₂, .inl ⟨rfl, rfl, fun k => ?_⟩⟩
    by_cases hk : ∃ x ∈ doc.entries, x.1 = k
    · obtain ⟨x, hx, rfl⟩ := hk
      obtain ⟨v, hv⟩ := hok x hx
      exact (hin₁ x (h₁.mem_iff.mpr hx) v hv).symm.trans (hin₂ x (h₂.mem_iff.mpr hx) v hv)
    · have hnot : ∀ {l : List (Σ _ : Bytes, Record)}, l.Perm doc.entries → k ∉ l.keys :=
        fun hp hkl => let ⟨_, hb⟩ := List.mem_keys.mp hkl; hk ⟨_, hp.subset hb, rfl⟩
      exact (hout₁ k (hnot h₁)).symm.trans (hout₂ k (hnot h₂))

theorem importRecords_order_independent_en :
    ∃ u, newUniversalTranslator (some en) [en] = some u ∧ u.WellFormed ∧
      ∃ r₁ r₂, u.importRecords (((∅ : GoMap Record).insert (lit "a")
          { locale := lit "en", ruleType := lit "plain", other := lit "x" }).insert (lit "b")
          { locale := lit "en", ruleType := lit "cardinal", one := lit "\x7b0\x7d day",
            other := lit "\x7b0\x7d days" }).entries = some r₁ ∧
        u.importRecords (((∅ : GoMap Record).insert (lit "a")
          { locale := lit "en", ruleType := lit "plain", other := lit "x" }).insert (lit "b")
          { locale := lit "en", ruleType := lit "cardinal", one := lit "\x7b0\x7d day",
            other := lit "\x7b0\x7d days" }).entries.reverse = some r₂ ∧
        ((r₁.2 = none ∧ r₂.2 = none ∧ Equiv r₁.1 r₂.1) ∨ (r₁.2.isSome ∧ r₂.2.isSome)) :=
  by
  obtain ⟨u, hu⟩ : ∃ u, newUniversalTranslator (some en) [en] = some u := ⟨_, rfl⟩
  exact ⟨u, hu, newUniversalTranslator_wellFormed hu, importRecords_order_independent
    (newUniversalTranslator_wellFormed hu) _ (List.Perm.refl _) (List.reverse_perm _)⟩

end UniversalTranslator

end Toolbox.I18n
