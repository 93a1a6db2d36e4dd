import Toolbox.I18n.Fallback
import Toolbox.I18n.Render

/-
The package as one system.  A program builds a registry with `NewUniversalTranslator`, then
calls, in any order, `AddTranslator`, `ImportFromReader`, and the Add family on the stores the
registry hands out.  Stores are shared objects, so an add through a handle changes the
registry's heap.  Each store of every registry such a program reaches got there by a run of the
Add family from an empty store of its locale, so what is proved of one store holds of each; and
after the registry's `VerifyTranslations` returns nil, `C` and `O` on any store found under a
name render without panicking.
-/

namespace Toolbox.I18n

open Strings

/-- The registries a program reaches from `NewUniversalTranslator(fallback, supported...)` by
calls that return, with or without an error: `AddTranslator`, the loop of `ImportFromReader`
over a decoded document in the order Go ranges over it, and a call of the Add family on the
store at an address of the heap, which a handle from an earlier registry may still reach. -/
inductive PackageReachable (fallback : Option Locale) (supported : List Locale) :
    UniversalTranslator → Prop
  | init {u : UniversalTranslator} :
      newUniversalTranslator fallback supported = some u → PackageReachable fallback supported u
  | addTranslator {u u' : UniversalTranslator} {e : Option I18nError} (translator : Locale)
      (override : Bool) : PackageReachable fallback supported u →
      u.addTranslator translator override = some (u', e) → PackageReachable fallback supported u'
  | importRecords {u u' : UniversalTranslator} {e : Option I18nError}
      (records : List (Σ _ : Bytes, Record)) : PackageReachable fallback supported u →
      u.importRecords records = some (u', e) → PackageReachable fallback supported u'
  | call {u : UniversalTranslator} {t : Translator} {s : Step} (p : Nat) (call : Call) :
      PackageReachable fallback supported u → u.heap[p]? = some t → t.call call = some s →
      PackageReachable fallback supported { u with heap := u.heap.set p s.state }

/-! ### What a record does to one store is a run of the Add family -/

namespace Reachable

variable {loc : Locale} {t : Translator} {c : Category} {key : Bytes} {override : Bool}
  {s : Step}

theorem addPlural {k : Key} {text : Bytes} {rule : PluralRule} (h : Reachable loc t)
    (hadd : t.addPlural c k text rule override = some s) : Reachable loc s.state := by
  cases c with
  | cardinal => exact .step (.addCardinal k text rule override) h hadd
  | ordinal => exact .step (.addOrdinal k text rule override) h hadd
  | range => exact .step (.addRange k text rule override) h hadd

theorem addFields {fs : List (PluralRule × Bytes)} (h : Reachable loc t)
    (hadd : t.addFields c key override fs = some s) : Reachable loc s.state := by
  induction fs generalizing t with
  | nil => cases hadd; exact h
  | cons f fs ih =>
    obtain ⟨rule, text⟩ := f
    unfold Translator.addFields at hadd
    split_ifs at hadd
    · exact ih h hadd
    · obtain ⟨s₁, h₁, h₂⟩ := Option.bind_eq_some.mp hadd
      have hreach := h.addPlural h₁
      split at h₂
      · exact ih hreach h₂
      · cases h₂; exact hreach

theorem importInto {r : Record} {cat : Option Category} (h : Reachable loc t)
    (himport : t.importInto key r cat = some s) : Reachable loc s.state := by
  cases cat with
  | none => cases himport; exact .step (.add (.string key) r.other r.overrideExisting) h rfl
  | some c => exact h.addFields himport

end Reachable

/-! ### Every store of a reachable registry -/

namespace UniversalTranslator

/-- Every store of the heap is reachable by the Add family from an empty store of its locale. -/
def StoresReachable (u : UniversalTranslator) : Prop :=
  ∀ t ∈ u.heap, Reachable t.locale t

variable {u u' : UniversalTranslator}

theorem StoresReachable.set (hu : u.StoresReachable) {p : Nat} {loc : Locale} {s : Translator}
    (hs : Reachable loc s) :
    StoresReachable { u with heap := u.heap.set p s } := fun t' ht' => by
  rcases List.mem_or_eq_of_mem_set ht' with hmem | rfl
  · exact hu t' hmem
  · rw [hs.inv.locale]; exact hs

theorem StoresReachable.append (hu : u.StoresReachable) (v : Locale) (translators : GoMap Nat)
    (fallback : Option Nat) :
    StoresReachable ⟨u.heap ++ [newTranslator v], translators, fallback⟩ := fun t ht => by
  rcases List.mem_append.mp ht with h | h
  · exact hu t h
  · rw [List.mem_singleton.mp h]; exact .init

theorem newUniversalTranslator_storesReachable {fallback : Option Locale}
    {supported : List Locale} (h : newUniversalTranslator fallback supported = some u) :
    u.StoresReachable := by
  obtain ⟨u₀, h₀, rfl⟩ := Option.map_eq_some'.mp h
  have hu₀ : u₀.StoresReachable := fun t ht => by
    rw [registerSupported_heap h₀, List.nil_append] at ht
    obtain ⟨v, -, rfl⟩ := List.mem_map.mp ht
    exact .init
  split
  · exact hu₀.append _ _ _
  · exact hu₀

theorem StoresReachable.addTranslator (hu : u.StoresReachable) {translator : Locale}
    {override : Bool} {e : Option I18nError}
    (h : u.addTranslator translator override = some (u', e)) : u'.StoresReachable := by
  rcases addTranslator_cases h with ⟨rfl, -⟩ | ⟨-, -, p, fb, -, -, -, rfl⟩
  · exact hu
  · exact hu.append _ _ _

theorem StoresReachable.importRecord (hu : u.StoresReachable) {key : Bytes} {r : Record}
    {e : Option I18nError} (h : u.importRecord key r = some (u', e)) : u'.StoresReachable := by
  rcases importRecord_cases h with rfl | ⟨p, t, s, cat, ht, hs, -, rfl⟩
  · exact hu
  · exact hu.set ((hu t (List.getElem?_mem ht)).importInto hs)

theorem StoresReachable.importRecords (hu : u.StoresReachable) {l : List (Σ _ : Bytes, Record)}
    {e : Option I18nError} (h : u.importRecords l = some (u', e)) : u'.StoresReachable := by
  induction l generalizing u with
  | nil => cases h; exact hu
  | cons x rest ih =>
    obtain ⟨res, hres, h'⟩ := Option.bind_eq_some.mp h
    have hu₁ := hu.importRecord hres
    split at h'
    · exact ih hu₁ h'
    · cases h'; exact hu₁

theorem WellFormed.importRecords (hu : u.WellFormed) {l : List (Σ _ : Bytes, Record)}
    {e : Option I18nError} (h : u.importRecords l = some (u', e)) : u'.WellFormed := by
  induction l generalizing u with
  | nil => cases h; exact hu
  | cons x rest ih =>
    obtain ⟨res, hres, h'⟩ := Option.bind_eq_some.mp h
    obtain ⟨u₁, e₁, h₁, hu₁⟩ := hu.importRecord x.1 x.2
    rw [h₁, Option.some.injEq] at hres
    subst hres
    split at h'
    · exact ih hu₁ h'
    · cases h'; exact hu₁

end UniversalTranslator

namespace PackageReachable

variable {fallback : Option Locale} {supported : List Locale} {u : UniversalTranslator}

theorem storesReachable (h : PackageReachable fallback supported u) : u.StoresReachable := by
  induction h with
  | init h => exact UniversalTranslator.newUniversalTranslator_storesReachable h
  | addTranslator _ _ _ hadd ih => exact ih.addTranslator hadd
  | importRecords _ _ himport ih => exact ih.importRecords himport
  | call p call _ ht hcall ih => exact ih.set ((ih _ (List.getElem?_mem ht)).step call hcall)

theorem wellFormed (h : PackageReachable fallback supported u) : u.WellFormed := by
  induction h with
  | init h => exact UniversalTranslator.newUniversalTranslator_wellFormed h
  | addTranslator _ _ _ hadd ih => exact ih.addTranslator hadd
  | importRecords _ _ himport ih => exact ih.importRecords himport
  | call p call _ ht hcall ih =>
    exact ih.set ht ((ih.stores _ (List.getElem?_mem ht)).call hcall)

/-- Every registry a program reaches hands out only addresses of stores, and each of its stores
is one that the Add family reaches from an empty store of its locale: whatever holds of every
such store holds of every store of the package. -/
theorem wellFormed_and_stores_reachable (h : PackageReachable fallback supported u) :
    u.WellFormed ∧ ∀ t ∈ u.heap, Reachable t.locale t :=
  ⟨h.wellFormed, h.storesReachable⟩

/-- A run that replaces the fallback `en` by a fresh store, imports a plain record into it, and
adds through a handle to the store it replaced. -/
theorem wellFormed_and_stores_reachable_en :
    ∃ u, PackageReachable (some en) [en] u ∧ u.WellFormed ∧ ∀ t ∈ u.heap, Reachable t.locale t :=
  have h₁ : PackageReachable (some en) [en] _ := .addTranslator en true (.init rfl) rfl
  have h₂ : PackageReachable (some en) [en] _ :=
    .importRecords [⟨lit "k", { locale := lit "en", other := lit "hi \x7b0\x7d" }⟩] h₁ rfl
  have h₃ : PackageReachable (some en) [en] _ :=
    .call 0 (.addCardinal (.string (lit "n")) (lit "\x7b0\x7d item") 2 false) h₂ rfl rfl
  ⟨_, h₃, wellFormed_and_stores_reachable h₃⟩

/-- After the registry's `VerifyTranslations` returns nil, in whatever order Go ranges over its
translators, `C` and `O` on a store that `FindTranslator` finds under a name, on a key of their
map at arguments whose rule the locale lists, return without panicking the selected slot's text
with its first `{0}` replaced by the parameter.  The fallback, returned when no name is found,
is left out: it is not verified when it is registered under no name. -/
theorem verified_find_C_O (h : PackageReachable fallback supported u)
    {l : List (Σ _ : Bytes, Nat)} (hl : l.Perm u.translators.entries)
    (hverify : u.verifyTranslations l = some none) {locales : List Bytes} {p : Nat}
    (hfound : u.findTranslator locales = (some p, true)) :
    ∃ t, u.heap[p]? = some t ∧
      (∀ key tarr num digits param, t.cardinalTanslations.lookup key = some tarr →
        t.locale.cardinalPluralRule num digits ∈ t.locale.pluralsCardinal →
        ∃ e, sliceAt tarr (t.locale.cardinalPluralRule num digits) = some (some e) ∧
          t.C (.string key) num digits param = some (.ok (replaceFirst paramZero param e.text))) ∧
      (∀ key tarr num digits param, t.ordinalTanslations.lookup key = some tarr →
        t.locale.ordinalPluralRule num digits ∈ t.locale.pluralsOrdinal →
        ∃ e, sliceAt tarr (t.locale.ordinalPluralRule num digits) = some (some e) ∧
          t.O (.string key) num digits param = some (.ok (replaceFirst paramZero param e.text))) := by
  obtain ⟨name, hname⟩ := UniversalTranslator.findTranslator_found hfound
  have hmem : (⟨name, p⟩ : Σ _ : Bytes, Nat) ∈ l := hl.mem_iff.mpr (AList.mem_lookup_iff.mp hname)
  obtain ⟨t, ht, hv⟩ :=
    Option.bind_eq_some.mp (UniversalTranslator.verifyTranslations_eq_nil_iff_mem.mp hverify _ hmem)
  have hreach := h.storesReachable t (List.getElem?_mem ht)
  exact ⟨t, ht, fun key tarr num digits param hk hrule =>
      verified_renderOne hreach hv (c := .cardinal) (by decide) hk hrule param,
    fun key tarr num digits param hk hrule =>
      verified_renderOne hreach hv (c := .ordinal) (by decide) hk hrule param⟩

theorem verified_find_C_O_en :
    ∃ u, PackageReachable (some en) [en] u ∧
      u.verifyTranslations u.translators.entries = some none ∧
      u.findTranslator [lit "en"] = (some 0, true) ∧
      ∃ t, u.heap[0]? = some t ∧
        (∀ key tarr num digits param, t.cardinalTanslations.lookup key = some tarr →
          t.locale.cardinalPluralRule num digits ∈ t.locale.pluralsCardinal →
          ∃ e, sliceAt tarr (t.locale.cardinalPluralRule num digits) = some (some e) ∧
            t.C (.string key) num digits param =
              some (.ok (replaceFirst paramZero param e.text))) ∧
        (∀ key tarr num digits param, t.ordinalTanslations.lookup key = some tarr →
          t.locale.ordinalPluralRule num digits ∈ t.locale.pluralsOrdinal →
          ∃ e, sliceAt tarr (t.locale.ordinalPluralRule num digits) = some (some e) ∧
            t.O (.string key) num digits param =
              some (.ok (replaceFirst paramZero param e.text))) :=
  have h₁ : PackageReachable (some en) [en] _ :=
    .call 0 (.addCardinal (.string (lit "n")) (lit "\x7b0\x7d item") 2 false) (.init rfl) rfl rfl
  have h₂ : PackageReachable (some en) [en] _ :=
    .call 0 (.addCardinal (.string (lit "n")) (lit "\x7b0\x7d items") 6 false) h₁ rfl rfl
  ⟨_, h₂, rfl, rfl,
    @verified_find_C_O _ _ _ h₂ _ (List.Perm.refl _) rfl [lit "en"] 0 rfl⟩

end PackageReachable

/-! ### The fallback escapes verification -/

namespace UniversalTranslator

/-- `VerifyTranslations` reads only the stores at the addresses of its entries. -/
theorem verifyTranslations_congr {u₁ u₂ : UniversalTranslator} {l : List (Σ _ : Bytes, Nat)}
    (h : ∀ x ∈ l, u₁.heap[x.2]? = u₂.heap[x.2]?) :
    u₁.verifyTranslations l = u₂.verifyTranslations l := by
  induction l with
  | nil => rfl
  | cons x l ih =>
    obtain ⟨name, p⟩ := x
    simp only [verifyTranslations, h _ (List.mem_cons_self _ _),
      ih fun y hy => h y (List.mem_cons_of_mem _ hy)]

/-- When no supported locale has the fallback's name, `NewUniversalTranslator` gives the fallback
a store of its own that no name is registered under, so `VerifyTranslations` does not look at it:
its result is the same whatever the program adds to the fallback's store, and `C` on that store
may then panic after a nil verification. -/
theorem newUniversalTranslator_fallback_unverified {fb : Locale} {supported : List Locale}
    {u : UniversalTranslator} (h : newUniversalTranslator (some fb) supported = some u)
    (hname : ∀ v ∈ supported, v.name ≠ fb.name) :
    ∃ p, u.fallback = some p ∧ ∀ l : List (Σ _ : Bytes, Nat), l.Perm u.translators.entries →
      ∀ s : Translator,
        ({ u with heap := u.heap.set p s } : UniversalTranslator).verifyTranslations l =
          u.verifyTranslations l := by
  obtain ⟨u₀, h₀, rfl⟩ := Option.map_eq_some'.mp h
  have hf : u₀.fallback = none :=
    (registerSupported_fallback h₀).resolve_right fun ⟨v, hv, hvn⟩ => hname v hv hvn
  have hwf := wellFormed_empty.registerSupported h₀
  simp only [hf]
  refine ⟨u₀.heap.length, rfl, fun l hl s => verifyTranslations_congr fun x hx => ?_⟩
  have hlt : x.2 < u₀.heap.length :=
    hwf.translators x.1 x.2 (AList.mem_lookup_iff.mpr (hl.mem_iff.mp hx))
  exact List.getElem?_set_ne (Nat.ne_of_gt hlt)

theorem newUniversalTranslator_fallback_unverified_fr :
    (∀ v ∈ [en], v.name ≠ ({ en with name := lit "fr" } : Locale).name) ∧
      ∃ u, newUniversalTranslator (some { en with name := lit "fr" }) [en] = some u ∧
        ∃ p, u.fallback = some p ∧ ∀ l : List (Σ _ : Bytes, Nat), l.Perm u.translators.entries →
          ∀ s : Translator,
            ({ u with heap := u.heap.set p s } : UniversalTranslator).verifyTranslations l =
              u.verifyTranslations l :=
  ⟨by decide, _, rfl,
    @newUniversalTranslator_fallback_unverified { en with name := lit "fr" } [en] _ rfl (by decide)⟩

end UniversalTranslator

end Toolbox.I18n
