import Toolbox.I18n.Import

/-
When the registry's fallback is the store registered under its name.  `NewUniversalTranslator`
and `AddTranslator` register a store under its locale's lower-cased name but compare the
fallback's locale name exactly, so the two part when locale names differ only in letter case.
When no two stores of a registry have such names, the fallback is the registered store in every
registry a run reaches.  Each call only appends to the heap of stores, so that condition on the
last registry of a run holds of every registry before it.
-/

namespace Toolbox.I18n

open Strings

namespace UniversalTranslator

variable {u u' : UniversalTranslator}

/-- No two stores of the registry have locale names that differ only in letter case. -/
def CaseConsistent (u : UniversalTranslator) : Prop :=
  ∀ t₁ ∈ u.heap, ∀ t₂ ∈ u.heap, toLower t₁.locale.name = toLower t₂.locale.name →
    t₁.locale.name = t₂.locale.name

instance decidableCaseConsistent (u : UniversalTranslator) : Decidable u.CaseConsistent :=
  inferInstanceAs (Decidable (∀ t₁ ∈ u.heap, ∀ t₂ ∈ u.heap,
    toLower t₁.locale.name = toLower t₂.locale.name → t₁.locale.name = t₂.locale.name))

theorem CaseConsistent.of_extends (h : u'.CaseConsistent) (hp : u.heap <+: u'.heap) :
    u.CaseConsistent :=
  fun t₁ h₁ t₂ h₂ => h t₁ (hp.subset h₁) t₂ (hp.subset h₂)

theorem getElem?_append_of_getElem? {l : List Translator} {x t : Translator} {p : Nat}
    (h : l[p]? = some t) : (l ++ [x])[p]? = some t := by
  rw [List.getElem?_append_left (List.getElem?_eq_some_iff.mp h).1, h]

theorem addTranslator_extends_heap {translator : Locale} {override : Bool} {e : Option I18nError}
    (h : u.addTranslator translator override = some (u', e)) : u.heap <+: u'.heap := by
  rcases addTranslator_cases h with ⟨rfl, -⟩ | ⟨-, -, p, fb, -, -, -, rfl⟩
  · exact List.prefix_refl _
  · exact List.prefix_append _ _

/-! ### The loop of `NewUniversalTranslator` -/

section RegisterSupported

variable {fb : Locale} {vs : List Locale}

theorem registerSupported_heap {fallback : Option Locale}
    (h : registerSupported fallback u vs = some u') : u'.heap = u.heap ++ vs.map newTranslator := by
  induction vs generalizing u with
  | nil => cases h; simp
  | cons v vs ih =>
    unfold registerSupported at h
    split at h
    · cases h
    · rw [ih h]; simp

/-- The loop changes the fallback only on a supported locale of the fallback's name. -/
theorem registerSupported_fallback (h : registerSupported (some fb) u vs = some u') :
    u'.fallback = u.fallback ∨ ∃ v ∈ vs, v.name = fb.name := by
  induction vs generalizing u with
  | nil => cases h; exact .inl rfl
  | cons v vs ih =>
    rcases ih h with hf | ⟨w, hw, hname⟩
    · by_cases hv : fb.name = v.name
      · exact .inr ⟨v, List.mem_cons_self _ _, hv.symm⟩
      · exact .inl (by rw [hf, if_neg hv])
    · exact .inr ⟨w, List.mem_cons_of_mem _ hw, hname⟩

/-- Where the fallback stands during the loop: not set yet, with no store registered under the
fallback's lower-cased name; or set to a store of the fallback's name, registered under it. -/
def FallbackLoopInv (fb : Locale) (u : UniversalTranslator) : Prop :=
  (u.fallback = none ∧ u.translators.lookup (toLower fb.name) = none) ∨
    ∃ p t, u.fallback = some p ∧ u.heap[p]? = some t ∧ t.locale.name = fb.name ∧
      u.translators.lookup (toLower fb.name) = some p

theorem FallbackLoopInv.registerSupported
    (hv : ∀ v ∈ vs, toLower v.name = toLower fb.name → v.name = fb.name)
    (hinv : FallbackLoopInv fb u) (h : registerSupported (some fb) u vs = some u') :
    FallbackLoopInv fb u' := by
  induction vs generalizing u with
  | nil => cases h; exact hinv
  | cons v vs ih =>
    refine ih (fun w hw => hv w (List.mem_cons_of_mem _ hw)) ?_ h
    by_cases hname : fb.name = v.name
    · -- the supported store becomes the fallback
      refine .inr ⟨u.heap.length, newTranslator v, if_pos hname, by simp, hname.symm, ?_⟩
      rw [hname, AList.lookup_insert]
    · have hlower : toLower fb.name ≠ toLower v.name := fun hl =>
        hname (hv v (List.mem_cons_self _ _) hl.symm).symm
      rcases hinv with ⟨hf, hl⟩ | ⟨p, t, hf, ht, htn, hl⟩
      · exact .inl ⟨by rw [if_neg hname, hf], by rw [AList.lookup_insert_ne hlower, hl]⟩
      · exact .inr ⟨p, t, by rw [if_neg hname, hf], getElem?_append_of_getElem? ht, htn,
          by rw [AList.lookup_insert_ne hlower, hl]⟩

end RegisterSupported

/-- A registry built by `NewUniversalTranslator` shares its fallback when no two of its stores'
names differ only in letter case. -/
theorem newUniversalTranslator_fallbackShared {fallback : Option Locale} {supported : List Locale}
    (h : newUniversalTranslator fallback supported = some u) (hcase : u.CaseConsistent) :
    u.FallbackShared := by
  obtain ⟨u₀, h₀, rfl⟩ := Option.map_eq_some'.mp h
  cases fallback with
  | none =>
    -- without a fallback the loop panics on the first supported locale
    cases supported with
    | nil => cases h₀; intro p _ hp; cases hp
    | cons v vs => cases h₀
  | some fb =>
    have hheap := registerSupported_heap h₀
    have hstart : FallbackLoopInv fb ⟨[], ∅, none⟩ := .inl ⟨rfl, rfl⟩
    have hsupported : ∀ v ∈ supported, newTranslator v ∈ u₀.heap := fun v hv => by
      rw [hheap]; exact List.mem_append_right _ (List.mem_map_of_mem _ hv)
    cases hf : u₀.fallback with
    | none =>
      -- no supported locale has the fallback's name: the fallback gets a store of its own
      simp only [hf] at hcase ⊢
      have hown : newTranslator fb ∈ u₀.heap ++ [newTranslator fb] :=
        List.mem_append_right _ (List.mem_singleton_self _)
      have hv : ∀ v ∈ supported, toLower v.name = toLower fb.name → v.name = fb.name :=
        fun v hv hl => hcase _ (List.mem_append_left _ (hsupported v hv)) _ hown hl
      rcases FallbackLoopInv.registerSupported hv hstart h₀ with ⟨-, hl⟩ | ⟨p, -, hp, -⟩
      · intro p t hp ht q hq
        cases hp
        rw [List.getElem?_concat_length, Option.some.injEq] at ht
        subst ht
        have hq : u₀.translators.lookup (toLower fb.name) = some q := hq
        rw [hl] at hq
        cases hq
      · rw [hf] at hp; cases hp
    | some p =>
      -- a supported locale has the fallback's name and is the fallback
      simp only [hf] at hcase ⊢
      obtain ⟨v, hv, hvn⟩ := (registerSupported_fallback h₀).resolve_left (by rw [hf]; simp)
      have hv' : ∀ w ∈ supported, toLower w.name = toLower fb.name → w.name = fb.name :=
        fun w hw hl => (hcase _ (hsupported w hw) _ (hsupported v hv)
          (show toLower w.name = toLower v.name by rw [hl, hvn])).trans hvn
      rcases FallbackLoopInv.registerSupported hv' hstart h₀ with
        ⟨hp, -⟩ | ⟨p', t, hp, ht, htn, hl⟩
      · rw [hf] at hp; cases hp
      · intro p'' t' hp'' ht' q hq
        rw [hp] at hp''
        cases hp''
        rw [ht, Option.some.injEq] at ht'
        subst ht'
        rw [htn, hl, Option.some.injEq] at hq
        exact hq.symm

/-- `AddTranslator` keeps the fallback shared when, afterwards, no two stores' names differ only
in letter case. -/
theorem FallbackShared.addTranslator (hs : u.FallbackShared) {translator : Locale}
    {override : Bool} {e : Option I18nError}
    (h : u.addTranslator translator override = some (u', e)) (hcase : u'.CaseConsistent) :
    u'.FallbackShared := by
  rcases addTranslator_cases h with ⟨rfl, -⟩ | ⟨-, -, p, fb, hp, hfb, -, rfl⟩
  · exact hs
  · have hnew : newTranslator translator ∈ u.heap ++ [newTranslator translator] :=
      List.mem_append_right _ (List.mem_singleton_self _)
    intro p' t hp' ht q hq
    by_cases hsame : fb.locale.name = translator.name
    · -- the new store replaces the fallback
      rw [if_pos hsame, Option.some.injEq] at hp'
      subst hp'
      rw [List.getElem?_concat_length, Option.some.injEq] at ht
      subst ht
      have hq : (u.translators.insert (toLower translator.name) u.heap.length).lookup
          (toLower translator.name) = some q := hq
      rw [AList.lookup_insert, Option.some.injEq] at hq
      exact hq.symm
    · -- the fallback stays, and the new store's name is not its name in another case
      rw [if_neg hsame, hp, Option.some.injEq] at hp'
      subst hp'
      rw [getElem?_append_of_getElem? hfb, Option.some.injEq] at ht
      subst ht
      have hlower : toLower fb.locale.name ≠ toLower translator.name := fun hl =>
        hsame (hcase _ (List.mem_append_left _ (List.getElem?_mem hfb)) _ hnew hl)
      have hq : (u.translators.insert (toLower translator.name) u.heap.length).lookup
          (toLower fb.locale.name) = some q := hq
      rw [AList.lookup_insert_ne hlower] at hq
      exact hs p fb hp hfb q hq

end UniversalTranslator

/-- In every registry a run of `NewUniversalTranslator` and `AddTranslator` calls reaches, the
fallback is the store registered under the fallback's lower-cased name, unless two of the
registry's stores have names that differ only in letter case. -/
theorem RegistryReachable.fallbackShared {fallback : Option Locale} {supported : List Locale}
    {u : UniversalTranslator} (h : RegistryReachable fallback supported u)
    (hcase : u.CaseConsistent) : u.FallbackShared := by
  induction h with
  | init h => exact UniversalTranslator.newUniversalTranslator_fallbackShared h hcase
  | add _ _ _ hadd ih =>
    have hbefore := hcase.of_extends (UniversalTranslator.addTranslator_extends_heap hadd)
    exact (ih hbefore).addTranslator hadd hcase

theorem fallbackShared_en_override :
    ∃ u u', newUniversalTranslator (some en) [en] = some u ∧
      u.addTranslator en true = some (u', none) ∧ RegistryReachable (some en) [en] u' ∧
      u'.CaseConsistent ∧ u'.FallbackShared :=
  have hreach : RegistryReachable (some en) [en] _ := .add en true (.init rfl) rfl
  ⟨_, _, rfl, rfl, hreach, by decide, RegistryReachable.fallbackShared hreach (by decide)⟩

end Toolbox.I18n
