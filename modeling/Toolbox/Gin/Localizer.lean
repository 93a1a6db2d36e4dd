import Toolbox.Gin.Context
import Toolbox.I18n.Package

/-
The `Localizer` middleware: it looks the languages a request asks for up in the application's
`UniversalTranslator`, the `lang` form value first and then the tags of `Accept-Language` in
order, with `GetTranslator` on each until one is registered, and stores the translator found, or
the fallback, under `KeyTranslator`.  `language.ParseAcceptLanguage` is given abstractly.
-/

namespace Toolbox.Gin

open Strings I18n

/-- `tbcontext.KeyTranslator`. -/
def keyTranslator : Bytes := lit "translator"

/-- `LocalizerOptions`. -/
structure LocalizerOptions where
  translator : UniversalTranslator
  enableErrorCodeHeader : Bool
  enableErrorMessageHeader : Bool
  errorHandler : Option ErrorHandler

/-- The `middlewareOptions` methods of `LocalizerOptions`. -/
def LocalizerOptions.toMiddlewareOptions (o : LocalizerOptions) : MiddlewareOptions :=
  ⟨lit "X-Localizer-Error-Code", o.enableErrorCodeHeader, o.enableErrorMessageHeader⟩

/-- The loop of `Localizer` over the languages: `GetTranslator` on each until one is found; the
last answer stays. -/
def getTranslatorLoop (u : UniversalTranslator) :
    Option Nat × Bool → List Bytes → Option Nat × Bool
  | acc, [] => acc
  | _, lang :: langs =>
    if (u.getTranslator lang).2 then u.getTranslator lang
    else getTranslatorLoop u (u.getTranslator lang) langs

/-- `Localizer` on one request whose `lang` form value is `lang`, `parseAcceptLanguage` giving the
tags of an `Accept-Language` header, or the parse error.  The rest of the chain, `next`, is given
the translator that `tbcontext.GetTranslator` then finds under `KeyTranslator`: the one this
middleware stored, or none when it stored nothing. -/
def localizer (o : LocalizerOptions) (parseAcceptLanguage : Bytes → Except ErrorValue (List Bytes))
    (lang : Bytes) (next : Option Nat → Context → Context) (c : Context) : Option Context :=
  match parseAcceptLanguage (c.getHeader (lit "Accept-Language")) with
  | .error err =>
    (setErrorHeaders c o.toMiddlewareOptions (lit "parse-accept-language-failure")
      (some err)).map fun c =>
        onError o.errorHandler (next none) 500 c (lit "parse-accept-language-failure") (some err)
  | .ok tags =>
    let trans := (getTranslatorLoop o.translator (none, false) (lang :: tags)).1
    some (next trans (c.set keyTranslator .other))

/-- The loop of `GetTranslator` calls is `FindTranslator` over the same languages. -/
theorem getTranslatorLoop_eq_findTranslator (u : UniversalTranslator) (acc : Option Nat × Bool)
    (lang : Bytes) (langs : List Bytes) :
    getTranslatorLoop u acc (lang :: langs) = u.findTranslator (lang :: langs) := by
  induction langs generalizing acc lang with
  | nil =>
    rw [getTranslatorLoop, getTranslatorLoop, ite_self, UniversalTranslator.getTranslator]
    conv_rhs => rw [UniversalTranslator.findTranslator]
    cases u.translators.lookup (toLower lang) <;> rfl
  | cons lang' langs ih =>
    rw [getTranslatorLoop, ih, UniversalTranslator.getTranslator]
    conv_rhs => rw [UniversalTranslator.findTranslator]
    cases u.translators.lookup (toLower lang) <;> rfl

/-- What `FindTranslator` gives in a well-formed registry is a store of it, or nil when no language
is registered and there is no fallback. -/
theorem findTranslator_store {u : UniversalTranslator} (hu : u.WellFormed) (langs : List Bytes)
    {p : Nat} (h : (u.findTranslator langs).1 = some p) : ∃ t, u.heap[p]? = some t := by
  induction langs with
  | nil => exact ⟨_, List.getElem?_eq_getElem (hu.fallback p h)⟩
  | cons lang langs ih =>
    rw [UniversalTranslator.findTranslator] at h
    split at h
    · cases h
      exact ⟨_, List.getElem?_eq_getElem (hu.translators _ _ ‹_›)⟩
    · exact ih h

/-- For every registry the package reaches and every request whose `Accept-Language` header
parses, `Localizer` hands the rest of the chain the translator `FindTranslator` gives for the
`lang` form value followed by the header's tags: the store registered under the first of them,
lower-cased, that is registered, else the fallback.  That translator, when set, is a store of the
registry. -/
theorem localizer_findTranslator {fallback : Option I18n.Locale} {supported : List I18n.Locale}
    {o : LocalizerOptions} (ho : PackageReachable fallback supported o.translator)
    {parseAcceptLanguage : Bytes → Except ErrorValue (List Bytes)} {c : Context} {tags : List Bytes}
    (hparse : parseAcceptLanguage (c.getHeader (lit "Accept-Language")) = .ok tags)
    (lang : Bytes) (next : Option Nat → Context → Context) :
    localizer o parseAcceptLanguage lang next c =
        some (next (o.translator.findTranslator (lang :: tags)).1 (c.set keyTranslator .other)) ∧
      ∀ p, (o.translator.findTranslator (lang :: tags)).1 = some p →
        ∃ t, o.translator.heap[p]? = some t := by
  refine ⟨?_, fun p hp => findTranslator_store ho.wellFormed _ hp⟩
  simp only [localizer, hparse, getTranslatorLoop_eq_findTranslator]

theorem localizer_findTranslator_en :
    ∃ u, PackageReachable (some en) [en] u ∧
      localizer ⟨u, false, false, none⟩ (fun _ => .ok [lit "EN"]) (lit "de") (fun _ c => c)
          (.ofHeaders ∅) =
        some ((fun _ c => c) (u.findTranslator [lit "de", lit "EN"]).1
          ((Context.ofHeaders ∅).set keyTranslator .other)) ∧
      ∀ p, (u.findTranslator [lit "de", lit "EN"]).1 = some p → ∃ t, u.heap[p]? = some t :=
  have h : PackageReachable (some en) [en] _ := .init rfl
  ⟨_, h, localizer_findTranslator (o := ⟨_, false, false, none⟩) h rfl _ _⟩

end Toolbox.Gin
