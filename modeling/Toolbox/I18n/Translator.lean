import Mathlib.Data.List.AList
import Toolbox.Go.Strings

/-
The per-locale translation store of package `i18n` (`translator.go`): the embedded
`locales.Translator`, the plain map and the three plural maps, the Add family, the renderers
`T`, `C`, `O`, `R`, and `VerifyTranslations`.
-/

namespace Toolbox.I18n

/-- `locales.PluralRule`, a Go `int`. -/
abbrev PluralRule := Int

/-- `locales.PluralRule.String()`: the rule's name, `Unknown` for every other value. -/
def ruleString (rule : PluralRule) : Bytes :=
  match rule with
  | 1 => lit "Zero"
  | 2 => lit "One"
  | 3 => lit "Two"
  | 4 => lit "Few"
  | 5 => lit "Many"
  | 6 => lit "Other"
  | _ => lit "Unknown"

/-- The methods of the embedded `locales.Translator` that the store calls: the locale's name,
its valid rules per category, and its rule selection functions. -/
structure Locale where
  name : Bytes
  pluralsCardinal : List PluralRule
  pluralsOrdinal : List PluralRule
  pluralsRange : List PluralRule
  cardinalPluralRule : Float → UInt64 → PluralRule
  ordinalPluralRule : Float → UInt64 → PluralRule
  rangePluralRule : Float → UInt64 → Float → UInt64 → PluralRule

/-- The three plural maps of a store. -/
inductive Category where
  | cardinal
  | ordinal
  | range
deriving DecidableEq, Repr

/-- `PluralsCardinal()`, `PluralsOrdinal()` or `PluralsRange()`. -/
def Locale.plurals (loc : Locale) : Category → List PluralRule
  | .cardinal => loc.pluralsCardinal
  | .ordinal => loc.pluralsOrdinal
  | .range => loc.pluralsRange

/-- `transText`: a template and the byte offsets of its placeholders, start and end pairwise. -/
structure TransText where
  text : Bytes
  indexes : List Int
deriving DecidableEq, Repr

/-- A key argument, an `interface{}`: a string or a value of another type. -/
inductive Key where
  | string (s : Bytes)
  | other
deriving DecidableEq, Repr

/-- The errors of `errors.go` that the store and the registry return. -/
inductive I18nError where
  | keyIsNotString
  | unknownTranslation (key : Bytes)
  | existingTranslator (locale : Bytes)
  | conflictingTranslation (locale key : Bytes) (rule : PluralRule) (text : Bytes)
  | rangeTranslation (text : Bytes)
  | ordinalTranslation (text : Bytes)
  | cardinalTranslation (text : Bytes)
  | missingPluralTranslation (locale key : Bytes) (rule : PluralRule) (translationType : Bytes)
  | missingBrace (locale key text : Bytes)
  | badParamSyntax (locale param key text : Bytes)
  | localeNotRegistered (locale : Bytes)
  | invalidRuleType (ruleType : Bytes)
deriving DecidableEq, Repr

/-- The store: `translator` with its four maps.  A plural map holds for each key an array
indexed by plural rule, `none` being a nil slot. -/
structure Translator where
  locale : Locale
  translations : GoMap TransText
  cardinalTanslations : GoMap (List (Option TransText))
  ordinalTanslations : GoMap (List (Option TransText))
  rangeTanslations : GoMap (List (Option TransText))

/-- `newTranslator`: an empty store for a locale. -/
def newTranslator (loc : Locale) : Translator :=
  ⟨loc, ∅, ∅, ∅, ∅⟩

namespace Translator

/-- The plural map of a category. -/
def plurals (t : Translator) : Category → GoMap (List (Option TransText))
  | .cardinal => t.cardinalTanslations
  | .ordinal => t.ordinalTanslations
  | .range => t.rangeTanslations

/-- The store with the plural map of a category replaced. -/
def setPlurals (t : Translator) : Category → GoMap (List (Option TransText)) → Translator
  | .cardinal, m => { t with cardinalTanslations := m }
  | .ordinal, m => { t with ordinalTanslations := m }
  | .range, m => { t with rangeTanslations := m }

@[simp] theorem locale_setPlurals (t : Translator) (c : Category) (m) :
    (t.setPlurals c m).locale = t.locale := by
  cases c <;> rfl

@[simp] theorem translations_setPlurals (t : Translator) (c : Category) (m) :
    (t.setPlurals c m).translations = t.translations := by
  cases c <;> rfl

@[simp] theorem plurals_setPlurals (t : Translator) (c d : Category) (m) :
    (t.setPlurals c m).plurals d = if d = c then m else t.plurals d := by
  cases c <;> cases d <;> rfl

end Translator

/-- What a method that mutates the store returns: the store's new state and its `error`
result, `none` being `nil`. -/
structure Step where
  state : Translator
  error : Option I18nError

/-! ### Templates and error texts -/

/-- `"{"`. -/
def leftBrace : Bytes := lit "\x7b"

/-- `"}"`. -/
def rightBrace : Bytes := lit "\x7d"

/-- `paramZero`, `"{0}"`. -/
def paramZero : Bytes := lit "\x7b0\x7d"

/-- `paramOne`, `"{1}"`. -/
def paramOne : Bytes := lit "\x7b1\x7d"

/-- The placeholder `"{" + strconv.Itoa(i) + "}"` that `Add` looks for. -/
def param (i : Nat) : Bytes := leftBrace ++ Strconv.itoa i ++ rightBrace

/-- The words a category's errors use: `RuleTypeCardinal`, `RuleTypeOrdinal`, `RuleTypeRange`. -/
def Category.name : Category → Bytes
  | .cardinal => lit "cardinal"
  | .ordinal => lit "ordinal"
  | .range => lit "range"

/-- The `TranslationType` that `VerifyTranslations` reports for a category. -/
def Category.translationType : Category → Bytes
  | .cardinal => lit "plural"
  | .ordinal => lit "ordinal"
  | .range => lit "range"

/-- `ErrCardinalTranslation`, `ErrOrdinalTranslation` or `ErrRangeTranslation` with a text. -/
def Category.error : Category → Bytes → I18nError
  | .cardinal => .cardinalTranslation
  | .ordinal => .ordinalTranslation
  | .range => .rangeTranslation

/-- The text of the error for a rule the locale does not list. -/
def invalidRuleText (c : Category) (rule : PluralRule) (locale key text : Bytes) : Bytes :=
  c.name ++ lit " plural rule '" ++ ruleString rule ++ lit "' does not exist for locale '" ++
    locale ++ lit "' key: '" ++ key ++ lit "' text: '" ++ text ++ lit "'"

/-- The tail shared by the texts of the missing-placeholder errors. -/
def contextText (locale key text : Bytes) : Bytes :=
  lit "locale: '" ++ locale ++ lit "' key: '" ++ key ++ lit "' text: '" ++ text ++ lit "'"

/-- The loop of `Add`: the offsets of `{i}`, `{i+1}`, ... (`n` of them), each found by
`strings.Index`, or the first placeholder missing. -/
def paramIndexes (text : Bytes) (i : Nat) : Nat → Except Bytes (List Int)
  | 0 => .ok []
  | n + 1 =>
    let idx := Strings.index text (param i)
    if idx = -1 then .error (param i)
    else (paramIndexes text (i + 1) n).map fun rest => idx :: (idx + (param i).length) :: rest

/-- How `AddCardinal` and `AddOrdinal` locate `{0}`; `method` names the caller in the error
text, which is returned in place of the offsets when `{0}` is missing. -/
def locateZero (method text : Bytes) : Except Bytes (List Int) :=
  let idx := Strings.index text paramZero
  if idx = -1 then
    .error (lit "parameter '" ++ paramZero ++ lit "' not found, may want to use 'Add' instead of '" ++
      method ++ lit "'. ")
  else .ok [idx, idx + paramZero.length]

/-- How `AddRange` locates `{0}` and then `{1}`, each searched from the start of the text. -/
def locateRange (text : Bytes) : Except Bytes (List Int) :=
  let idx := Strings.index text paramZero
  if idx = -1 then
    .error (lit "parameter '" ++ paramZero ++
      lit "' not found, are you sure you're adding a Range Translation?  ")
  else
    let idx1 := Strings.index text paramOne
    if idx1 = -1 then
      .error (lit "parameter '" ++ paramOne ++
        lit "' not found, a Range Translation requires two parameters. ")
    else .ok [idx, idx + paramZero.length, idx1, idx1 + paramOne.length]

/-- The placeholder search of each plural add. -/
def Category.locate : Category → Bytes → Except Bytes (List Int)
  | .cardinal => locateZero (lit "AddCardinal")
  | .ordinal => locateZero (lit "AddOrdinal")
  | .range => locateRange

/-! ### The Add family -/

/-- `make([]*transText, 7)`: one slot per plural rule, `PluralRuleUnknown` included. -/
def emptySlots : List (Option TransText) := List.replicate 7 none

/-- The conflict check of the plural adds on the key's array, when the key has one:
`len(tarr) > 0 && tarr[rule] != nil && !override`, where indexing out of range panics. -/
def conflicts : Option (List (Option TransText)) → PluralRule → Bool → Option Bool
  | none, _, _ => some false
  | some tarr, rule, override =>
    if 0 < tarr.length then (sliceAt tarr rule).map fun slot => slot.isSome && !override
    else some false

/-- The key's slot array, or the fresh one a plural add creates for a key without one. -/
def Translator.slotsOf (t : Translator) (c : Category) (key : Bytes) : List (Option TransText) :=
  ((t.plurals c).lookup key).getD emptySlots

namespace Translator

/-- `Add`: refuse a conflicting key, count the braces, locate every `{i}`, then store. -/
def add (t : Translator) (k : Key) (text : Bytes) (override : Bool) : Step :=
  match k with
  | .other => ⟨t, some .keyIsNotString⟩
  | .string key =>
    if (t.translations.lookup key).isSome && !override then
      ⟨t, some (.conflictingTranslation t.locale.name key 0 text)⟩
    else if Strings.count text leftBrace ≠ Strings.count text rightBrace then
      ⟨t, some (.missingBrace t.locale.name key text)⟩
    else
      match paramIndexes text 0 (Strings.count text leftBrace) with
      | .error s => ⟨t, some (.badParamSyntax t.locale.name s key text)⟩
      | .ok idxs => ⟨{ t with translations := t.translations.insert key ⟨text, idxs⟩ }, none⟩

/-- `tarr[rule] = slot` on the key's array, which is (re)stored in the category's map. -/
def storeSlot (t : Translator) (c : Category) (key : Bytes) (tarr : List (Option TransText))
    (rule : PluralRule) (slot : Option TransText) : Option Translator :=
  (sliceSet tarr rule slot).map fun tarr => t.setPlurals c ((t.plurals c).insert key tarr)

/-- The body shared by `AddCardinal`, `AddOrdinal` and `AddRange`: validate the rule, find or
create the key's slot array, refuse a conflicting slot, write the slot, look for the
placeholders, and clear the slot again when one is missing.  The write that Go makes before the
search panics exactly when the final write does, so the search is made first here. -/
def addPlural (c : Category) (t : Translator) (k : Key) (text : Bytes) (rule : PluralRule)
    (override : Bool) : Option Step :=
  match k with
  | .other => some ⟨t, some .keyIsNotString⟩
  | .string key =>
    if rule ∉ t.locale.plurals c then
      some ⟨t, some (c.error (invalidRuleText c rule t.locale.name key text))⟩
    else
      match conflicts ((t.plurals c).lookup key) rule override with
      | none => none
      | some true => some ⟨t, some (.conflictingTranslation t.locale.name key rule text)⟩
      | some false =>
        match c.locate text with
        | .error msg =>
          (t.storeSlot c key (t.slotsOf c key) rule none).map fun t' =>
            ⟨t', some (c.error (msg ++ contextText t.locale.name key text))⟩
        | .ok idxs =>
          (t.storeSlot c key (t.slotsOf c key) rule (some ⟨text, idxs⟩)).map fun t' => ⟨t', none⟩

/-- `AddCardinal`. -/
def addCardinal (t : Translator) (k : Key) (text : Bytes) (rule : PluralRule)
    (override : Bool) : Option Step :=
  t.addPlural .cardinal k text rule override

/-- `AddOrdinal`. -/
def addOrdinal (t : Translator) (k : Key) (text : Bytes) (rule : PluralRule)
    (override : Bool) : Option Step :=
  t.addPlural .ordinal k text rule override

/-- `AddRange`: its own placeholder search `locateRange` adds the check for `{1}`. -/
def addRange (t : Translator) (k : Key) (text : Bytes) (rule : PluralRule)
    (override : Bool) : Option Step :=
  t.addPlural .range k text rule override

/-! ### Rendering -/

/-- The loop of `T`: copy the text up to each placeholder start, then the next parameter, and
resume at the placeholder end; after the last pair, copy the rest of the text. -/
def renderParams (text : Bytes) (params : List Bytes) : Int → Nat → List Int → Option Bytes
  | start, _, [] => Strings.slice text start text.length
  | _, _, [_] => none
  | start, count, stop :: next :: rest => do
    let piece ← Strings.slice text start stop
    let p ← params[count]?
    let tail ← renderParams text params next (count + 1) rest
    pure (piece ++ p ++ tail)

/-- `T`: render a plain translation. -/
def T (t : Translator) (k : Key) (params : List Bytes) : Option (Except I18nError Bytes) :=
  match k with
  | .other => some (.error .keyIsNotString)
  | .string key =>
    match t.translations.lookup key with
    | none => some (.error (.unknownTranslation key))
    | some entry => (renderParams entry.text params 0 0 entry.indexes).map .ok

/-- The body shared by `C` and `O`: splice `param` into the rule's slot; a nil slot is
dereferenced and panics. -/
def renderOne (t : Translator) (c : Category) (k : Key) (rule : PluralRule) (param : Bytes) :
    Option (Except I18nError Bytes) :=
  match k with
  | .other => some (.error .keyIsNotString)
  | .string key =>
    match (t.plurals c).lookup key with
    | none => some (.error (.unknownTranslation key))
    | some tarr => do
      let entry ← (← sliceAt tarr rule)
      let i0 ← entry.indexes[0]?
      let pre ← Strings.slice entry.text 0 i0
      let i1 ← entry.indexes[1]?
      let post ← Strings.slice entry.text i1 entry.text.length
      pure (.ok (pre ++ param ++ post))

/-- `C`. -/
def C (t : Translator) (k : Key) (num : Float) (digits : UInt64) (param : Bytes) :
    Option (Except I18nError Bytes) :=
  t.renderOne .cardinal k (t.locale.cardinalPluralRule num digits) param

/-- `O`. -/
def O (t : Translator) (k : Key) (num : Float) (digits : UInt64) (param : Bytes) :
    Option (Except I18nError Bytes) :=
  t.renderOne .ordinal k (t.locale.ordinalPluralRule num digits) param

/-- `R`: splice two parameters, slicing the text between the end of `{0}` and the start of
`{1}`. -/
def R (t : Translator) (k : Key) (num1 : Float) (digits1 : UInt64) (num2 : Float)
    (digits2 : UInt64) (param1 param2 : Bytes) : Option (Except I18nError Bytes) :=
  match k with
  | .other => some (.error .keyIsNotString)
  | .string key =>
    match t.rangeTanslations.lookup key with
    | none => some (.error (.unknownTranslation key))
    | some tarr => do
      let entry ← (← sliceAt tarr (t.locale.rangePluralRule num1 digits1 num2 digits2))
      let i0 ← entry.indexes[0]?
      let pre ← Strings.slice entry.text 0 i0
      let i1 ← entry.indexes[1]?
      let i2 ← entry.indexes[2]?
      let mid ← Strings.slice entry.text i1 i2
      let i3 ← entry.indexes[3]?
      let post ← Strings.slice entry.text i3 entry.text.length
      pure (.ok (pre ++ param1 ++ mid ++ param2 ++ post))

end Translator

/-! ### Verification -/

/-- Go's `if err != nil { return err }` between two steps that return an error or panic. -/
def orElseNil (first next : Option (Option I18nError)) : Option (Option I18nError) :=
  match first with
  | some none => next
  | r => r

theorem orElseNil_eq_nil {first next : Option (Option I18nError)} :
    orElseNil first next = some none ↔ first = some none ∧ next = some none := by
  unfold orElseNil
  split <;> simp_all

/-- The inner loop of `VerifyTranslations`: the first rule of `rules` whose slot is nil. -/
def checkRules (loc : Locale) (c : Category) (key : Bytes) (slots : List (Option TransText)) :
    List PluralRule → Option (Option I18nError)
  | [] => some none
  | rule :: rules =>
    match sliceAt slots rule with
    | none => none
    | some none => some (some (.missingPluralTranslation loc.name key rule c.translationType))
    | some (some _) => checkRules loc c key slots rules

/-- The loop of `VerifyTranslations` over one plural map. -/
def verifyMap (loc : Locale) (c : Category) :
    List (Σ _ : Bytes, List (Option TransText)) → Option (Option I18nError)
  | [] => some none
  | ⟨key, slots⟩ :: rest => orElseNil (checkRules loc c key slots (loc.plurals c)) (verifyMap loc c rest)

/-- `VerifyTranslations`: the cardinal map, then the ordinal map, then the range map. -/
def Translator.verifyTranslations (t : Translator) : Option (Option I18nError) :=
  orElseNil (verifyMap t.locale .cardinal t.cardinalTanslations.entries)
    (orElseNil (verifyMap t.locale .ordinal t.ordinalTanslations.entries)
      (verifyMap t.locale .range t.rangeTanslations.entries))

end Toolbox.I18n
