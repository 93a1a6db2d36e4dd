import Toolbox.I18n.Import
import Toolbox.I18n.Render

/-
The export of package `i18n` (`Export`, `exportPlurals`): the records written for one store, and
their round trip through `ImportFromReader` into a fresh store of the same locale.  A record has
no field for the slot of `PluralRuleUnknown`, so the round trip holds for the locales that do not
list that rule.
-/

namespace Toolbox.I18n

open Strings

/-! ### The records `Export` builds -/

/-- The `switch` of `exportPlurals` on `strings.ToLower(locales.PluralRule(i).String())`: the
field of the record that slot `i` fills. -/
def setField (r : Record) (i : Nat) (text : Bytes) : Record :=
  let name := toLower (ruleString i)
  if name = lit "zero" then { r with zero := text }
  else if name = lit "one" then { r with one := text }
  else if name = lit "two" then { r with two := text }
  else if name = lit "few" then { r with few := text }
  else if name = lit "many" then { r with many := text }
  else if name = lit "other" then { r with other := text }
  else r

/-- The loop of `exportPlurals` over one key's slots from slot `i` on: a non-nil slot sets the
record's locale and rule type and fills its field. -/
def exportSlots (locale ruleType : Bytes) : Record → Nat → List (Option TransText) → Record
  | r, _, [] => r
  | r, i, none :: rest => exportSlots locale ruleType r (i + 1) rest
  | r, i, some plural :: rest =>
    exportSlots locale ruleType
      (setField { r with locale := locale, ruleType := ruleType } i plural.text) (i + 1) rest

/-- The loop shared by the plain entries of `Export` and by `exportPlurals`: give each key of the
map a record if it has none yet, and fill the record from the key's value. -/
def exportEach {ν : Type} (fill : Record → ν → Record) (trans : GoMap Record) :
    List (Σ _ : Bytes, ν) → GoMap Record
  | [] => trans
  | ⟨key, v⟩ :: rest =>
    exportEach fill (trans.insert key (fill ((trans.lookup key).getD {}) v)) rest

/-- `exportPlurals`; every key of the model's maps is a string. -/
def exportPlurals (trans : GoMap Record) (locale ruleType : Bytes)
    (plurals : GoMap (List (Option TransText))) : GoMap Record :=
  exportEach (fun r pluralTrans => exportSlots locale ruleType r 0 pluralTrans) trans
    plurals.entries

/-- The records `Export` encodes for one store: its plain entries, then its cardinal, ordinal and
range entries. -/
def exportLocale (t : Translator) : GoMap Record :=
  let l := t.locale.name
  let trans := exportEach (fun r v => { r with locale := l, other := v.text }) ∅
    t.translations.entries
  let trans := exportPlurals trans l (lit "cardinal") t.cardinalTanslations
  let trans := exportPlurals trans l (lit "ordinal") t.ordinalTanslations
  exportPlurals trans l (lit "range") t.rangeTanslations

/-- No key is in more than one of the store's four maps. -/
def Translator.KeysDisjoint (t : Translator) : Prop :=
  ∀ key c, key ∈ t.plurals c → key ∉ t.translations ∧ ∀ d, d ≠ c → key ∉ t.plurals d

/-- Four maps without a key in common have their keys disjoint. -/
theorem Translator.keysDisjoint_of_nodup {t : Translator}
    (h : (t.translations.keys ++ t.cardinalTanslations.keys ++ t.ordinalTanslations.keys ++
      t.rangeTanslations.keys).Nodup) : t.KeysDisjoint := by
  simp only [List.nodup_append, List.disjoint_append_left] at h
  obtain ⟨⟨⟨-, -, hTC⟩, -, hTO, hCO⟩, -, ⟨hTR, hCR⟩, hOR⟩ := h
  intro key c hc
  refine ⟨fun hm => ?_, fun d hd hm => ?_⟩
  · cases c
    · exact hTC hm hc
    · exact hTO hm hc
    · exact hTR hm hc
  · cases c <;> cases d <;> first
      | exact absurd rfl hd | exact hCO hc hm | exact hCO hm hc | exact hCR hc hm
      | exact hCR hm hc | exact hOR hc hm | exact hOR hm hc

/-! ### Which record a key gets -/

theorem lookup_exportEach_entries {ν : Type} {fill : Record → ν → Record} {trans : GoMap Record}
    {entries : List (Σ _ : Bytes, ν)} (hl : entries.NodupKeys) (key : Bytes) :
    (exportEach fill trans entries).lookup key =
      match entries.dlookup key with
      | some v => some (fill ((trans.lookup key).getD {}) v)
      | none => trans.lookup key := by
  induction entries generalizing trans with
  | nil => rfl
  | cons x rest ih =>
    obtain ⟨k, v⟩ := x
    obtain ⟨hnew, hrest⟩ := List.nodupKeys_cons.mp hl
    rw [exportEach, ih hrest]
    by_cases hk : key = k
    · subst hk
      rw [List.dlookup_eq_none.mpr hnew, List.dlookup_cons_eq, AList.lookup_insert]
    · rw [List.dlookup_cons_ne _ _ hk]
      cases rest.dlookup key <;> simp [AList.lookup_insert_ne hk]

/-- Each key of the map gets its value's record; every other key keeps the record it had. -/
theorem lookup_exportEach {ν : Type} (fill : Record → ν → Record) (trans : GoMap Record)
    (m : GoMap ν) (key : Bytes) :
    (exportEach fill trans m.entries).lookup key =
      match m.lookup key with
      | some v => some (fill ((trans.lookup key).getD {}) v)
      | none => trans.lookup key :=
  lookup_exportEach_entries m.nodupKeys key

section ExportLookup

variable {t : Translator} {key : Bytes}

theorem Translator.KeysDisjoint.plain_none (hd : t.KeysDisjoint) {e : TransText}
    (he : t.translations.lookup key = some e) (c : Category) : (t.plurals c).lookup key = none :=
  AList.lookup_eq_none.mpr fun hc =>
    (hd key c hc).1 (AList.lookup_isSome.mp (by rw [he]; rfl))

theorem Translator.KeysDisjoint.plural_none (hd : t.KeysDisjoint) {c : Category}
    {tarr : List (Option TransText)} (hk : (t.plurals c).lookup key = some tarr) :
    t.translations.lookup key = none ∧ ∀ d, d ≠ c → (t.plurals d).lookup key = none := by
  have hmem : key ∈ t.plurals c := AList.lookup_isSome.mp (by rw [hk]; rfl)
  exact ⟨AList.lookup_eq_none.mpr (hd key c hmem).1,
    fun d hd' => AList.lookup_eq_none.mpr ((hd key c hmem).2 d hd')⟩

/-- A plain key's record holds the locale and the text in `Other`. -/
theorem exportLocale_plain (hd : t.KeysDisjoint) {e : TransText}
    (he : t.translations.lookup key = some e) :
    (exportLocale t).lookup key = some { locale := t.locale.name, other := e.text } := by
  have h₁ := hd.plain_none he .cardinal
  have h₂ := hd.plain_none he .ordinal
  have h₃ := hd.plain_none he .range
  simp only [Translator.plurals] at h₁ h₂ h₃
  simp [exportLocale, exportPlurals, lookup_exportEach, he, h₁, h₂, h₃]

/-- A plural key's record is what `exportSlots` makes of its array from an empty record. -/
theorem exportLocale_plural (hd : t.KeysDisjoint) {c : Category}
    {tarr : List (Option TransText)} (hk : (t.plurals c).lookup key = some tarr) :
    (exportLocale t).lookup key = some (exportSlots t.locale.name c.name {} 0 tarr) := by
  obtain ⟨hplain, hother⟩ := hd.plural_none hk
  cases c with
  | cardinal =>
    have h₂ := hother .ordinal (by decide)
    have h₃ := hother .range (by decide)
    simp only [Translator.plurals] at hk h₂ h₃
    simp [exportLocale, exportPlurals, lookup_exportEach, Category.name, hk, hplain, h₂, h₃]
  | ordinal =>
    have h₁ := hother .cardinal (by decide)
    have h₃ := hother .range (by decide)
    simp only [Translator.plurals] at hk h₁ h₃
    simp [exportLocale, exportPlurals, lookup_exportEach, Category.name, hk, hplain, h₁, h₃]
  | range =>
    have h₁ := hother .cardinal (by decide)
    have h₂ := hother .ordinal (by decide)
    simp only [Translator.plurals] at hk h₁ h₂
    simp [exportLocale, exportPlurals, lookup_exportEach, Category.name, hk, hplain, h₁, h₂]

theorem exportLocale_none (hplain : t.translations.lookup key = none)
    (hplural : ∀ c, (t.plurals c).lookup key = none) : (exportLocale t).lookup key = none := by
  have h₁ := hplural .cardinal
  have h₂ := hplural .ordinal
  have h₃ := hplural .range
  simp only [Translator.plurals] at h₁ h₂ h₃
  simp [exportLocale, exportPlurals, lookup_exportEach, hplain, h₁, h₂, h₃]

end ExportLookup

/-! ### What a plural record holds -/

theorem setField_header (r : Record) (i : Nat) (text : Bytes) :
    (setField r i text).locale = r.locale ∧ (setField r i text).ruleType = r.ruleType ∧
      (setField r i text).overrideExisting = r.overrideExisting := by
  simp only [setField, apply_ite Record.locale, apply_ite Record.ruleType,
    apply_ite Record.overrideExisting, ite_self, and_self]

theorem ruleString_of_seven_le {i : Int} (h : 7 ≤ i) : ruleString i = lit "Unknown" := by
  unfold ruleString
  split <;> first | rfl | omega

/-- Slot `i` fills the field of rule `i`; the slots of `PluralRuleUnknown` and beyond fill none. -/
theorem fields_setField (r : Record) (i : Nat) (text : Bytes) :
    (setField r i text).fields =
      r.fields.map fun (x : Int × Bytes) => if x.1 = (i : Int) then (x.1, text) else x := by
  match i with
  | 0 => rfl
  | 1 => rfl
  | 2 => rfl
  | 3 => rfl
  | 4 => rfl
  | 5 => rfl
  | 6 => rfl
  | i + 7 =>
    have hname : ruleString ((i + 7 : Nat) : Int) = lit "Unknown" := ruleString_of_seven_le (by omega)
    have hr : setField r (i + 7) text = r := by
      unfold setField
      rw [hname]
      rfl
    rw [hr]
    simp (disch := omega) only [Record.fields, List.map_cons, List.map_nil, if_neg]

theorem sliceAt_neg {α : Type} {l : List α} {n : Int} (h : n < 0) : sliceAt l n = none := by
  simp [sliceAt, show ¬0 ≤ n by omega]

theorem sliceAt_cons {α : Type} (a : α) (l : List α) (n : Int) :
    sliceAt (a :: l) n = if n = 0 then some a else sliceAt l (n - 1) := by
  unfold sliceAt
  split_ifs with h0 h1 h2 h2
  · subst h1; simp
  · rw [show n.toNat = (n - 1).toNat + 1 by omega, List.getElem?_cons_succ]
  · omega
  · omega
  · omega
  · rfl

/-- Field `x` of a record once `exportSlots` has written the slots from index `i` on. -/
def written (slots : List (Option TransText)) (i : Nat) (x : Int × Bytes) : Int × Bytes :=
  match sliceAt slots (x.1 - i) with
  | some (some e) => (x.1, e.text)
  | _ => x

theorem fields_exportSlots (locale ruleType : Bytes) (r : Record) (i : Nat)
    (slots : List (Option TransText)) :
    (exportSlots locale ruleType r i slots).fields = r.fields.map (written slots i) := by
  induction slots generalizing r i with
  | nil =>
    conv_lhs => rw [exportSlots, ← List.map_id r.fields]
    congr 1
    funext x
    simp [written, sliceAt]
  | cons slot rest ih =>
    cases slot with
    | none =>
      rw [exportSlots, ih]
      congr 1
      funext x
      simp only [written, sliceAt_cons]
      split_ifs with h
      · rw [sliceAt_neg]; omega
      · rw [show x.1 - ((i + 1 : Nat) : Int) = x.1 - i - 1 by omega]
    | some e =>
      rw [exportSlots, ih, fields_setField, List.map_map]
      congr 1
      funext x
      simp only [Function.comp, written, sliceAt_cons]
      split_ifs with h h'
      · rw [sliceAt_neg]; omega
      · omega
      · omega
      · rw [show x.1 - ((i + 1 : Nat) : Int) = x.1 - i - 1 by omega]

/-- A key's record carries the locale and rule type once one of its slots is non-nil. -/
theorem exportSlots_header (locale ruleType : Bytes) (r : Record) (i : Nat)
    (slots : List (Option TransText)) :
    (exportSlots locale ruleType r i slots).locale =
        (if slots.any Option.isSome then locale else r.locale) ∧
      (exportSlots locale ruleType r i slots).ruleType =
        (if slots.any Option.isSome then ruleType else r.ruleType) ∧
      (exportSlots locale ruleType r i slots).overrideExisting = r.overrideExisting := by
  induction slots generalizing r i with
  | nil => exact ⟨rfl, rfl, rfl⟩
  | cons slot rest ih =>
    cases slot with
    | none => simpa [exportSlots] using ih r (i + 1)
    | some e =>
      obtain ⟨hl, hr, ho⟩ := ih (setField { r with locale := locale, ruleType := ruleType } i e.text)
        (i + 1)
      obtain ⟨hl', hr', ho'⟩ := setField_header { r with locale := locale, ruleType := ruleType } i
        e.text
      simp only [exportSlots, List.any_cons, Option.isSome_some, Bool.true_or, if_true]
      refine ⟨?_, ?_, ?_⟩
      · rw [hl, hl']; split_ifs <;> rfl
      · rw [hr, hr']; split_ifs <;> rfl
      · rw [ho, ho']

/-! ### Importing an exported record into a store without its key -/

theorem Category.text_ne_nil_of_locate {c : Category} {text : Bytes} {idxs : List Int}
    (h : c.locate text = .ok idxs) : text ≠ [] := by
  have hzero : ∀ a, indexOf? paramZero text = some a → text ≠ [] := fun a ha hnil => by
    have := indexOf?_add_length_le paramZero_ne_nil ha
    simp [hnil] at this
  cases c with
  | cardinal => obtain ⟨a, ha, -⟩ := locateZero_eq_ok h; exact hzero a ha
  | ordinal => obtain ⟨a, ha, -⟩ := locateZero_eq_ok h; exact hzero a ha
  | range => obtain ⟨a, -, ha, -, -⟩ := locateRange_eq_ok h; exact hzero a ha

namespace Translator

/-- The store with the key's array of category `c` set, or left without one. -/
def withSlots (t : Translator) (c : Category) (key : Bytes) :
    Option (List (Option TransText)) → Translator
  | none => t
  | some slots => t.setPlurals c ((t.plurals c).insert key slots)

theorem setPlurals_setPlurals (t : Translator) (c : Category)
    (m m' : GoMap (List (Option TransText))) :
    (t.setPlurals c m).setPlurals c m' = t.setPlurals c m' := by
  cases c <;> rfl

@[simp] theorem locale_withSlots (t : Translator) (c : Category) (key : Bytes)
    (o : Option (List (Option TransText))) : (t.withSlots c key o).locale = t.locale := by
  cases o <;> simp [withSlots]

variable {t₀ : Translator} {loc : Locale} {c : Category} {key : Bytes}
  {tarr : List (Option TransText)} {m : Nat}

theorem lookup_withSlots (h₀ : (t₀.plurals c).lookup key = none)
    (o : Option (List (Option TransText))) : ((t₀.withSlots c key o).plurals c).lookup key = o := by
  cases o <;> simp [withSlots, h₀, AList.lookup_insert]

theorem setPlurals_insert_withSlots (o : Option (List (Option TransText)))
    (slots : List (Option TransText)) :
    (t₀.withSlots c key o).setPlurals c (((t₀.withSlots c key o).plurals c).insert key slots) =
      t₀.withSlots c key (some slots) := by
  cases o <;> simp [withSlots, setPlurals_setPlurals, AList.insert_insert]

end Translator

/-- The key's array once the fields of its record below rule `m` have been imported into a store
without the key: no array while every slot so far is nil. -/
def restored (tarr : List (Option TransText)) (m : Nat) : Option (List (Option TransText)) :=
  if (tarr.take m).all Option.isNone then none
  else some (tarr.take m ++ List.replicate (7 - m) none)

section Restored

variable {tarr : List (Option TransText)} {m : Nat}

theorem getD_restored (hm : m ≤ 7) (hlen : tarr.length = 7) :
    (restored tarr m).getD emptySlots = tarr.take m ++ List.replicate (7 - m) none := by
  unfold restored
  split_ifs with hall
  · have htake : tarr.take m = List.replicate m none := by
      refine List.eq_replicate_iff.mpr ⟨by simp [hlen]; omega, fun b hb => ?_⟩
      simpa using List.all_eq_true.mp hall b hb
    rw [htake, ← List.replicate_add, Nat.add_sub_cancel' hm]
    rfl
  · rfl

theorem restored_succ_none (hm : m < 7) (h : tarr[m]? = some none) :
    restored tarr (m + 1) = restored tarr m := by
  unfold restored
  rw [List.take_succ, h]
  simp only [Option.toList_some, List.all_append, List.all_cons, List.all_nil,
    Option.isNone_none, Bool.and_true]
  split_ifs
  · rfl
  · rw [List.append_assoc, show 7 - m = 7 - (m + 1) + 1 by omega, List.replicate_succ]
    rfl

theorem restored_succ_some (hm : m < 7) (hlen : tarr.length = 7) {e : TransText}
    (h : tarr[m]? = some (some e)) :
    restored tarr (m + 1) = some ((tarr.take m ++ List.replicate (7 - m) none).set m (some e)) := by
  have htake : (tarr.take m).length = m := by simp [hlen]; omega
  unfold restored
  rw [List.take_succ, h, if_neg (by simp)]
  rw [List.set_append_right _ _ htake.le, htake, Nat.sub_self,
    show 7 - m = 7 - (m + 1) + 1 by omega, List.replicate_succ]
  simp

theorem restored_seven (hlen : tarr.length = 7) (hany : tarr.any Option.isSome) :
    restored tarr 7 = some tarr := by
  have hnot : ¬(tarr.all Option.isNone) = true := by
    simp only [List.all_eq_true, not_forall]
    obtain ⟨x, hx, hsome⟩ := List.any_eq_true.mp hany
    exact ⟨x, hx, by simpa [Option.isNone_iff_eq_none, Option.isSome_iff_ne_none] using hsome⟩
  simp [restored, List.take_of_length_le hlen.le, hnot]

theorem conflicts_restored (hm : m < 7) (hlen : tarr.length = 7) :
    conflicts (restored tarr m) m false = some false := by
  have htake : (tarr.take m).length = m := by simp [hlen]; omega
  unfold restored
  split_ifs
  · rfl
  · simp [conflicts, sliceAt, List.getElem?_append_right htake.le, htake, Int.ofNat_nonneg,
      List.getElem?_replicate, show 0 < 7 - m by omega]

end Restored

namespace Translator

variable {t₀ : Translator} {loc : Locale} {c : Category} {key : Bytes}
  {tarr : List (Option TransText)}

/-- The add of a field whose slot is still nil writes the slot. -/
theorem addPlural_restored (h₀ : (t₀.plurals c).lookup key = none) (hloc : t₀.locale = loc)
    (hslots : SlotsOk loc c tarr) {m : Nat} (hm : m < 7) {e : TransText}
    (he : tarr[m]? = some (some e)) :
    (t₀.withSlots c key (restored tarr m)).addPlural c (.string key) e.text m false =
      some ⟨t₀.withSlots c key (restored tarr (m + 1)), none⟩ := by
  obtain ⟨hrule, hlocate⟩ := hslots.2 m e he
  have hslotsOf : (t₀.withSlots c key (restored tarr m)).slotsOf c key =
      tarr.take m ++ List.replicate (7 - m) none := by
    rw [slotsOf, lookup_withSlots h₀, getD_restored hm.le hslots.1]
  have hlen : (tarr.take m ++ List.replicate (7 - m) none).length = 7 := by
    simp [hslots.1]; omega
  unfold Translator.addPlural
  simp only [locale_withSlots, hloc, hrule, not_true_eq_false, if_false,
    lookup_withSlots h₀, conflicts_restored hm hslots.1, hlocate, hslotsOf]
  simp only [storeSlot, setPlurals_insert_withSlots, sliceSet, Int.ofNat_nonneg, Int.toNat_ofNat,
    hlen, hm, and_self, if_true, Option.map_some', restored_succ_some hm hslots.1 he]

/-- Importing the fields of rules `m` to `6` of a key's record, into a store without the key,
rebuilds the key's array. -/
theorem addFields_restored (h₀ : (t₀.plurals c).lookup key = none) (hloc : t₀.locale = loc)
    (hslots : SlotsOk loc c tarr) :
    ∀ n m, m + n = 7 →
      (t₀.withSlots c key (restored tarr m)).addFields c key false
        ((List.range' m n).map fun (i : Nat) => written tarr 0 ((i : Int), [])) =
      some ⟨t₀.withSlots c key (restored tarr 7), none⟩
  | 0, m, h => by rw [show m = 7 by omega]; rfl
  | n + 1, m, h => by
    have hm : m < 7 := by omega
    obtain ⟨slot, hslot⟩ : ∃ slot, tarr[m]? = some slot :=
      ⟨_, List.getElem?_eq_getElem (by rw [hslots.1]; exact hm)⟩
    rw [List.range'_succ, List.map_cons]
    cases slot with
    | none =>
      have hw : written tarr 0 ((m : Int), []) = ((m : Int), []) := by
        simp [written, sliceAt, hslot, Int.ofNat_nonneg]
      rw [hw, addFields, if_pos rfl, ← restored_succ_none hm hslot]
      exact addFields_restored h₀ hloc hslots n (m + 1) (by omega)
    | some e =>
      have hw : written tarr 0 ((m : Int), []) = ((m : Int), e.text) := by
        simp [written, sliceAt, hslot, Int.ofNat_nonneg]
      have hne := Category.text_ne_nil_of_locate (hslots.2 m e hslot).2
      rw [hw, addFields, if_neg hne, addPlural_restored h₀ hloc hslots hm hslot, Option.some_bind]
      exact addFields_restored h₀ hloc hslots n (m + 1) (by omega)

end Translator

/-! ### Importing the records of one store -/

namespace UniversalTranslator

variable {u : UniversalTranslator} {loc : Locale} {p : Nat} {t₀ : Translator} {key : Bytes}

theorem findTranslator_registered {name : Bytes} (hp : u.translators.lookup (toLower name) = some p) :
    u.findTranslator [name] = (some p, true) := by
  simp [findTranslator, hp]

theorem ruleCategory?_name (c : Category) : ruleCategory? (toLower c.name) = some (some c) := by
  cases c <;> rfl

/-- The record of a plain entry adds the entry to the store its locale is registered with. -/
theorem importRecord_plain (hp : u.translators.lookup (toLower loc.name) = some p)
    (ht : u.heap[p]? = some t₀) (h₀ : t₀.translations.lookup key = none) {e : TransText}
    (he : Translator.PlainEntryOk e) :
    u.importRecord key { locale := loc.name, other := e.text } =
      some ({ u with heap := u.heap.set p ({ t₀ with translations := t₀.translations.insert key e }) },
        none) := by
  have hplain : ruleCategory? (toLower []) = some none := rfl
  have hidx : paramIndexes e.text 0 (count e.text rightBrace) = .ok e.indexes := he.1 ▸ he.2
  simp [importRecord, findTranslator_registered hp, hplain, ht, Translator.importInto,
    Translator.add, h₀, he.1, hidx]

/-- The record of a plural entry rebuilds the entry's array in the store its locale is registered
with, when the array has no slot at `PluralRuleUnknown`. -/
theorem importRecord_plural (hp : u.translators.lookup (toLower loc.name) = some p)
    (ht : u.heap[p]? = some t₀) (hloc : t₀.locale = loc) {c : Category}
    (h₀ : (t₀.plurals c).lookup key = none) {tarr : List (Option TransText)}
    (hslots : Translator.SlotsOk loc c tarr) (hunknown : tarr[0]? = some none)
    (hany : tarr.any Option.isSome) :
    u.importRecord key (exportSlots loc.name c.name {} 0 tarr) =
      some ({ u with heap := u.heap.set p (t₀.withSlots c key (some tarr)) }, none) := by
  obtain ⟨hl, hr, ho⟩ := exportSlots_header loc.name c.name {} 0 tarr
  rw [if_pos hany] at hl hr
  have hfields : (exportSlots loc.name c.name {} 0 tarr).fields =
      (List.range' 1 6).map fun (i : Nat) => written tarr 0 ((i : Int), []) := by
    rw [fields_exportSlots]; rfl
  have hstart : restored tarr 1 = none := by simp [restored, List.take_succ, hunknown]
  have hrun : t₀.addFields c key false ((List.range' 1 6).map fun (i : Nat) =>
      written tarr 0 ((i : Int), [])) = some ⟨t₀.withSlots c key (some tarr), none⟩ := by
    have := Translator.addFields_restored h₀ hloc hslots 6 1 rfl
    rwa [hstart, restored_seven hslots.1 hany] at this
  simp only [importRecord, hl, hr, findTranslator_registered hp, ruleCategory?_name, ht,
    Translator.importInto, ho, hfields]
  rw [hrun]
  rfl

end UniversalTranslator

/-! ### Keys in a plural map have rules -/

theorem plurals_lookup_storeSlot {t t' : Translator} {c d : Category} {key k : Bytes}
    {slots : List (Option TransText)} {rule : PluralRule} {slot : Option TransText}
    {tarr : List (Option TransText)} (hstore : t.storeSlot c key slots rule slot = some t')
    (hk : (t'.plurals d).lookup k = some tarr) :
    (d = c ∧ k = key) ∨ (t.plurals d).lookup k = some tarr := by
  obtain ⟨-, -, rfl⟩ := Translator.storeSlot_eq_some hstore
  rw [Translator.plurals_setPlurals] at hk
  split_ifs at hk with hd
  · by_cases hkey : k = key
    · exact .inl ⟨hd, hkey⟩
    · rw [AList.lookup_insert_ne hkey] at hk
      exact .inr (hd ▸ hk)
  · exact .inr hk

/-- A reachable store has an array for a key only in a category whose locale lists some rule:
the plural adds refuse every other rule before they touch the map. -/
theorem Reachable.plurals_ne_nil {loc : Locale} {t : Translator} (h : Reachable loc t)
    {c : Category} {key : Bytes} {tarr : List (Option TransText)}
    (hk : (t.plurals c).lookup key = some tarr) : loc.plurals c ≠ [] := by
  induction h generalizing tarr with
  | init => cases c <;> simp [newTranslator, Translator.plurals] at hk
  | @step t' _ call hreach hcall ih =>
    have hpl : ∀ {s : Step} {c' : Category} {k : Key} {text : Bytes} {rule : PluralRule}
        {o : Bool}, t'.addPlural c' k text rule o = some s →
        (s.state.plurals c).lookup key = some tarr → loc.plurals c ≠ [] := by
      intro s c' k text rule o hadd hk
      rcases Translator.addPlural_cases hadd with ⟨hsame, -⟩ | ⟨key', slot, -, hrule, hstore, -⟩
      · exact ih (hsame ▸ hk)
      · rcases plurals_lookup_storeSlot hstore hk with ⟨rfl, -⟩ | hk'
        · rw [hreach.inv.locale] at hrule
          exact List.ne_nil_of_mem hrule
        · exact ih hk'
    cases call with
    | add k text override =>
      cases hcall
      rcases Translator.add_cases _ k text override with ⟨hsame, -⟩ | ⟨_, _, -, -, -, hstate, -⟩
      · exact ih (hsame ▸ hk)
      · rw [hstate, Translator.plurals_withTranslations] at hk
        exact ih hk
    | addCardinal => exact hpl hcall hk
    | addOrdinal => exact hpl hcall hk
    | addRange => exact hpl hcall hk

/-! ### Stores that agree everywhere render alike -/

theorem Translator.renders_eq_of_agree {t₁ t₂ : Translator} (h : ∀ key, AgreeAt key t₁ t₂) :
    t₁.T = t₂.T ∧ t₁.C = t₂.C ∧ t₁.O = t₂.O ∧ t₁.R = t₂.R := by
  have hrender : ∀ c, t₁.renderOne c = t₂.renderOne c := by
    intro c
    funext k rule param
    cases k with
    | other => rfl
    | string key => simp only [Translator.renderOne, (h key).plural c]
  have hloc := (h []).locale
  refine ⟨?_, ?_, ?_, ?_⟩
  · funext k params
    cases k with
    | other => rfl
    | string key => simp only [Translator.T, (h key).plain]
  · funext k num digits param
    simp only [Translator.C, hrender, hloc]
  · funext k num digits param
    simp only [Translator.O, hrender, hloc]
  · funext k num1 digits1 num2 digits2 param1 param2
    cases k with
    | other => rfl
    | string key =>
      have hrange := (h key).plural .range
      simp only [Translator.plurals] at hrange
      simp only [Translator.R, hrange, hloc]

/-! ### The round trip -/

section RoundTrip

variable {loc : Locale} {s : Translator} {u : UniversalTranslator} {p : Nat}

/-- One record of a store's export, imported alone into a registry where the store's locale is
registered with a fresh store, returns nil and leaves the registered store agreeing with the
exported one at the record's key. -/
theorem importRecord_exported (hs : Reachable loc s) (hverify : s.verifyTranslations = some none)
    (hdisjoint : s.KeysDisjoint) (hunknown : ∀ c, (0 : PluralRule) ∉ loc.plurals c)
    (hp : u.translators.lookup (toLower loc.name) = some p)
    (hfresh : u.heap[p]? = some (newTranslator loc)) {key : Bytes} {r : Record}
    (hr : (exportLocale s).lookup key = some r) :
    ∃ t', u.importRecord key r = some ({ u with heap := u.heap.set p t' }, none) ∧
      Translator.AgreeAt key t' s := by
  have hinv := hs.inv
  have hname : s.locale.name = loc.name := by rw [hinv.locale]
  cases hplain : s.translations.lookup key with
  | some e =>
    rw [exportLocale_plain hdisjoint hplain, Option.some.injEq] at hr
    subst hr
    rw [hname]
    refine ⟨_, UniversalTranslator.importRecord_plain hp hfresh rfl (hinv.plain key e hplain),
      hinv.locale.symm, by rw [hplain]; exact AList.lookup_insert _, fun c => ?_⟩
    rw [hdisjoint.plain_none hplain c]
    cases c <;> rfl
  | none =>
    by_cases hc : ∃ c tarr, (s.plurals c).lookup key = some tarr
    · obtain ⟨c, tarr, hk⟩ := hc
      rw [exportLocale_plural hdisjoint hk, Option.some.injEq] at hr
      subst hr
      have hslots := hinv.plural c key tarr hk
      have hzero : tarr[0]? = some none := by
        obtain ⟨x, hx⟩ : ∃ x, tarr[0]? = some x :=
          ⟨_, List.getElem?_eq_getElem (by rw [hslots.1]; decide)⟩
        cases x with
        | none => exact hx
        | some e => exact absurd (hslots.2 0 e hx).1 (hunknown c)
      have hany : tarr.any Option.isSome := by
        obtain ⟨rule, hrule⟩ := List.exists_mem_of_ne_nil _ (hs.plurals_ne_nil hk)
        obtain ⟨e, he⟩ := verifyTranslations_eq_nil hverify c hk rule (by rw [hinv.locale]; exact hrule)
        exact List.any_eq_true.mpr ⟨some e, List.getElem?_mem (sliceAt_eq_getElem? he).2, rfl⟩
      rw [hname]
      refine ⟨_, UniversalTranslator.importRecord_plural hp hfresh rfl (by cases c <;> rfl) hslots
        hzero hany, by rw [Translator.locale_withSlots, hinv.locale]; rfl,
        by simp [Translator.withSlots, newTranslator, hplain],
        fun d => ?_⟩
      simp only [Translator.withSlots, Translator.plurals_setPlurals]
      split_ifs with hd
      · subst hd
        rw [AList.lookup_insert, hk]
      · rw [(hdisjoint.plural_none hk).2 d hd]
        cases d <;> rfl
    · have hnone : ∀ c, (s.plurals c).lookup key = none := fun c => by
        cases h : (s.plurals c).lookup key with
        | none => rfl
        | some tarr => exact absurd ⟨c, tarr, h⟩ hc
      rw [exportLocale_none hplain hnone] at hr
      cases hr

/-- A key without a record has no entry in the exported store. -/
theorem agreeAt_newTranslator_of_not_exported (hs : Reachable loc s) (hdisjoint : s.KeysDisjoint)
    {key : Bytes} (hnone : (exportLocale s).lookup key = none) :
    Translator.AgreeAt key (newTranslator loc) s := by
  refine ⟨hs.inv.locale.symm, ?_, fun c => ?_⟩
  · cases h : s.translations.lookup key with
    | none => rfl
    | some e => rw [exportLocale_plain hdisjoint h] at hnone; cases hnone
  · cases h : (s.plurals c).lookup key with
    | none => cases c <;> rfl
    | some tarr => rw [exportLocale_plural hdisjoint h] at hnone; cases hnone

/-- Export, then import: the records `Export` builds for a verified store of a locale that does
not list `PluralRuleUnknown`, with no key in two of its maps, imported in any order into a
registry where the locale is registered with a fresh store, import without error and leave that
store with the same entries as the exported one, so that it renders alike. -/
theorem export_import_round_trip (hs : Reachable loc s) (hverify : s.verifyTranslations = some none)
    (hdisjoint : s.KeysDisjoint) (hunknown : ∀ c, (0 : PluralRule) ∉ loc.plurals c)
    (hp : u.translators.lookup (toLower loc.name) = some p)
    (hfresh : u.heap[p]? = some (newTranslator loc))
    {l : List (Σ _ : Bytes, Record)} (hl : l.Perm (exportLocale s).entries) :
    ∃ u' t', u.importRecords l = some (u', none) ∧ u'.heap[p]? = some t' ∧
      (∀ key, Translator.AgreeAt key t' s) ∧ t'.T = s.T ∧ t'.C = s.C ∧ t'.O = s.O ∧ t'.R = s.R := by
  have hsolo : ∀ x ∈ l, ∃ t', u.importRecord x.1 x.2 =
      some ({ u with heap := u.heap.set p t' }, none) ∧ Translator.AgreeAt x.1 t' s := fun x hx =>
    importRecord_exported hs hverify hdisjoint hunknown hp hfresh
      (AList.mem_lookup_iff.mpr (hl.subset hx))
  obtain ⟨u', hrun, hout, hin⟩ := UniversalTranslator.importRecords_of_ok
    ((List.perm_nodupKeys hl).mpr (exportLocale s).nodupKeys)
    fun x hx => let ⟨_, h, _⟩ := hsolo x hx; ⟨_, h⟩
  have hlt : p < u.heap.length := (List.getElem?_eq_some_iff.mp hfresh).1
  have hkey : ∀ key, ∃ w tw, UniversalTranslator.AgreeAt key w u' ∧ w.heap[p]? = some tw ∧
      Translator.AgreeAt key tw s := by
    intro key
    by_cases hk : key ∈ l.keys
    · obtain ⟨r, hr⟩ := List.mem_keys.mp hk
      obtain ⟨t', h', hagree⟩ := hsolo ⟨key, r⟩ hr
      exact ⟨_, t', hin ⟨key, r⟩ hr _ h', List.getElem?_set_self hlt, hagree⟩
    · have hnone : (exportLocale s).lookup key = none :=
        AList.lookup_eq_none.mpr fun h => hk ((hl.map Sigma.fst).mem_iff.mpr h)
      exact ⟨u, _, hout key hk, hfresh, agreeAt_newTranslator_of_not_exported hs hdisjoint hnone⟩
  obtain ⟨w, tw, hw, hwp, -⟩ := hkey []
  obtain ⟨t', ht'⟩ := UniversalTranslator.getElem?_isSome_of_length_eq hw.length hwp
  have hagree : ∀ key, Translator.AgreeAt key t' s := fun key => by
    obtain ⟨w, tw, hw, hwp, htw⟩ := hkey key
    exact (hw.stores p tw t' hwp ht').symm.trans htw
  exact ⟨u', t', hrun, ht', hagree, Translator.renders_eq_of_agree hagree⟩

end RoundTrip

theorem export_import_round_trip_en :
    ∃ s u, s = enStore ∧ (exportLocale s).keys.length = 4 ∧
      newUniversalTranslator (some en) [en] = some u ∧ Reachable en s ∧
      s.verifyTranslations = some none ∧ s.KeysDisjoint ∧
      (∀ c, (0 : PluralRule) ∉ en.plurals c) ∧ u.translators.lookup (toLower en.name) = some 0 ∧
      u.heap[0]? = some (newTranslator en) ∧
      ∃ u' t', u.importRecords (exportLocale s).entries.reverse = some (u', none) ∧
        u'.heap[0]? = some t' ∧
        (∀ key, Translator.AgreeAt key t' s) ∧ t'.T = s.T ∧ t'.C = s.C ∧ t'.O = s.O ∧ t'.R = s.R := by
  have hd : enStore.KeysDisjoint := Translator.keysDisjoint_of_nodup (by decide)
  have hz : ∀ c, (0 : PluralRule) ∉ en.plurals c := fun c => by cases c <;> decide
  have hu : newUniversalTranslator (some en) [en] =
      some ⟨[newTranslator en], (∅ : GoMap Nat).insert (lit "en") 0, some 0⟩ := rfl
  exact ⟨_, _, rfl, rfl, hu, reachable_enStore, rfl, hd, hz, rfl, rfl, export_import_round_trip
    (u := ⟨[newTranslator en], (∅ : GoMap Nat).insert (lit "en") 0, some 0⟩) reachable_enStore rfl
    hd hz rfl rfl (List.reverse_perm _)⟩

/-- For a locale that lists `PluralRuleUnknown`, a verified store loses its slot at that rule on
the way out: `exportPlurals` has no field for the name `unknown`, the import returns nil, and the
key is missing from the imported store. -/
theorem export_import_loses_unknown_rule :
    ∃ s u u', Reachable { en with pluralsCardinal := [0] } s ∧ s.verifyTranslations = some none ∧
      s.KeysDisjoint ∧ (s.cardinalTanslations.lookup (lit "days")).isSome ∧
      newUniversalTranslator (some { en with pluralsCardinal := [0] })
        [{ en with pluralsCardinal := [0] }] = some u ∧
      u.translators.lookup (toLower (lit "en")) = some 0 ∧
      u.heap[0]? = some (newTranslator { en with pluralsCardinal := [0] }) ∧
      u.importRecords (exportLocale s).entries = some (u', none) ∧
      (u'.heap[0]?.map fun t => t.cardinalTanslations.lookup (lit "days")) = some none := by
  refine ⟨_, _, _, .step (.addCardinal (.string (lit "days")) (lit "\x7b0\x7d days") 0 false) .init
    rfl, rfl, fun key c hc => ?_, rfl, rfl, rfl, rfl, rfl, rfl⟩
  cases c with
  | cardinal =>
    exact ⟨AList.not_mem_empty key, fun d hd => by
      cases d with
      | cardinal => exact absurd rfl hd
      | ordinal => exact AList.not_mem_empty key
      | range => exact AList.not_mem_empty key⟩
  | ordinal => exact absurd hc (AList.not_mem_empty key)
  | range => exact absurd hc (AList.not_mem_empty key)

end Toolbox.I18n
