import Toolbox.I18n.Offsets

/-
Runs of the Add family on one store.  Each add is inverted once into what it can do to the
store; the representation invariant of the store is derived from that and holds of every
store reachable from `newTranslator`.
-/

namespace Toolbox.I18n

/-- `math.Mod(n, m) == r` for a non-negative `n`, a modulus `m > 0` and `r < m`.  `math.Mod` is
exact, so this holds exactly when `n` is a whole number that leaves `r`; a finite `n` is
`mant * 2 ^ exp` for the 53-bit `mant` of its `frexp`, and an infinite one gives NaN. -/
def floatModEq (n : Float) (m r : Nat) : Bool :=
  n.isFinite &&
    let (frac, e) := n.frExp
    let mant := (frac.scaleB 53).toUInt64.toNat
    let exp := e - 53
    if 0 ≤ exp then mant * 2 ^ exp.toNat % m == r
    else mant % 2 ^ (-exp).toNat == 0 && mant / 2 ^ (-exp).toNat % m == r

/-- The locale `en` of `locales/en` that the repository's tests register: its valid rules
(`One`, `Other` cardinal; `One`, `Two`, `Few`, `Other` ordinal; `Other` range), its cardinal
rule on `int64(n)` and its ordinal rule on `math.Mod(n, 10)` and `math.Mod(n, 100)`, which a
number with a fraction never matches. -/
def en : Locale where
  name := lit "en"
  pluralsCardinal := [2, 6]
  pluralsOrdinal := [2, 3, 4, 6]
  pluralsRange := [6]
  cardinalPluralRule := fun num digits => if num.abs.toUInt64 == 1 && digits == 0 then 2 else 6
  ordinalPluralRule := fun num _ =>
    let n := num.abs
    if floatModEq n 10 1 && !floatModEq n 100 11 then 2
    else if floatModEq n 10 2 && !floatModEq n 100 12 then 3
    else if floatModEq n 10 3 && !floatModEq n 100 13 then 4
    else 6
  rangePluralRule := fun _ _ _ _ => 6

/-- A call of the Add family. -/
inductive Call where
  | add (k : Key) (text : Bytes) (override : Bool)
  | addCardinal (k : Key) (text : Bytes) (rule : PluralRule) (override : Bool)
  | addOrdinal (k : Key) (text : Bytes) (rule : PluralRule) (override : Bool)
  | addRange (k : Key) (text : Bytes) (rule : PluralRule) (override : Bool)

/-- The outcome of a call; `none` is a panic. -/
def Translator.call (t : Translator) : Call → Option Step
  | .add k text override => some (t.add k text override)
  | .addCardinal k text rule override => t.addCardinal k text rule override
  | .addOrdinal k text rule override => t.addOrdinal k text rule override
  | .addRange k text rule override => t.addRange k text rule override

/-- The stores reachable from an empty store by calls that return, with or without an error. -/
inductive Reachable (loc : Locale) : Translator → Prop
  | init : Reachable loc (newTranslator loc)
  | step {t : Translator} {s : Step} (call : Call) :
      Reachable loc t → t.call call = some s → Reachable loc s.state

/-- Calls made one after another, each on the store the one before left; `none` once one panics. -/
def runCalls : Translator → List Call → Option Translator
  | t, [] => some t
  | t, call :: calls => (t.call call).bind fun s => runCalls s.state calls

theorem Reachable.runCalls {loc : Locale} {t t' : Translator} (h : Reachable loc t) :
    ∀ {calls : List Call}, I18n.runCalls t calls = some t' → Reachable loc t'
  | [], hrun => Option.some.inj hrun ▸ h
  | call :: _, hrun => by
    obtain ⟨s, hs, hrest⟩ := Option.bind_eq_some.mp hrun
    exact (h.step call hs).runCalls hrest

/-- The calls of an application's `en` store: a plain greeting with two placeholders, the two
cardinal slots of `days`, the four ordinal slots of `place`, and the range slot of `span`. -/
def enCalls : List Call :=
  [.add (.string (lit "greeting")) (lit "Hello \x7b0\x7d, you have \x7b1\x7d messages") false,
   .addCardinal (.string (lit "days")) (lit "\x7b0\x7d day") 2 false,
   .addCardinal (.string (lit "days")) (lit "\x7b0\x7d days") 6 false,
   .addOrdinal (.string (lit "place")) (lit "\x7b0\x7dst") 2 false,
   .addOrdinal (.string (lit "place")) (lit "\x7b0\x7dnd") 3 false,
   .addOrdinal (.string (lit "place")) (lit "\x7b0\x7drd") 4 false,
   .addOrdinal (.string (lit "place")) (lit "\x7b0\x7dth") 6 false,
   .addRange (.string (lit "span")) (lit "\x7b0\x7d-\x7b1\x7d") 6 false]

/-- The store those calls leave, none of them failing. -/
def enStore : Translator := (runCalls (newTranslator en) enCalls).getD (newTranslator en)

theorem runCalls_enCalls : runCalls (newTranslator en) enCalls = some enStore := rfl

theorem reachable_enStore : Reachable en enStore := Reachable.init.runCalls runCalls_enCalls

namespace Translator

variable {t t' : Translator} {c : Category} {key text : Bytes} {k : Key} {rule : PluralRule}
  {override : Bool} {s : Step}

/-! ### What each add can do -/

theorem storeSlot_eq_some {tarr : List (Option TransText)} {slot : Option TransText}
    (h : t.storeSlot c key tarr rule slot = some t') :
    0 ≤ rule ∧ rule.toNat < tarr.length ∧
      t' = t.setPlurals c ((t.plurals c).insert key (tarr.set rule.toNat slot)) := by
  obtain ⟨tarr', hset, rfl⟩ := Option.map_eq_some'.mp h
  obtain ⟨hlo, hhi, rfl⟩ := sliceSet_eq_some hset
  exact ⟨hlo, hhi, rfl⟩

/-- `Add` either fails and leaves the store as it was, or stores the text with the offsets its
loop computed, the braces of the text being balanced. -/
theorem add_cases (t : Translator) (k : Key) (text : Bytes) (override : Bool) :
    ((t.add k text override).state = t ∧ (t.add k text override).error.isSome) ∨
    ∃ key idxs, k = .string key ∧
      Strings.count text leftBrace = Strings.count text rightBrace ∧
      paramIndexes text 0 (Strings.count text leftBrace) = .ok idxs ∧
      (t.add k text override).state =
        { t with translations := t.translations.insert key ⟨text, idxs⟩ } ∧
      (t.add k text override).error = none := by
  unfold add
  cases k with
  | other => exact .inl ⟨rfl, rfl⟩
  | string key =>
    simp only
    split_ifs with hconflict hbrace
    · exact .inl ⟨rfl, rfl⟩
    · exact .inl ⟨rfl, rfl⟩
    · split
      · exact .inl ⟨rfl, rfl⟩
      · exact .inr ⟨key, _, rfl, not_not.mp hbrace, ‹_›, rfl, rfl⟩

/-- A plural add that returns either fails and leaves the store as it was, or writes one slot of
the key's array at a rule the locale lists: nil when a placeholder is missing (with an error),
or the text with its offsets (without one). -/
theorem addPlural_cases (h : t.addPlural c k text rule override = some s) :
    (s.state = t ∧ s.error.isSome) ∨
    ∃ key slot, k = .string key ∧ rule ∈ t.locale.plurals c ∧
      t.storeSlot c key (t.slotsOf c key) rule slot = some s.state ∧
      ((slot = none ∧ s.error.isSome) ∨
        ∃ idxs, c.locate text = .ok idxs ∧ slot = some ⟨text, idxs⟩ ∧ s.error = none) := by
  unfold addPlural at h
  cases k with
  | other => cases h; exact .inl ⟨rfl, rfl⟩
  | string key =>
    simp only at h
    split_ifs at h with hrule
    · split at h
      · cases h
      · cases h; exact .inl ⟨rfl, rfl⟩
      · split at h
        · obtain ⟨t', ht', rfl⟩ := Option.map_eq_some'.mp h
          exact .inr ⟨key, none, rfl, hrule, ht', .inl ⟨rfl, rfl⟩⟩
        · obtain ⟨t', ht', rfl⟩ := Option.map_eq_some'.mp h
          exact .inr ⟨key, _, rfl, hrule, ht', .inr ⟨_, ‹_›, rfl, rfl⟩⟩
    · cases h; exact .inl ⟨rfl, rfl⟩

/-! ### The representation invariant -/

/-- A plain entry as `Add` stores it: balanced braces and the offsets of its loop. -/
def PlainEntryOk (e : TransText) : Prop :=
  Strings.count e.text leftBrace = Strings.count e.text rightBrace ∧
    paramIndexes e.text 0 (Strings.count e.text leftBrace) = .ok e.indexes

/-- A plural array as the plural adds leave it: seven slots, each non-nil one at a rule the
locale lists and holding the offsets its category's search computes. -/
def SlotsOk (loc : Locale) (c : Category) (tarr : List (Option TransText)) : Prop :=
  tarr.length = 7 ∧ ∀ (i : Nat) (e : TransText), tarr[i]? = some (some e) →
    (i : Int) ∈ loc.plurals c ∧ c.locate e.text = .ok e.indexes

/-- The representation invariant of a store of locale `loc`. -/
structure Inv (loc : Locale) (t : Translator) : Prop where
  locale : t.locale = loc
  plain : ∀ key e, t.translations.lookup key = some e → PlainEntryOk e
  plural : ∀ c key tarr, (t.plurals c).lookup key = some tarr → SlotsOk loc c tarr

theorem slotsOk_emptySlots (loc : Locale) (c : Category) : SlotsOk loc c emptySlots := by
  refine ⟨rfl, fun i e he => ?_⟩
  cases List.eq_of_mem_replicate (List.getElem?_mem he)

theorem SlotsOk.set {loc : Locale} {tarr : List (Option TransText)} {i : Nat}
    {slot : Option TransText} (h : SlotsOk loc c tarr) (hi : (i : Int) ∈ loc.plurals c)
    (hslot : ∀ e, slot = some e → c.locate e.text = .ok e.indexes) :
    SlotsOk loc c (tarr.set i slot) := by
  refine ⟨by rw [List.length_set, h.1], fun j e he => ?_⟩
  rw [List.getElem?_set] at he
  split_ifs at he with hij
  · subst hij
    exact ⟨hi, hslot e (Option.some.inj he)⟩
  · exact h.2 j e he

theorem Inv.slotsOf {loc : Locale} (h : Inv loc t) (c : Category) (key : Bytes) :
    SlotsOk loc c (t.slotsOf c key) := by
  unfold Translator.slotsOf
  cases hk : (t.plurals c).lookup key with
  | none => exact slotsOk_emptySlots loc c
  | some tarr => exact h.plural c key tarr hk

theorem Inv.storeSlot {loc : Locale} {slot : Option TransText} (h : Inv loc t)
    (hrule : rule ∈ loc.plurals c) (hslot : ∀ e, slot = some e → c.locate e.text = .ok e.indexes)
    (hstore : t.storeSlot c key (t.slotsOf c key) rule slot = some t') : Inv loc t' := by
  obtain ⟨hlo, -, rfl⟩ := storeSlot_eq_some hstore
  refine ⟨by simp [h.locale], by simpa using h.plain, fun d key' tarr hk => ?_⟩
  rw [plurals_setPlurals] at hk
  split_ifs at hk with hd
  · subst hd
    by_cases hkey : key' = key
    · subst hkey
      rw [AList.lookup_insert, Option.some.injEq] at hk
      subst hk
      exact (h.slotsOf d key').set (by rwa [Int.toNat_of_nonneg hlo]) hslot
    · rw [AList.lookup_insert_ne hkey] at hk
      exact h.plural d key' tarr hk
  · exact h.plural d key' tarr hk

theorem Inv.add {loc : Locale} (h : Inv loc t) (k : Key) (text : Bytes) (override : Bool) :
    Inv loc (t.add k text override).state := by
  rcases add_cases t k text override with ⟨hsame, -⟩ | ⟨key, idxs, -, hbal, hidx, hstate, -⟩
  · rw [hsame]; exact h
  · rw [hstate]
    refine ⟨h.locale, fun key' e he => ?_, h.plural⟩
    by_cases hkey : key' = key
    · subst hkey
      rw [AList.lookup_insert, Option.some.injEq] at he
      subst he
      exact ⟨hbal, hidx⟩
    · exact h.plain key' e (by rwa [AList.lookup_insert_ne hkey] at he)

theorem Inv.addPlural {loc : Locale} (h : Inv loc t)
    (hadd : t.addPlural c k text rule override = some s) : Inv loc s.state := by
  rcases addPlural_cases hadd with ⟨hsame, -⟩ | ⟨key, slot, -, hrule, hstore, hslot⟩
  · rw [hsame]; exact h
  · refine h.storeSlot (h.locale ▸ hrule) (fun e he => ?_) hstore
    rcases hslot with ⟨rfl, -⟩ | ⟨idxs, hloc, rfl, -⟩
    · cases he
    · cases he; exact hloc

theorem Inv.call {loc : Locale} (h : Inv loc t) {call : Call} (hcall : t.call call = some s) :
    Inv loc s.state := by
  cases call with
  | add k text override => cases hcall; exact h.add k text override
  | addCardinal => exact h.addPlural hcall
  | addOrdinal => exact h.addPlural hcall
  | addRange => exact h.addPlural hcall

end Translator

theorem Reachable.inv {loc : Locale} {t : Translator} (h : Reachable loc t) :
    t.Inv loc := by
  induction h with
  | init =>
      refine ⟨rfl, fun key e he => ?_, fun c key tarr hk => ?_⟩
      · simp [newTranslator] at he
      · cases c <;> simp [newTranslator, Translator.plurals] at hk
  | step call _ hcall ih => exact ih.call hcall

/-! ### The invariant in the words of `translator.go` -/

/-- The layout `translator.go` relies on: seven slots per plural key, non-nil only at rules the
locale lists, cardinal and ordinal offsets spanning `{0}`, range offsets spanning `{0}` and
`{1}`, and `2N` plain offsets, pair `i` spanning `{i}`, for a text with `N` left braces. -/
structure Representation (loc : Locale) (t : Translator) : Prop where
  slots : ∀ c key tarr, (t.plurals c).lookup key = some tarr →
    tarr.length = 7 ∧ ∀ (r : Nat) (e : TransText), tarr[r]? = some (some e) →
      (r : Int) ∈ loc.plurals c
  zeroSpan : ∀ c key tarr (r : Nat) (e : TransText), c ≠ .range →
    (t.plurals c).lookup key = some tarr → tarr[r]? = some (some e) →
    ∃ a : Int, 0 ≤ a ∧ e.indexes = [a, a + 3] ∧ a + 3 ≤ e.text.length ∧
      Strings.slice e.text a (a + 3) = some paramZero
  rangeSpans : ∀ key tarr (r : Nat) (e : TransText), t.rangeTanslations.lookup key = some tarr →
    tarr[r]? = some (some e) →
    ∃ a b : Int, 0 ≤ a ∧ 0 ≤ b ∧ e.indexes = [a, a + 3, b, b + 3] ∧
      Strings.slice e.text a (a + 3) = some paramZero ∧
      Strings.slice e.text b (b + 3) = some paramOne
  plainSpans : ∀ key e, t.translations.lookup key = some e →
    e.indexes.length = 2 * Strings.count e.text leftBrace ∧
    ∀ i < Strings.count e.text leftBrace, ∃ a b : Int, e.indexes[2 * i]? = some a ∧
      e.indexes[2 * i + 1]? = some b ∧ Strings.slice e.text a b = some (param i)

theorem Translator.Inv.representation {loc : Locale} {t : Translator} (h : t.Inv loc) :
    Representation loc t where
  slots c key tarr hk :=
    ⟨(h.plural c key tarr hk).1, fun r e he => ((h.plural c key tarr hk).2 r e he).1⟩
  zeroSpan c key tarr r e hc hk he := by
    have hloc := ((h.plural c key tarr hk).2 r e he).2
    cases c with
    | cardinal => exact locateZero_slice hloc
    | ordinal => exact locateZero_slice hloc
    | range => exact absurd rfl hc
  rangeSpans key tarr r e hk he := locateRange_slice ((h.plural .range key tarr hk).2 r e he).2
  plainSpans key e he := paramIndexes_slice (h.plain key e he).2

/-- Every store reachable by the Add family, failing calls included, has the layout
`translator.go` relies on, whatever rules its locale lists. -/
theorem reachable_representation {loc : Locale} {t : Translator} (h : Reachable loc t) :
    Representation loc t :=
  h.inv.representation

theorem reachable_representation_en :
    Reachable en enStore ∧ Representation en enStore :=
  ⟨reachable_enStore, reachable_representation reachable_enStore⟩

/-! ### Braces -/

/-- Plain entries of a reachable store are brace-balanced, and `Add` refuses an unbalanced
text, leaving the store as it was. -/
theorem reachable_plain_entries_balanced :
    (∀ (loc : Locale) (t : Translator), Reachable loc t → ∀ key e,
      t.translations.lookup key = some e →
      Strings.count e.text leftBrace = Strings.count e.text rightBrace) ∧
    (∀ (t : Translator) (k : Key) (text : Bytes) (override : Bool),
      Strings.count text leftBrace ≠ Strings.count text rightBrace →
      (t.add k text override).state = t ∧ (t.add k text override).error.isSome) := by
  refine ⟨fun loc t h key e he => (h.inv.plain key e he).1, fun t k text override hbrace => ?_⟩
  rcases Translator.add_cases t k text override with hfail | ⟨-, -, -, hbal, -⟩
  · exact hfail
  · exact absurd hbal hbrace

theorem reachable_plain_entries_balanced_en :
    Reachable en enStore ∧
      ∀ key e, enStore.translations.lookup key = some e →
        Strings.count e.text leftBrace = Strings.count e.text rightBrace :=
  ⟨reachable_enStore, reachable_plain_entries_balanced.1 en _ reachable_enStore⟩

/-- `AddCardinal` does not count braces: a reachable store holds the unbalanced `{0}}`. -/
theorem reachable_cardinal_slot_unbalanced :
    ∃ t, Reachable en t ∧ ∃ tarr e, t.cardinalTanslations.lookup (lit "k") = some tarr ∧
      tarr[6]? = some (some e) ∧
      Strings.count e.text leftBrace ≠ Strings.count e.text rightBrace :=
  ⟨_, .step (.addCardinal (.string (lit "k")) (lit "\x7b0\x7d\x7d") 6 false) .init rfl,
    _, _, rfl, rfl, by decide⟩

/-! ### Failing plural adds -/

/-- A failing `AddCardinal` changes the store: on a key without an array it leaves a fresh all-nil
array, which `VerifyTranslations` then reports, and as an override it clears the slot that held
a valid translation. -/
theorem addCardinal_failure_changes_store :
    (∃ s, (newTranslator en).addCardinal (.string (lit "days")) (lit "days left") 6 false = some s ∧
      s.error.isSome ∧ (newTranslator en).cardinalTanslations.lookup (lit "days") = none ∧
      s.state.cardinalTanslations.lookup (lit "days") = some emptySlots ∧
      s.state.verifyTranslations =
        some (some (.missingPluralTranslation (lit "en") (lit "days") 2 (lit "plural")))) ∧
    (∃ s₁ s₂, (newTranslator en).addCardinal (.string (lit "days"))
        (lit "\x7b0\x7d days left") 6 false = some s₁ ∧
      s₁.state.addCardinal (.string (lit "days")) (lit "days left") 6 true = some s₂ ∧
      s₂.error.isSome ∧
      s₁.state.cardinalTanslations.lookup (lit "days") =
        some (emptySlots.set 6 (some ⟨lit "\x7b0\x7d days left", [0, 3]⟩)) ∧
      s₂.state.cardinalTanslations.lookup (lit "days") = some emptySlots) :=
  ⟨⟨_, rfl, rfl, rfl, rfl, rfl⟩, ⟨_, _, rfl, rfl, rfl, rfl, rfl⟩⟩

end Toolbox.I18n
