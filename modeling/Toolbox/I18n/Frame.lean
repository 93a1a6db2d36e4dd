import Toolbox.I18n.Store

/-
Each call of the Add family on a key reads and writes only that key's entries.  The frame
lemmas say every other key keeps its entries; the locality lemmas say that two stores which
agree at the key get the same error and agree at the key again.
-/

namespace Toolbox.I18n

theorem optionRel_map {α β γ δ : Type} {r : α → β → Prop} {s : γ → δ → Prop} {f : α → γ}
    {g : β → δ} {a : Option α} {b : Option β} (h : Option.Rel r a b)
    (hfg : ∀ x y, r x y → s (f x) (g y)) : Option.Rel s (a.map f) (b.map g) := by
  cases h with
  | some hr => exact .some (hfg _ _ hr)
  | none => exact .none

theorem optionRel_bind {α β γ δ : Type} {r : α → β → Prop} {s : γ → δ → Prop}
    {f : α → Option γ} {g : β → Option δ} {a : Option α} {b : Option β} (h : Option.Rel r a b)
    (hfg : ∀ x y, r x y → Option.Rel s (f x) (g y)) : Option.Rel s (a.bind f) (b.bind g) := by
  cases h with
  | some hr => exact hfg _ _ hr
  | none => exact .none

theorem optionRel_some_left {α β : Type} {r : α → β → Prop} {a : α} {b : Option β}
    (h : Option.Rel r (some a) b) : ∃ b', b = some b' ∧ r a b' := by
  cases h with
  | some hr => exact ⟨_, rfl, hr⟩

namespace Translator

/-- Two stores with the same locale and the same entries at a key. -/
structure AgreeAt (key : Bytes) (t₁ t₂ : Translator) : Prop where
  locale : t₁.locale = t₂.locale
  plain : t₁.translations.lookup key = t₂.translations.lookup key
  plural : ∀ c, (t₁.plurals c).lookup key = (t₂.plurals c).lookup key

/-- Two outcomes with the same error whose stores agree at a key. -/
def StepAgree (key : Bytes) (s₁ s₂ : Step) : Prop :=
  s₁.error = s₂.error ∧ AgreeAt key s₁.state s₂.state

variable {key k' : Bytes} {t t' t₁ t₂ t₃ : Translator} {c : Category}

theorem AgreeAt.refl (key : Bytes) (t : Translator) : AgreeAt key t t :=
  ⟨rfl, rfl, fun _ => rfl⟩

theorem AgreeAt.symm (h : AgreeAt key t₁ t₂) : AgreeAt key t₂ t₁ :=
  ⟨h.locale.symm, h.plain.symm, fun c => (h.plural c).symm⟩

theorem AgreeAt.trans (h₁ : AgreeAt key t₁ t₂) (h₂ : AgreeAt key t₂ t₃) : AgreeAt key t₁ t₃ :=
  ⟨h₁.locale.trans h₂.locale, h₁.plain.trans h₂.plain, fun c => (h₁.plural c).trans (h₂.plural c)⟩

@[simp] theorem plurals_withTranslations (t : Translator) (m : GoMap TransText) (c : Category) :
    ({ t with translations := m } : Translator).plurals c = t.plurals c := by
  cases c <;> rfl

/-! ### The two writes -/

theorem agreeAt_insertPlain (hne : k' ≠ key) (t : Translator) (e : TransText) :
    AgreeAt k' t { t with translations := t.translations.insert key e } :=
  ⟨rfl, (AList.lookup_insert_ne hne).symm, fun _ => by simp⟩

theorem AgreeAt.insertPlain (h : AgreeAt key t₁ t₂) (e : TransText) :
    AgreeAt key { t₁ with translations := t₁.translations.insert key e }
      { t₂ with translations := t₂.translations.insert key e } :=
  ⟨h.locale, by simp, fun c => by simpa using h.plural c⟩

theorem agreeAt_setPlurals_insert (hne : k' ≠ key) (t : Translator) (c : Category)
    (tarr : List (Option TransText)) :
    AgreeAt k' t (t.setPlurals c ((t.plurals c).insert key tarr)) := by
  refine ⟨by simp, by simp, fun d => ?_⟩
  rw [plurals_setPlurals]
  split_ifs with hd
  · subst hd; exact (AList.lookup_insert_ne hne).symm
  · rfl

theorem AgreeAt.setPlurals_insert (h : AgreeAt key t₁ t₂) (c : Category)
    (tarr : List (Option TransText)) :
    AgreeAt key (t₁.setPlurals c ((t₁.plurals c).insert key tarr))
      (t₂.setPlurals c ((t₂.plurals c).insert key tarr)) := by
  refine ⟨by simpa using h.locale, by simpa using h.plain, fun d => ?_⟩
  simp only [plurals_setPlurals]
  split_ifs
  · simp
  · exact h.plural d

theorem storeSlot_frame {tarr : List (Option TransText)} {rule : PluralRule}
    {slot : Option TransText} (h : t.storeSlot c key tarr rule slot = some t') (hne : k' ≠ key) :
    AgreeAt k' t t' := by
  obtain ⟨-, -, rfl⟩ := storeSlot_eq_some h
  exact agreeAt_setPlurals_insert hne t c _

theorem AgreeAt.storeSlot (h : AgreeAt key t₁ t₂) (tarr : List (Option TransText))
    (rule : PluralRule) (slot : Option TransText) :
    Option.Rel (AgreeAt key) (t₁.storeSlot c key tarr rule slot)
      (t₂.storeSlot c key tarr rule slot) := by
  unfold Translator.storeSlot
  cases sliceSet tarr rule slot with
  | none => exact .none
  | some tarr' => exact .some (h.setPlurals_insert c tarr')

/-! ### `Add` -/

theorem add_frame (hne : k' ≠ key) (t : Translator) (text : Bytes) (override : Bool) :
    AgreeAt k' t (t.add (.string key) text override).state := by
  rcases add_cases t (.string key) text override with ⟨hsame, -⟩ | ⟨key', idxs, hk, -, -, hstate, -⟩
  · rw [hsame]; exact .refl k' t
  · cases hk
    rw [hstate]
    exact agreeAt_insertPlain hne t _

theorem AgreeAt.add (h : AgreeAt key t₁ t₂) (text : Bytes) (override : Bool) :
    StepAgree key (t₁.add (.string key) text override) (t₂.add (.string key) text override) := by
  simp only [Translator.add, h.plain]
  split_ifs
  · exact ⟨by simp [h.locale], h⟩
  · exact ⟨by simp [h.locale], h⟩
  · split
    · exact ⟨by simp [h.locale], h⟩
    · exact ⟨rfl, h.insertPlain _⟩

/-! ### The plural adds -/

theorem addPlural_frame {text : Bytes} {rule : PluralRule} {override : Bool} {s : Step}
    (h : t.addPlural c (.string key) text rule override = some s) (hne : k' ≠ key) :
    AgreeAt k' t s.state := by
  rcases addPlural_cases h with ⟨hsame, -⟩ | ⟨key', slot, hk, -, hstore, -⟩
  · rw [hsame]; exact .refl k' t
  · cases hk
    exact storeSlot_frame hstore hne

theorem AgreeAt.addPlural (h : AgreeAt key t₁ t₂) (c : Category) (text : Bytes)
    (rule : PluralRule) (override : Bool) :
    Option.Rel (StepAgree key) (t₁.addPlural c (.string key) text rule override)
      (t₂.addPlural c (.string key) text rule override) := by
  have hslots : t₁.slotsOf c key = t₂.slotsOf c key := by
    simp only [Translator.slotsOf, h.plural c]
  dsimp only [Translator.addPlural]
  rw [h.locale, h.plural c, hslots]
  split_ifs
  · split
    · exact .none
    · exact .some ⟨rfl, h⟩
    · split
      · exact optionRel_map (h.storeSlot _ rule none) fun _ _ hagree => ⟨rfl, hagree⟩
      · exact optionRel_map (h.storeSlot _ rule _) fun _ _ hagree => ⟨rfl, hagree⟩
  · exact .some ⟨rfl, h⟩

end Translator

end Toolbox.I18n
