import Toolbox.Go.Utf8
import Toolbox.K8s.Waiter

/-
The configuration of a Kubernetes wait: `UnmarshalYAML` of a `WaitCondition`, which accepts a
condition only when its lower-cased text is one of nine, and `NewConditionalWaiter`, which splits
the condition as written at its first `=` into the condition's name and the value it must have.
Every condition accepted gives a waiter whose name and value are, up to `strings.ToLower`, among
those the check was meant for, whatever the Unicode tables lower to a letter, as long as they
lower no rune but `=` to `=`.
-/

namespace Toolbox.K8s

open Strings

/-- `WaitCondition`: the condition, the resource as YAML decoded it, the selectors, the timeout in
seconds, and the resource encoded again. -/
structure WaitCondition where
  condition : Bytes
  rawResource : Unstructured
  selectors : List Bytes
  timeout : UInt64
  resourceDefinition : Bytes

/-- `ErrWaitConditionInvalid`, by the text of the error it wraps. -/
structure ErrWaitConditionInvalid where
  err : Bytes
deriving DecidableEq, Repr

/-- The keys of `validConditions`: the conditions of deployments, pods and jobs, bare or with a
value. -/
def validConditions : List Bytes :=
  [lit "available", lit "available=true", lit "available=false",
   lit "ready", lit "ready=true", lit "ready=false",
   lit "complete", lit "complete=true", lit "complete=false"]

/-- `(*WaitCondition).UnmarshalYAML`, given the lower-casing of the Unicode tables, what
`unmarshal` decoded, or its error's text, and `yaml.Marshal` of the raw resource. -/
def unmarshalYAML (lowerCase : Nat → Nat) (yamlMarshal : Unstructured → Except Bytes Bytes)
    (decoded : Except Bytes WaitCondition) : Except ErrWaitConditionInvalid WaitCondition :=
  match decoded with
  | .error e => .error ⟨lit "failed to parse configuration: " ++ e⟩
  | .ok condition =>
    match yamlMarshal condition.rawResource with
    | .error e => .error ⟨lit "failed to encode resource data: " ++ e⟩
    | .ok res =>
      if condition.condition = [] then .error ⟨lit "condition cannot be empty"⟩
      else if toLowerWith lowerCase condition.condition ∉ validConditions then
        .error ⟨lit "'" ++ condition.condition ++ lit "' is an unsupported condition"⟩
      else .ok { condition with resourceDefinition := res }

/-- `NewConditionalWaiter`: the condition is the name, with the value `true`, unless it holds an
`=`, where the name is what stands before the first one and the value what follows it. -/
def newConditionalWaiter (waitCondition : WaitCondition) : Option ConditionalWaiter :=
  let equalsIndex := index waitCondition.condition (lit "=")
  if equalsIndex ≠ -1 then
    (slice waitCondition.condition 0 equalsIndex).bind fun name =>
      (slice waitCondition.condition (equalsIndex + 1) waitCondition.condition.length).map
        fun value => ⟨name, value⟩
  else some ⟨waitCondition.condition, lit "true"⟩

/-- The split of a condition at its first `=`. -/
def splitCondition (condition : Bytes) : ConditionalWaiter :=
  match indexOf? (lit "=") condition with
  | some i => ⟨condition.take i, condition.drop (i + 1)⟩
  | none => ⟨condition, lit "true"⟩

/-- `NewConditionalWaiter` never panics: its slices are in range. -/
theorem newConditionalWaiter_eq (waitCondition : WaitCondition) :
    newConditionalWaiter waitCondition = some (splitCondition waitCondition.condition) := by
  unfold newConditionalWaiter splitCondition
  cases h : indexOf? (lit "=") waitCondition.condition with
  | none => rw [if_neg (not_not.2 (index_eq_neg_one_iff.2 h))]
  | some i =>
    have hle := indexOf?_add_length_le (by decide) h
    simp only [lit, String.toList, List.map, List.length_singleton] at hle
    rw [index_eq_of_indexOf? h, if_pos (by omega), slice_zero_left (by omega),
      show (i : Int) + 1 = ((i + 1 : Nat) : Int) by push_cast; rfl, slice_to_length (by omega)]
    rfl

section LowerCase

variable {lowerCase : Nat → Nat} (hlc : ∀ r, 0x7F < r → lowerCase r ≠ 61)
include hlc

/-- `strings.ToLower` leaves the first `=` of a condition where it is and creates none: lowering
a condition and splitting it is splitting it and lowering both parts. -/
theorem splitCondition_toLowerWith (s : Bytes) :
    splitCondition (toLowerWith lowerCase s) =
      ⟨toLowerWith lowerCase (splitCondition s).conditionName,
        toLowerWith lowerCase (splitCondition s).conditionValue⟩ := by
  have hlower : ∀ r, Unicode.toLower lowerCase r = (61 : UInt8).toNat → r = (61 : UInt8).toNat :=
    fun r => Unicode.toLower_eq_equals hlc
  have hfree : ∀ {a : Bytes}, 61 ∉ a → 61 ∉ toLowerWith lowerCase a := fun ha => by
    rw [toLowerWith_eq_map]
    exact not_mem_map _ (by decide) hlower ha
  unfold splitCondition
  rw [show lit "=" = [61] from rfl]
  cases h : indexOf? [61] s with
  | none =>
    rw [indexOf?_singleton_eq_none.2 (hfree (indexOf?_singleton_eq_none.1 h))]
    rfl
  | some i =>
    obtain ⟨a, b, rfl, ha, rfl⟩ := exists_of_indexOf?_singleton h
    have hsplit : toLowerWith lowerCase (a ++ 61 :: b) =
        toLowerWith lowerCase a ++ 61 :: toLowerWith lowerCase b := by
      simp only [toLowerWith_eq_map, map_append_ascii _ (by decide : (61 : UInt8) < 0x80),
        List.append_assoc]
      rfl
    rw [hsplit, indexOf?_singleton_append (hfree ha)]
    simp

end LowerCase

/-- What `UnmarshalYAML` accepts: a decoded condition whose resource encodes again, whose text is
not empty and is, lower-cased, a valid condition; the resource's encoding is kept. -/
theorem unmarshalYAML_ok {lowerCase : Nat → Nat} {yamlMarshal : Unstructured → Except Bytes Bytes}
    {decoded : Except Bytes WaitCondition} {wc : WaitCondition}
    (h : unmarshalYAML lowerCase yamlMarshal decoded = .ok wc) :
    ∃ condition res, decoded = .ok condition ∧ yamlMarshal condition.rawResource = .ok res ∧
      condition.condition ≠ [] ∧ toLowerWith lowerCase condition.condition ∈ validConditions ∧
      wc = { condition with resourceDefinition := res } := by
  unfold unmarshalYAML at h
  split at h
  · cases h
  · rename_i condition
    split at h
    · cases h
    · rename_i res hres
      split_ifs at h with hempty hvalid
      cases h
      exact ⟨condition, res, rfl, hres, hempty, hvalid, rfl⟩

/-- Every condition `UnmarshalYAML` accepts gives a waiter, without a panic, whose condition is,
up to `strings.ToLower`, `available`, `ready` or `complete`, and whose value is `true` or `false`,
when the Unicode tables lower no rune but `=` to `=`. -/
theorem unmarshalYAML_waiter_wellFormed {lowerCase : Nat → Nat}
    (hlc : ∀ r, 0x7F < r → lowerCase r ≠ 61) {yamlMarshal : Unstructured → Except Bytes Bytes}
    {decoded : Except Bytes WaitCondition} {wc : WaitCondition}
    (h : unmarshalYAML lowerCase yamlMarshal decoded = .ok wc) :
    ∃ w, newConditionalWaiter wc = some w ∧
      toLowerWith lowerCase w.conditionName ∈ [lit "available", lit "ready", lit "complete"] ∧
      toLowerWith lowerCase w.conditionValue ∈ [lit "true", lit "false"] := by
  obtain ⟨condition, res, -, -, -, hvalid, rfl⟩ := unmarshalYAML_ok h
  have hsplit : ∀ c ∈ validConditions,
      (splitCondition c).conditionName ∈ [lit "available", lit "ready", lit "complete"] ∧
      (splitCondition c).conditionValue ∈ [lit "true", lit "false"] := by decide
  refine ⟨_, newConditionalWaiter_eq _, ?_⟩
  have := hsplit _ hvalid
  rwa [splitCondition_toLowerWith hlc] at this

/-- Tables that lower `İ` (U+0130) to `i`, as Go's do, and keep every other rune. -/
def dottedCapitalILower (r : Nat) : Nat := if r = 0x130 then 0x69 else r

/-- The wait for `avaİlable=true`: `strings.ToLower` makes it `available=true`, which
`UnmarshalYAML` accepts, and the waiter it gives waits for the condition `avaİlable`. -/
def dottedIWaitCondition : WaitCondition :=
  ⟨lit "ava" ++ [0xC4, 0xB0] ++ lit "lable=true", [], [lit "app=web"], 30, []⟩

theorem unmarshalYAML_waiter_wellFormed_dottedI :
    (∀ r, 0x7F < r → dottedCapitalILower r ≠ 61) ∧
      unmarshalYAML dottedCapitalILower (fun _ => .ok []) (.ok dottedIWaitCondition) =
        .ok dottedIWaitCondition ∧
      ∃ w, newConditionalWaiter dottedIWaitCondition = some w ∧
        toLowerWith dottedCapitalILower w.conditionName ∈
          [lit "available", lit "ready", lit "complete"] ∧
        toLowerWith dottedCapitalILower w.conditionValue ∈ [lit "true", lit "false"] := by
  have hlc : ∀ r, 0x7F < r → dottedCapitalILower r ≠ 61 := fun r hr => by
    unfold dottedCapitalILower
    split_ifs <;> omega
  refine ⟨hlc, ?h, unmarshalYAML_waiter_wellFormed hlc ?h⟩
  rfl

/-- The waiter of that wait is named `avaİlable`, not `available`. -/
example : newConditionalWaiter dottedIWaitCondition =
    some ⟨lit "ava" ++ [0xC4, 0xB0] ++ lit "lable", lit "true"⟩ := by
  rfl

end Toolbox.K8s
