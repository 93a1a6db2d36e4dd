import Toolbox.Go.Strings

/-
The condition check of the Kubernetes `ConditionalWaiter`, over objects as
`unstructured.Unstructured` holds them, with the accessors of apimachinery's `unstructured`
package it calls.  The check asserts each entry of `status.conditions` to be a map without
testing the assertion: an entry of another type makes it panic.  `strings.EqualFold` is given
abstractly.
-/

namespace Toolbox.K8s

/-- A JSON value as a decoded unstructured object holds it. -/
inductive JsonValue where
  | null
  | bool (b : Bool)
  | int64 (n : Int)
  | float64 (text : Bytes)
  | string (s : Bytes)
  | array (items : List JsonValue)
  | object (fields : List (Bytes × JsonValue))
deriving Repr

/-- `obj.Object` of an `*unstructured.Unstructured`. -/
abbrev Unstructured := List (Bytes × JsonValue)

/-- The accessor errors of `unstructured`: the path of the value and the type it should have
had. -/
structure AccessorError where
  path : Bytes
  expected : Bytes
deriving DecidableEq, Repr

/-- `jsonPath`. -/
def jsonPath (fields : List Bytes) : Bytes := lit "." ++ List.intercalate (lit ".") fields

/-- `unstructured.NestedFieldNoCopy`: the value at the path, `none` when a field is missing or
a value on the way is null, and an error when a value on the way is not a map. -/
def nestedFieldNoCopy (obj : Unstructured) (fields : List Bytes) :
    Except AccessorError (Option JsonValue) :=
  go (.object obj) fields []
where
  go : JsonValue → List Bytes → List Bytes → Except AccessorError (Option JsonValue)
  | val, [], _ => .ok (some val)
  | .null, _ :: _, _ => .ok none
  | .object m, field :: rest, seen =>
    match m.lookup field with
    | none => .ok none
    | some val => go val rest (seen ++ [field])
  | _, field :: _, seen => .error ⟨jsonPath (seen ++ [field]), lit "map[string]interface\x7b\x7d"⟩

/-- The typed accessors `NestedSlice`, `NestedString` and `NestedInt64`: the value at the path
when it has the type, `none` when it is missing, an error otherwise. -/
def nestedTyped {α : Type} (cast : JsonValue → Option α) (expected : Bytes) (obj : Unstructured)
    (fields : List Bytes) : Except AccessorError (Option α) :=
  match nestedFieldNoCopy obj fields with
  | .error e => .error e
  | .ok none => .ok none
  | .ok (some val) =>
    match cast val with
    | some v => .ok (some v)
    | none => .error ⟨jsonPath fields, expected⟩

/-- `unstructured.NestedSlice`; the deep copy it returns is the same value. -/
def nestedSlice : Unstructured → List Bytes → Except AccessorError (Option (List JsonValue)) :=
  nestedTyped (fun | .array items => some items | _ => none) (lit "[]interface\x7b\x7d")

/-- `unstructured.NestedString`. -/
def nestedString : Unstructured → List Bytes → Except AccessorError (Option Bytes) :=
  nestedTyped (fun | .string s => some s | _ => none) (lit "string")

/-- `unstructured.NestedInt64`. -/
def nestedInt64 : Unstructured → List Bytes → Except AccessorError (Option Int) :=
  nestedTyped (fun | .int64 n => some n | _ => none) (lit "int64")

/-- The part of a `ConditionalWaiter` its check reads. -/
structure ConditionalWaiter where
  conditionName : Bytes
  conditionValue : Bytes

/-- `getObservedGeneration`: the condition's own, else the status's, when it is an `int64`. -/
def getObservedGeneration (obj condition : Unstructured) : Option Int :=
  match nestedInt64 condition [lit "observedGeneration"] with
  | .ok (some g) => some g
  | _ =>
    match nestedInt64 obj [lit "status", lit "observedGeneration"] with
    | .ok (some g) => some g
    | _ => none

section Check

variable (equalFold : Bytes → Bytes → Bool) (w : ConditionalWaiter) (obj : Unstructured)

/-- The answer for the first condition of the waiter's type with a status: false while the
object's generation has not been observed, else whether the status is the waiter's value. -/
def conditionAnswer (condition : Unstructured) (status : Bytes) : Bool :=
  match nestedInt64 obj [lit "metadata", lit "generation"] with
  | .ok (some generation) =>
    match getObservedGeneration obj condition with
    | some observed => if observed < generation then false else equalFold status w.conditionValue
    | none => equalFold status w.conditionValue
  | _ => equalFold status w.conditionValue

/-- The loop of `isConditionMet` over the conditions; `none` is the panic of
`conditionUncast.(map[string]interface{})` on an entry that is not a map. -/
def scanConditions : List JsonValue → Option Bool
  | [] => some false
  | .object condition :: rest =>
    match nestedString condition [lit "type"] with
    | .ok (some name) =>
      if equalFold name w.conditionName then
        match nestedString condition [lit "status"] with
        | .ok (some status) => some (conditionAnswer equalFold w obj condition status)
        | _ => scanConditions rest
      else scanConditions rest
    | _ => scanConditions rest
  | _ :: _ => none

/-- `(*ConditionalWaiter).isConditionMet`: whether the condition is met, or the error of
reading `status.conditions`; `none` for a panic. -/
def isConditionMet : Option (Except AccessorError Bool) :=
  match nestedSlice obj [lit "status", lit "conditions"] with
  | .error e => some (.error e)
  | .ok none => some (.ok false)
  | .ok (some conditions) => (scanConditions equalFold w obj conditions).map .ok

/-- The check panics exactly when the scan meets an entry that is not a map before the first
condition it answers for. -/
theorem isConditionMet_eq_none_iff :
    isConditionMet equalFold w obj = none ↔
      ∃ conditions, nestedSlice obj [lit "status", lit "conditions"] = .ok (some conditions) ∧
        scanConditions equalFold w obj conditions = none := by
  unfold isConditionMet
  split <;> simp_all

/-- The status of a condition the scan answers for: one whose `type` is a string naming the
waiter's condition and whose `status` is a string. -/
def statusFor (condition : Unstructured) : Option Bytes :=
  match nestedString condition [lit "type"] with
  | .ok (some name) =>
    if equalFold name w.conditionName then
      match nestedString condition [lit "status"] with
      | .ok (some status) => some status
      | _ => none
    else none
  | _ => none

theorem scanConditions_object (condition : Unstructured) (rest : List JsonValue) :
    scanConditions equalFold w obj (.object condition :: rest) =
      match statusFor equalFold w condition with
      | some status => some (conditionAnswer equalFold w obj condition status)
      | none => scanConditions equalFold w obj rest := by
  simp only [scanConditions, statusFor]
  rcases nestedString condition [lit "type"] with _ | _ | name
  · rfl
  · rfl
  · dsimp only
    split
    · rcases nestedString condition [lit "status"] with _ | _ | status <;> rfl
    · rfl

/-- With only maps among the conditions the scan never panics. -/
theorem scanConditions_isSome {conditions : List JsonValue}
    (hmaps : ∀ c ∈ conditions, ∃ m, c = .object m) :
    (scanConditions equalFold w obj conditions).isSome := by
  induction conditions with
  | nil => rfl
  | cons c rest ih =>
    obtain ⟨m, rfl⟩ := hmaps c (List.mem_cons_self _ _)
    rw [scanConditions_object]
    cases statusFor equalFold w m with
    | some _ => rfl
    | none => exact ih fun c hc => hmaps c (List.mem_cons_of_mem _ hc)

/-- Over maps, the scan answers for the first condition that has a status for the waiter's
type, and is false when none has. -/
theorem scanConditions_maps (conditions : List Unstructured) :
    scanConditions equalFold w obj (conditions.map .object) =
      some ((conditions.findSome? fun condition =>
        (statusFor equalFold w condition).map (conditionAnswer equalFold w obj condition)).getD
          false) := by
  induction conditions with
  | nil => rfl
  | cons condition rest ih =>
    rw [List.map_cons, scanConditions_object, List.findSome?_cons]
    cases statusFor equalFold w condition with
    | some status => rfl
    | none => exact ih

theorem conditionAnswer_true {condition : Unstructured} {status : Bytes}
    (h : conditionAnswer equalFold w obj condition status = true) :
    equalFold status w.conditionValue = true := by
  unfold conditionAnswer at h
  split at h
  · split at h
    · split_ifs at h
      exact h
    · exact h
  · exact h

/-- The scan is true only at a map among the conditions that has a status for the waiter's type,
and one it answers true for. -/
theorem scanConditions_true :
    ∀ {conditions : List JsonValue}, scanConditions equalFold w obj conditions = some true →
      ∃ condition status, .object condition ∈ conditions ∧
        statusFor equalFold w condition = some status ∧
        conditionAnswer equalFold w obj condition status = true
  | [], h => absurd (Option.some.inj h) Bool.false_ne_true
  | .object condition :: rest, h => by
    rw [scanConditions_object] at h
    cases hs : statusFor equalFold w condition with
    | some status =>
      rw [hs] at h
      exact ⟨condition, status, List.mem_cons_self _ _, hs, Option.some.inj h⟩
    | none =>
      rw [hs] at h
      obtain ⟨c, st, hc, hst, ha⟩ := scanConditions_true h
      exact ⟨c, st, List.mem_cons_of_mem _ hc, hst, ha⟩
  | .null :: _, h | .bool _ :: _, h | .int64 _ :: _, h | .float64 _ :: _, h | .string _ :: _, h
  | .array _ :: _, h => nomatch h

end Check

/-- When `status.conditions` is a list of maps, the check answers for the first condition that
has a status for the waiter's type, and is false when none has. -/
theorem isConditionMet_of_maps (equalFold : Bytes → Bytes → Bool) (w : ConditionalWaiter)
    (obj : Unstructured) {conditions : List Unstructured}
    (h : nestedSlice obj [lit "status", lit "conditions"] = .ok (some (conditions.map .object))) :
    isConditionMet equalFold w obj = some (.ok ((conditions.findSome? fun condition =>
      (statusFor equalFold w condition).map (conditionAnswer equalFold w obj condition)).getD
        false)) := by
  rw [isConditionMet, h]
  exact congrArg (Option.map _) (scanConditions_maps equalFold w obj conditions)

/-- A pod whose `Ready` condition is `True`, and that condition. -/
def readyCondition : Unstructured :=
  [(lit "type", .string (lit "Ready")), (lit "status", .string (lit "True"))]

def readyPod : Unstructured :=
  [(lit "status", .object [(lit "conditions", .array [.object readyCondition])])]

/-- A pod scheduled and then ready: the scan passes the `PodScheduled` map to answer from the
`Ready` one. -/
def scheduledCondition : Unstructured :=
  [(lit "type", .string (lit "PodScheduled")), (lit "status", .string (lit "True"))]

def scheduledReadyPod : Unstructured :=
  [(lit "status", .object [(lit "conditions",
    .array [.object scheduledCondition, .object readyCondition])])]

theorem isConditionMet_of_maps_ready :
    nestedSlice scheduledReadyPod [lit "status", lit "conditions"] =
        .ok (some ([scheduledCondition, readyCondition].map .object)) ∧
      isConditionMet (· == ·) ⟨lit "Ready", lit "True"⟩ scheduledReadyPod =
        some (.ok (([scheduledCondition, readyCondition].findSome? fun condition =>
          (statusFor (· == ·) ⟨lit "Ready", lit "True"⟩ condition).map
            (conditionAnswer (· == ·) ⟨lit "Ready", lit "True"⟩ scheduledReadyPod
              condition)).getD false)) :=
  ⟨rfl, isConditionMet_of_maps _ _ _ rfl⟩

/-- There the answer is true, from the second map. -/
example : isConditionMet (· == ·) ⟨lit "Ready", lit "True"⟩ scheduledReadyPod =
    some (.ok true) := by
  rfl

/-- The waiter reports its condition met only when `status.conditions` holds a map whose `type`
names the condition and whose `status` is the waiter's value, case folded. -/
theorem isConditionMet_true_sound (equalFold : Bytes → Bytes → Bool) (w : ConditionalWaiter)
    (obj : Unstructured) (h : isConditionMet equalFold w obj = some (.ok true)) :
    ∃ conditions condition status,
      nestedSlice obj [lit "status", lit "conditions"] = .ok (some conditions) ∧
      .object condition ∈ conditions ∧ statusFor equalFold w condition = some status ∧
      equalFold status w.conditionValue = true := by
  unfold isConditionMet at h
  split at h
  · cases h
  · cases h
  · next conditions hc =>
    obtain ⟨b, hb, hbeq⟩ := Option.map_eq_some'.mp h
    cases hbeq
    obtain ⟨condition, status, hmem, hst, ha⟩ := scanConditions_true equalFold w obj hb
    exact ⟨conditions, condition, status, hc, hmem, hst, conditionAnswer_true equalFold w obj ha⟩

theorem isConditionMet_true_sound_ready :
    isConditionMet (· == ·) ⟨lit "Ready", lit "True"⟩ readyPod = some (.ok true) ∧
      ∃ conditions condition status,
        nestedSlice readyPod [lit "status", lit "conditions"] = .ok (some conditions) ∧
        .object condition ∈ conditions ∧
        statusFor (· == ·) ⟨lit "Ready", lit "True"⟩ condition = some status ∧
        (status == lit "True") = true :=
  ⟨rfl, isConditionMet_true_sound _ _ _ rfl⟩


/-- `status.conditions` holding a string: the check panics, whatever the waiter and the case
folding. -/
theorem isConditionMet_panics_on_string_condition (equalFold : Bytes → Bytes → Bool)
    (w : ConditionalWaiter) :
    isConditionMet equalFold w
      [(lit "status", .object [(lit "conditions", .array [.string (lit "Ready")])])] = none :=
  rfl

end Toolbox.K8s
