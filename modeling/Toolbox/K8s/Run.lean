import Toolbox.K8s.Waiter

/-
The loops of the Kubernetes `ConditionalWaiter`.  `waitForObject` polls one object with `Get`
until its condition is met, an error occurs or the wait times out, sleeping a second between
polls; `Run` first lists the objects matching the selectors, retrying every two seconds up to
six calls, when the waiter names no object, then runs one `waitForObject` goroutine per object
and waits for all of them.  The environment's answers are inputs: each poll is what `Get`
returned and the time the loop then reads.  The goroutines share `waitError`: each writes it
at most once, as its last step, and none reads it, so an interleaving of the goroutines matters
only through the order they finish in.
-/

namespace Toolbox.K8s

open Strings

/-- `schema.GroupVersionKind`; the waiter's messages do not use the version. -/
structure GroupVersionKind where
  group : Bytes
  kind : Bytes

/-- `gvkToString`: `kind.group`, or the kind alone, lower-cased. -/
def gvkToString (gvk : GroupVersionKind) : Bytes :=
  if gvk.group ≠ [] then toLower (gvk.kind ++ lit "." ++ gvk.group) else toLower gvk.kind

/-- The resource's name in `Run`'s messages: as `gvkToString`, but plural without a group. -/
def runKind (gvk : GroupVersionKind) : Bytes :=
  if gvk.group ≠ [] then toLower (gvk.kind ++ lit "." ++ gvk.group)
  else toLower (gvk.kind ++ lit "s")

/-- The error an `ErrResourceWaitFailure` wraps. -/
inductive WaitCause where
  /-- An error of the dynamic client's `Get` or `List`, by its text. -/
  | client (msg : Bytes)
  /-- An error of `isConditionMet`. -/
  | condition (e : AccessorError)
  /-- `maximum wait time exceeded for resource creation`. -/
  | creationTimeout
  /-- `maximum wait time exceeded for resource condition`. -/
  | conditionTimeout
deriving DecidableEq, Repr

/-- `ErrResourceWaitFailure`. -/
structure ErrResourceWaitFailure where
  kind : Bytes
  name : Bytes
  selectors : Bytes
  err : WaitCause
deriving DecidableEq, Repr

/-- How a wait stands: met, failed with the error written to `waitError`, or still waiting when
the environment's answers given run out. -/
inductive WaitOutcome where
  | met
  | failed (e : ErrResourceWaitFailure)
  | waiting
deriving DecidableEq, Repr

/-- One turn of `waitForObject`'s loop as the environment answers it: what `dr.Get` returned,
and `time.Now()`, in nanoseconds, when the loop asks whether the wait has expired. -/
structure Poll where
  get : Except Bytes Unstructured
  now : Nat

/-- One second, in the nanoseconds of `time.Duration`. -/
def second : Nat := 1000000000

/-- `time.Second * time.Duration(w.timeout)`: the `uint` timeout in nanoseconds as Go's
`int64` duration, which wraps. -/
def timeoutDuration (timeout : UInt64) : Int :=
  (BitVec.ofNat 64 (timeout.toNat * second)).toInt

/-- The wrapped duration is never longer than the timeout asked for. -/
theorem timeoutDuration_le (timeout : UInt64) :
    timeoutDuration timeout ≤ timeout.toNat * second := by
  have h : (timeout.toNat * second) % 2 ^ 64 ≤ timeout.toNat * second := Nat.mod_le _ _
  simp only [timeoutDuration, BitVec.toInt_eq_toNat_cond, BitVec.toNat_ofNat]
  split <;> omega

section Wait

variable (equalFold : Bytes → Bytes → Bool) (w : ConditionalWaiter) (timeout : UInt64)
  (gvk : GroupVersionKind)

/-- `waitForObject` on the object `name`, started at `start`, over the polls the environment
answers; `none` is a panic of `isConditionMet`.  The wait expires `timeout` seconds after the
start, as `time.Time.Add` places it on the monotonic clock. -/
def waitForObject (name : Bytes) (start : Nat) (polls : List Poll) : Option WaitOutcome :=
  go polls
where
  go : List Poll → Option WaitOutcome
  | [] => some .waiting
  | p :: polls =>
    match p.get with
    | .error e => some (.failed ⟨gvkToString gvk, name, [], .client e⟩)
    | .ok obj =>
      match isConditionMet equalFold w obj with
      | none => none
      | some (.error e) => some (.failed ⟨gvkToString gvk, name, [], .condition e⟩)
      | some (.ok true) => some .met
      | some (.ok false) =>
        if (start : Int) + timeoutDuration timeout < p.now then
          some (.failed ⟨gvkToString gvk, name, [], .conditionTimeout⟩)
        else go polls

variable {equalFold w timeout gvk} {name : Bytes} {start : Nat}

/-- One poll of the loop: what each answer of `Get` and of the check leads to. -/
theorem waitForObject_go_cons (p : Poll) (polls : List Poll) :
    waitForObject.go equalFold w timeout gvk name start (p :: polls) =
      match p.get with
      | .error e => some (.failed ⟨gvkToString gvk, name, [], .client e⟩)
      | .ok obj =>
        match isConditionMet equalFold w obj with
        | none => none
        | some (.error e) => some (.failed ⟨gvkToString gvk, name, [], .condition e⟩)
        | some (.ok true) => some .met
        | some (.ok false) =>
          if (start : Int) + timeoutDuration timeout < p.now then
            some (.failed ⟨gvkToString gvk, name, [], .conditionTimeout⟩)
          else waitForObject.go equalFold w timeout gvk name start polls := rfl

/-- What one poll can do: go on to the next poll, when the condition is unmet before the
deadline; panic; meet the wait, having found the condition met; or fail it, naming the object. -/
theorem waitForObject_go_cons_cases (p : Poll) (polls : List Poll) :
    (waitForObject.go equalFold w timeout gvk name start (p :: polls) =
          waitForObject.go equalFold w timeout gvk name start polls ∧
        ¬(start : Int) + timeoutDuration timeout < p.now) ∨
      waitForObject.go equalFold w timeout gvk name start (p :: polls) = none ∨
      (waitForObject.go equalFold w timeout gvk name start (p :: polls) = some .met ∧
        ∃ obj, p.get = .ok obj ∧ isConditionMet equalFold w obj = some (.ok true)) ∨
      ∃ cause, waitForObject.go equalFold w timeout gvk name start (p :: polls) =
        some (.failed ⟨gvkToString gvk, name, [], cause⟩) := by
  rw [waitForObject_go_cons]
  rcases hget : p.get with e | obj
  · exact .inr (.inr (.inr ⟨_, rfl⟩))
  · dsimp only
    rcases hc : isConditionMet equalFold w obj with _ | (e | (_ | _))
    · exact .inr (.inl rfl)
    · exact .inr (.inr (.inr ⟨_, rfl⟩))
    · by_cases hd : (start : Int) + timeoutDuration timeout < p.now
      · exact .inr (.inr (.inr ⟨_, if_pos hd⟩))
      · exact .inl ⟨if_neg hd, hd⟩
    · exact .inr (.inr (.inl ⟨rfl, obj, rfl, hc⟩))

/-- The wait is met only after a poll that found the object with its condition met. -/
theorem waitForObject_met {polls : List Poll}
    (h : waitForObject equalFold w timeout gvk name start polls = some .met) :
    ∃ p ∈ polls, ∃ obj, p.get = .ok obj ∧ isConditionMet equalFold w obj = some (.ok true) := by
  induction polls with
  | nil => cases h
  | cons p polls ih =>
    unfold waitForObject at ih h
    rcases waitForObject_go_cons_cases p polls with ⟨hr, -⟩ | hr | ⟨-, hmet⟩ | ⟨_, hr⟩
    · obtain ⟨q, hq, rest⟩ := ih (hr ▸ h)
      exact ⟨q, .tail _ hq, rest⟩
    · cases hr ▸ h
    · exact ⟨p, .head _, hmet⟩
    · cases hr ▸ h

/-- Every error the wait writes names the object it waited for, by `gvkToString`'s kind. -/
theorem waitForObject_failed {polls : List Poll} {e : ErrResourceWaitFailure}
    (h : waitForObject equalFold w timeout gvk name start polls = some (.failed e)) :
    e.kind = gvkToString gvk ∧ e.name = name ∧ e.selectors = [] := by
  induction polls with
  | nil => cases h
  | cons p polls ih =>
    unfold waitForObject at ih h
    rcases waitForObject_go_cons_cases p polls with ⟨hr, -⟩ | hr | ⟨hr, -⟩ | ⟨_, hr⟩ <;>
      rw [hr] at h
    · exact ih h
    · cases h
    · cases h
    · cases h; exact ⟨rfl, rfl, rfl⟩

/-- A wait whose `k`-th poll comes at least `k` seconds after its start and which has not yet
passed its deadline's second ends by the `timeout + 2`-th poll: it is never still waiting. -/
theorem waitForObject_go_ne_waiting (i : Nat) {polls : List Poll}
    (hclock : ∀ k p, polls[k]? = some p → start + (i + k) * second ≤ p.now)
    (hi : i ≤ timeout.toNat + 1) (hlen : timeout.toNat + 2 ≤ i + polls.length) :
    waitForObject.go equalFold w timeout gvk name start polls ≠ some .waiting := by
  induction polls generalizing i with
  | nil => simp only [List.length_nil] at hlen; omega
  | cons p polls ih =>
    rcases waitForObject_go_cons_cases p polls with ⟨hr, hd⟩ | hr | ⟨hr, -⟩ | ⟨_, hr⟩ <;> rw [hr]
    · have hp : start + i * second ≤ p.now := by simpa using hclock 0 p (by simp)
      have := timeoutDuration_le timeout
      apply ih (i + 1) fun k q hq => by
        simpa only [Nat.add_right_comm, Nat.add_assoc] using
          hclock (k + 1) q (by rwa [List.getElem?_cons_succ])
      · simp only [second] at *; omega
      · simp only [List.length_cons] at hlen; omega
    all_goals simp

/-- A timeout whose nanoseconds reach `2^63` modulo `2^64` wraps to a negative duration: the
wait has expired before it starts, and fails at its first poll that finds the condition unmet. -/
theorem waitForObject_wrapped_timeout {p : Poll} {polls : List Poll} {obj : Unstructured}
    (hwrap : 2 ^ 63 ≤ timeout.toNat * second % 2 ^ 64) (hget : p.get = .ok obj)
    (hunmet : isConditionMet equalFold w obj = some (.ok false)) (hnow : start ≤ p.now) :
    waitForObject equalFold w timeout gvk name start (p :: polls) =
      some (.failed ⟨gvkToString gvk, name, [], .conditionTimeout⟩) := by
  have hneg : timeoutDuration timeout < 0 := by
    simp only [timeoutDuration, BitVec.toInt_eq_toNat_cond, BitVec.toNat_ofNat]
    split <;> omega
  unfold waitForObject
  rw [waitForObject_go_cons]
  simp only [hget, hunmet]
  rw [if_pos (by omega)]

/-- The timeout `9223372037` seconds, some 292 years: its first unmet poll fails the wait. -/
theorem waitForObject_wrapped_timeout_292_years :
    2 ^ 63 ≤ (9223372037 : UInt64).toNat * second % 2 ^ 64 ∧
      waitForObject (· == ·) ⟨lit "Ready", lit "True"⟩ 9223372037 ⟨[], lit "Pod"⟩ (lit "web-0") 0
        [⟨.ok [], 0⟩] = some (.failed ⟨lit "pod", lit "web-0", [], .conditionTimeout⟩) :=
  ⟨by decide, waitForObject_wrapped_timeout (by decide) rfl rfl (Nat.le_refl _)⟩

end Wait

/-- How `Run`'s listing loop stands: it found the named objects, failed with the error written to
`waitError`, or is still retrying when the answers given run out. -/
inductive Listing where
  | found (names : List Bytes)
  | failed (e : ErrResourceWaitFailure)
  | listing

/-- `Run`'s loop over the answers of `dr.List` (each the names of the matching items, or the
client's error), after `rounds` empty answers: an error, or a sixth empty answer, fails it. -/
def listObjects (kind selectors : Bytes) : Nat → List (Except Bytes (List Bytes)) → Listing
  | _, [] => .listing
  | _, .error e :: _ => .failed ⟨kind, [], selectors, .client e⟩
  | rounds, .ok names :: answers =>
    if names ≠ [] then .found names
    else if rounds + 1 ≤ 5 then listObjects kind selectors (rounds + 1) answers
    else .failed ⟨kind, [], selectors, .creationTimeout⟩

section Listing

variable {kind selectors : Bytes}

/-- What one answer of `List` can do: an empty one retries while fewer than six have come,
names end the loop, and the rest fail it naming the selectors. -/
theorem listObjects_cons_cases (rounds : Nat) (a : Except Bytes (List Bytes))
    (answers : List (Except Bytes (List Bytes))) :
    (listObjects kind selectors rounds (a :: answers) =
        listObjects kind selectors (rounds + 1) answers ∧ rounds + 1 ≤ 5) ∨
      (∃ names, a = .ok names ∧ names ≠ [] ∧
        listObjects kind selectors rounds (a :: answers) = .found names) ∨
      ∃ cause, listObjects kind selectors rounds (a :: answers) =
        .failed ⟨kind, [], selectors, cause⟩ := by
  rcases a with e | names
  · exact .inr (.inr ⟨_, rfl⟩)
  · by_cases hn : names ≠ []
    · exact .inr (.inl ⟨names, rfl, hn, if_pos hn⟩)
    · by_cases hr : rounds + 1 ≤ 5
      · exact .inl ⟨by rw [listObjects, if_neg hn, if_pos hr], hr⟩
      · exact .inr (.inr ⟨_, by rw [listObjects, if_neg hn, if_neg hr]⟩)

/-- The loop calls `List` at most six times: from at most five empty answers, six answers in
all end it. -/
theorem listObjects_ne_listing {rounds : Nat} {answers : List (Except Bytes (List Bytes))}
    (hr : rounds ≤ 5) (h : 6 ≤ rounds + answers.length) :
    listObjects kind selectors rounds answers ≠ .listing := by
  induction answers generalizing rounds with
  | nil => simp only [List.length_nil] at h; omega
  | cons a answers ih =>
    rcases listObjects_cons_cases rounds a answers with ⟨hr, hle⟩ | ⟨_, -, -, hr⟩ | ⟨_, hr⟩ <;>
      rw [hr]
    · exact ih hle (by simp only [List.length_cons] at h; omega)
    all_goals simp

/-- The loop finds only objects a `List` call answered, and never an empty list of them. -/
theorem listObjects_found {rounds : Nat} {answers : List (Except Bytes (List Bytes))}
    {names : List Bytes} (h : listObjects kind selectors rounds answers = .found names) :
    names ≠ [] ∧ .ok names ∈ answers := by
  induction answers generalizing rounds with
  | nil => cases h
  | cons a answers ih =>
    rcases listObjects_cons_cases rounds a answers with ⟨hr, -⟩ | ⟨_, rfl, hne, hr⟩ | ⟨_, hr⟩ <;>
      rw [hr] at h
    · exact (ih h).imp_right (.tail _)
    · cases h; exact ⟨hne, .head _⟩
    · cases h

/-- Every error of the loop names the selectors, and no object. -/
theorem listObjects_failed {rounds : Nat} {answers : List (Except Bytes (List Bytes))}
    {e : ErrResourceWaitFailure} (h : listObjects kind selectors rounds answers = .failed e) :
    e.kind = kind ∧ e.name = [] ∧ e.selectors = selectors := by
  induction answers generalizing rounds with
  | nil => cases h
  | cons a answers ih =>
    rcases listObjects_cons_cases rounds a answers with ⟨hr, -⟩ | ⟨_, -, -, hr⟩ | ⟨_, hr⟩ <;>
      rw [hr] at h
    · exact ih h
    · cases h
    · cases h; exact ⟨rfl, rfl, rfl⟩

end Listing

/-- The write of `waitError` a goroutine makes as it ends: a failed one overwrites it, the
others leave it. -/
def lastWrite : WaitOutcome → WaitOutcome → WaitOutcome
  | _, .failed e => .failed e
  | acc, _ => acc

/-- How the waiter stands once its goroutines have ended, given in the order they end: a panic in
any of them stops the program; else it still waits while any of them does; else `waitError`
holds the last error written, and is nil (met) when none was. -/
def joinWaits (outs : List (Option WaitOutcome)) : Option WaitOutcome :=
  if none ∈ outs then none
  else if some .waiting ∈ outs then some .waiting
  else some ((outs.filterMap id).foldl lastWrite .met)

section Join

/-- Ends that fail nothing leave `waitError` as it was. -/
theorem foldl_lastWrite_of_not_failed (acc : WaitOutcome) {outs : List WaitOutcome}
    (h : ∀ e, .failed e ∉ outs) : outs.foldl lastWrite acc = acc := by
  induction outs generalizing acc with
  | nil => rfl
  | cons o outs ih =>
    simp only [List.mem_cons, not_or] at h
    cases o with
    | failed e => exact absurd rfl (h e).1
    | met | waiting => exact ih _ fun e => (h e).2

/-- The error left in `waitError` was written by the last failed goroutine to end. -/
theorem foldl_lastWrite_append (acc : WaitOutcome) (pre post : List WaitOutcome)
    (e : ErrResourceWaitFailure) (h : ∀ e, .failed e ∉ post) :
    (pre ++ .failed e :: post).foldl lastWrite acc = .failed e := by
  rw [List.foldl_append, List.foldl_cons, foldl_lastWrite_of_not_failed _ h]
  rfl

/-- The error left in `waitError` is the one it held or one a goroutine wrote. -/
theorem foldl_lastWrite_failed {acc : WaitOutcome} {outs : List WaitOutcome}
    {e : ErrResourceWaitFailure} (h : outs.foldl lastWrite acc = .failed e) :
    acc = .failed e ∨ .failed e ∈ outs := by
  induction outs generalizing acc with
  | nil => exact .inl h
  | cons o outs ih =>
    rcases ih h with h' | h'
    · cases o with
      | failed e' => exact .inr (h' ▸ .head _)
      | met | waiting => exact .inl h'
    · exact .inr (.tail _ h')

/-- `waitError` stays nil only when no goroutine failed. -/
theorem foldl_lastWrite_met {acc : WaitOutcome} {outs : List WaitOutcome}
    (h : outs.foldl lastWrite acc = .met) : ∀ e, .failed e ∉ outs := by
  induction outs generalizing acc with
  | nil => simp
  | cons o outs ih =>
    have hrest := ih h
    intro e he
    rcases List.mem_cons.1 he with rfl | he
    · rw [List.foldl_cons, foldl_lastWrite_of_not_failed _ hrest] at h
      cases h
    · exact hrest e he

/-- A write never makes `waitError` read as still waiting. -/
theorem foldl_lastWrite_ne_waiting {acc : WaitOutcome} (outs : List WaitOutcome)
    (hacc : acc ≠ .waiting) : outs.foldl lastWrite acc ≠ .waiting := by
  induction outs generalizing acc with
  | nil => exact hacc
  | cons o outs ih => cases o <;> exact ih (by simp [lastWrite, hacc])

theorem joinWaits_eq_none_iff {outs : List (Option WaitOutcome)} :
    joinWaits outs = none ↔ none ∈ outs := by
  unfold joinWaits
  split_ifs <;> simp_all

theorem joinWaits_eq_waiting_iff {outs : List (Option WaitOutcome)} :
    joinWaits outs = some .waiting ↔ none ∉ outs ∧ some .waiting ∈ outs := by
  unfold joinWaits
  split_ifs with h₁ h₂
  · simp [h₁]
  · simp [h₁, h₂]
  · simpa [h₂] using foldl_lastWrite_ne_waiting _ (by simp)

/-- The waiter is met exactly when every goroutine met its object. -/
theorem joinWaits_eq_met_iff {outs : List (Option WaitOutcome)} :
    joinWaits outs = some .met ↔ ∀ o ∈ outs, o = some .met := by
  unfold joinWaits
  split_ifs with h₁ h₂
  · exact ⟨nofun, fun h => nomatch h none h₁⟩
  · exact ⟨nofun, fun h => nomatch h _ h₂⟩
  · constructor
    · intro h o ho
      have hmet := foldl_lastWrite_met (Option.some.inj h)
      match o, ho with
      | none, ho => exact absurd ho h₁
      | some .waiting, ho => exact absurd ho h₂
      | some .met, _ => rfl
      | some (.failed e), ho => exact (hmet e (List.mem_filterMap.2 ⟨_, ho, rfl⟩)).elim
    · intro h
      rw [foldl_lastWrite_of_not_failed]
      intro e he
      obtain ⟨o, ho, hoe⟩ := List.mem_filterMap.1 he
      cases h o ho ▸ hoe

/-- The error the waiter reports is one a goroutine wrote. -/
theorem joinWaits_failed {outs : List (Option WaitOutcome)} {e : ErrResourceWaitFailure}
    (h : joinWaits outs = some (.failed e)) : some (.failed e) ∈ outs := by
  unfold joinWaits at h
  split_ifs at h
  · cases h
  · rcases foldl_lastWrite_failed (Option.some.inj h) with h | h
    · cases h
    · obtain ⟨o, ho, hoe⟩ := List.mem_filterMap.1 h
      exact hoe ▸ ho

/-- Once every goroutine has ended, the waiter reports the error of the last one to fail. -/
theorem joinWaits_append {pre post : List (Option WaitOutcome)} {e : ErrResourceWaitFailure}
    (hpre : ∀ o ∈ pre, o ≠ none ∧ o ≠ some .waiting) (hpost : ∀ o ∈ post, o = some .met) :
    joinWaits (pre ++ some (.failed e) :: post) = some (.failed e) := by
  have hout : ∀ o ∈ pre ++ some (.failed e) :: post, o ≠ none ∧ o ≠ some .waiting := by
    simp only [List.mem_append, List.mem_cons]
    rintro o (ho | rfl | ho)
    · exact hpre o ho
    · simp
    · simp [hpost o ho]
  have hpost' : ∀ e', .failed e' ∉ post.filterMap id := fun e' he' => by
    obtain ⟨o, ho, hoe⟩ := List.mem_filterMap.1 he'
    cases hpost o ho ▸ hoe
  unfold joinWaits
  rw [if_neg fun h => (hout _ h).1 rfl, if_neg fun h => (hout _ h).2 rfl, List.filterMap_append,
    List.filterMap_cons_some (rfl : id (some (WaitOutcome.failed e)) = _),
    foldl_lastWrite_append _ _ _ _ hpost']


/-- Whether the waiter panics, is met or still waits does not depend on the order its goroutines
end in. -/
theorem joinWaits_perm {outs₁ outs₂ : List (Option WaitOutcome)} (h : outs₁.Perm outs₂) :
    (joinWaits outs₁ = none ↔ joinWaits outs₂ = none) ∧
      (joinWaits outs₁ = some .met ↔ joinWaits outs₂ = some .met) ∧
      (joinWaits outs₁ = some .waiting ↔ joinWaits outs₂ = some .waiting) := by
  simp [joinWaits_eq_none_iff, joinWaits_eq_met_iff, joinWaits_eq_waiting_iff, h.mem_iff]

end Join

section Run

variable (equalFold : Bytes → Bytes → Bool) (w : ConditionalWaiter) (timeout : UInt64)
  (gvk : GroupVersionKind)

/-- The objects `Run` waits for: the one the waiter names, or those its listing loop finds with
the selectors joined by commas. -/
def runTargets (objName : Bytes) (selectors : List Bytes)
    (lists : List (Except Bytes (List Bytes))) : Listing :=
  if objName = [] then listObjects (runKind gvk) (List.intercalate (lit ",") selectors) 0 lists
  else .found [objName]

/-- `(*ConditionalWaiter).Run` over the environment's answers: those of `List`, and for each
object the time its goroutine starts and its polls.  `schedule` orders the objects by when their
goroutines end, a permutation the Go scheduler chooses.  The result is how the waiter stands once
`subWaitGroup.Wait()` returns: met when `Error()` is nil. -/
def run (objName : Bytes) (selectors : List Bytes) (lists : List (Except Bytes (List Bytes)))
    (start : Bytes → Nat) (polls : Bytes → List Poll) (schedule : List Bytes → List Bytes) :
    Option WaitOutcome :=
  match runTargets gvk objName selectors lists with
  | .found names =>
    joinWaits ((schedule names).map fun n =>
      waitForObject equalFold w timeout gvk n (start n) (polls n))
  | .failed e => some (.failed e)
  | .listing => some .waiting

variable {equalFold w timeout gvk} {objName : Bytes} {selectors : List Bytes}
  {lists : List (Except Bytes (List Bytes))} {start : Bytes → Nat} {polls : Bytes → List Poll}

theorem runTargets_found {names : List Bytes}
    (h : runTargets gvk objName selectors lists = .found names) :
    names ≠ [] ∧ (objName = [] → .ok names ∈ lists) ∧ (objName ≠ [] → names = [objName]) := by
  unfold runTargets at h
  split_ifs at h with hobj
  · exact ⟨(listObjects_found h).1, fun _ => (listObjects_found h).2, fun h' => absurd hobj h'⟩
  · cases h
    exact ⟨List.cons_ne_nil _ _, fun h' => absurd h' hobj, fun _ => rfl⟩


theorem runTargets_failed {e : ErrResourceWaitFailure}
    (h : runTargets gvk objName selectors lists = .failed e) :
    objName = [] ∧ listObjects (runKind gvk) (List.intercalate (lit ",") selectors) 0 lists =
      .failed e := by
  unfold runTargets at h
  split_ifs at h with hobj
  · exact ⟨hobj, h⟩

theorem runTargets_ne_listing (h : 6 ≤ lists.length) :
    runTargets gvk objName selectors lists ≠ .listing := by
  unfold runTargets
  split_ifs
  · exact listObjects_ne_listing (Nat.zero_le _) (by omega)
  · simp

/-- The environment of the examples: a `Ready` waiter on pods with a thirty-second timeout, two
pods `web-0` and `web-1` that the second `List` call finds, each unready at its first poll and
ready a second later. -/
def readyWaiter : ConditionalWaiter := ⟨lit "Ready", lit "True"⟩

def podKind : GroupVersionKind := ⟨[], lit "Pod"⟩

def webNames : List Bytes := [lit "web-0", lit "web-1"]

def webLists : List (Except Bytes (List Bytes)) := [.ok [], .ok webNames]

def webPolls : Bytes → List Poll := fun _ => [⟨.ok [], 0⟩, ⟨.ok readyPod, second⟩]

/-- `Run` is met only when every object it waited for, the one it names or each one its listing
found, was seen with its condition met. -/
theorem run_met_sound {schedule : List Bytes → List Bytes}
    (hsched : ∀ names, (schedule names).Perm names)
    (h : run equalFold w timeout gvk objName selectors lists start polls schedule = some .met) :
    ∃ names : List Bytes, names ≠ [] ∧ (objName = [] → .ok names ∈ lists) ∧
      (objName ≠ [] → names = [objName]) ∧
      ∀ n ∈ names, ∃ p ∈ polls n, ∃ obj, p.get = .ok obj ∧
        isConditionMet equalFold w obj = some (.ok true) := by
  unfold run at h
  split at h
  · rename_i names ht
    obtain ⟨hne, hlisted, hnamed⟩ := runTargets_found ht
    exact ⟨names, hne, hlisted, hnamed, fun n hn => waitForObject_met
      (joinWaits_eq_met_iff.1 h _ (List.mem_map_of_mem _ ((hsched names).mem_iff.2 hn)))⟩
  · cases h
  · cases h

theorem run_met_sound_web :
    (∀ names : List Bytes, names.reverse.Perm names) ∧
      run (· == ·) readyWaiter 30 podKind [] [lit "app=web"] webLists (fun _ => 0) webPolls
        List.reverse = some .met ∧
      ∃ names : List Bytes, names ≠ [] ∧ ([] = ([] : Bytes) → .ok names ∈ webLists) ∧
        ([] ≠ ([] : Bytes) → names = [[]]) ∧
        ∀ n ∈ names, ∃ p ∈ webPolls n, ∃ obj, p.get = .ok obj ∧
          isConditionMet (· == ·) readyWaiter obj = some (.ok true) :=
  by refine ⟨fun _ => List.reverse_perm _, ?h, run_met_sound (fun _ => List.reverse_perm _) ?h⟩; rfl

/-- Whether `Run` panics, is met or still waits is the same for every order its goroutines end
in. -/
theorem run_schedule_independent {schedule₁ schedule₂ : List Bytes → List Bytes}
    (h₁ : ∀ names, (schedule₁ names).Perm names) (h₂ : ∀ names, (schedule₂ names).Perm names) :
    (run equalFold w timeout gvk objName selectors lists start polls schedule₁ = none ↔
        run equalFold w timeout gvk objName selectors lists start polls schedule₂ = none) ∧
      (run equalFold w timeout gvk objName selectors lists start polls schedule₁ = some .met ↔
        run equalFold w timeout gvk objName selectors lists start polls schedule₂ = some .met) ∧
      (run equalFold w timeout gvk objName selectors lists start polls schedule₁ =
          some .waiting ↔
        run equalFold w timeout gvk objName selectors lists start polls schedule₂ =
          some .waiting) := by
  unfold run
  split
  · exact joinWaits_perm (((h₁ _).trans (h₂ _).symm).map _)
  · simp
  · simp

theorem run_schedule_independent_web :
    (run (· == ·) readyWaiter 30 podKind [] [lit "app=web"] webLists (fun _ => 0) webPolls id =
        none ↔
      run (· == ·) readyWaiter 30 podKind [] [lit "app=web"] webLists (fun _ => 0) webPolls
        List.reverse = none) ∧
    (run (· == ·) readyWaiter 30 podKind [] [lit "app=web"] webLists (fun _ => 0) webPolls id =
        some .met ↔
      run (· == ·) readyWaiter 30 podKind [] [lit "app=web"] webLists (fun _ => 0) webPolls
        List.reverse = some .met) ∧
    (run (· == ·) readyWaiter 30 podKind [] [lit "app=web"] webLists (fun _ => 0) webPolls id =
        some .waiting ↔
      run (· == ·) readyWaiter 30 podKind [] [lit "app=web"] webLists (fun _ => 0) webPolls
        List.reverse = some .waiting) :=
  run_schedule_independent (fun _ => .refl _) (fun _ => List.reverse_perm _)

/-- Every error `Run` reports names what failed: the selectors, under the plural kind, when the
listing failed; else an object it waited for, under `gvkToString`'s kind, whose goroutine wrote
it. -/
theorem run_failed {schedule : List Bytes → List Bytes}
    (hsched : ∀ names, (schedule names).Perm names) {e : ErrResourceWaitFailure}
    (h : run equalFold w timeout gvk objName selectors lists start polls schedule =
      some (.failed e)) :
    (objName = [] ∧ e.kind = runKind gvk ∧ e.name = [] ∧
        e.selectors = List.intercalate (lit ",") selectors) ∨
      ∃ names, runTargets gvk objName selectors lists = .found names ∧ e.name ∈ names ∧
        e.kind = gvkToString gvk ∧ e.selectors = [] ∧
        waitForObject equalFold w timeout gvk e.name (start e.name) (polls e.name) =
          some (.failed e) := by
  unfold run at h
  split at h
  · rename_i names ht
    obtain ⟨n, hn, hwait⟩ := List.mem_map.1 (joinWaits_failed h)
    obtain ⟨hkind, rfl, hsel⟩ := waitForObject_failed hwait
    exact .inr ⟨names, ht, (hsched names).mem_iff.1 hn, hkind, hsel, hwait⟩
  · rename_i e' ht
    cases h
    obtain ⟨hobj, hlist⟩ := runTargets_failed ht
    exact .inl ⟨hobj, listObjects_failed hlist⟩
  · cases h

/-- A `List` call refused: the error names the selectors under the plural kind. -/
def forbidden : ErrResourceWaitFailure := ⟨lit "pods", [], lit "app=web", .client (lit "forbidden")⟩

theorem run_failed_forbidden :
    run (· == ·) readyWaiter 30 podKind [] [lit "app=web"] [.error (lit "forbidden")]
        (fun _ => 0) webPolls id = some (.failed forbidden) ∧
    (([] = ([] : Bytes) ∧ forbidden.kind = runKind podKind ∧ forbidden.name = [] ∧
        forbidden.selectors = List.intercalate (lit ",") [lit "app=web"]) ∨
      ∃ names, runTargets podKind [] [lit "app=web"] [.error (lit "forbidden")] = .found names ∧
        forbidden.name ∈ names ∧ forbidden.kind = gvkToString podKind ∧ forbidden.selectors = [] ∧
        waitForObject (· == ·) readyWaiter 30 podKind forbidden.name 0 (webPolls forbidden.name) =
          some (.failed forbidden)) := by
  refine ⟨?h, run_failed (fun _ => .refl _) ?h⟩; rfl

/-- Once its goroutines have ended without a panic, `Run` reports the error of the object whose
goroutine failed last, whatever failed before it: which error depends on the order they end in. -/
theorem run_reports_last_failure {schedule : List Bytes → List Bytes}
    {names pre post : List Bytes} {n : Bytes} {e : ErrResourceWaitFailure}
    (ht : runTargets gvk objName selectors lists = .found names)
    (hsched : schedule names = pre ++ n :: post)
    (hpre : ∀ m ∈ pre, waitForObject equalFold w timeout gvk m (start m) (polls m) ≠ none ∧
      waitForObject equalFold w timeout gvk m (start m) (polls m) ≠ some .waiting)
    (hn : waitForObject equalFold w timeout gvk n (start n) (polls n) = some (.failed e))
    (hpost : ∀ m ∈ post, waitForObject equalFold w timeout gvk m (start m) (polls m) = some .met) :
    run equalFold w timeout gvk objName selectors lists start polls schedule = some (.failed e) ∧
      e.name = n := by
  refine ⟨?_, (waitForObject_failed hn).2.1⟩
  simp only [run, ht, hsched, List.map_append, List.map_cons, hn]
  exact joinWaits_append (List.forall_mem_map.2 hpre) (List.forall_mem_map.2 hpost)

/-- Two pods deleted under the waiter: the error `Run` reports names whichever pod's goroutine
ended last. -/
def gonePolls : Bytes → List Poll := fun n => [⟨.error (lit "not found: " ++ n), 0⟩]

theorem run_reports_last_failure_race :
    (run (· == ·) readyWaiter 30 podKind [] [] webLists (fun _ => 0) gonePolls id =
        some (.failed ⟨lit "pod", lit "web-1", [], .client (lit "not found: web-1")⟩) ∧
      lit "web-1" = lit "web-1") ∧
    (run (· == ·) readyWaiter 30 podKind [] [] webLists (fun _ => 0) gonePolls List.reverse =
        some (.failed ⟨lit "pod", lit "web-0", [], .client (lit "not found: web-0")⟩) ∧
      lit "web-0" = lit "web-0") :=
  ⟨run_reports_last_failure rfl (show id webNames = [lit "web-0"] ++ [lit "web-1"] from rfl)
      (fun _ h => by rw [List.mem_singleton.1 h]; decide) rfl nofun,
    run_reports_last_failure rfl (show webNames.reverse = [lit "web-1"] ++ [lit "web-0"] from rfl)
      (fun _ h => by rw [List.mem_singleton.1 h]; decide) rfl nofun⟩

/-- Given six answers of `List`, and polls that come a second apart and outnumber the timeout's
seconds by two, `Run` has ended. -/
theorem run_ends {schedule : List Bytes → List Bytes} (hlists : 6 ≤ lists.length)
    (hclock : ∀ n k p, (polls n)[k]? = some p → start n + k * second ≤ p.now)
    (hpolls : ∀ n, timeout.toNat + 2 ≤ (polls n).length) :
    run equalFold w timeout gvk objName selectors lists start polls schedule ≠ some .waiting := by
  unfold run
  split
  · rw [Ne, joinWaits_eq_waiting_iff]
    rintro ⟨-, hw⟩
    obtain ⟨n, -, hn⟩ := List.mem_map.1 hw
    exact waitForObject_go_ne_waiting 0 (by simpa using hclock n) (Nat.zero_le _)
      (by simpa using hpolls n) hn
  · simp
  · exact absurd ‹_› (runTargets_ne_listing hlists)

/-- Five empty answers of `List`, then `web-0`, whose condition stays unmet past a zero timeout:
`Run` fails, and does not wait. -/
theorem run_ends_sixth_list :
    run (· == ·) readyWaiter 0 podKind [] [] (List.replicate 5 (.ok []) ++ [.ok [lit "web-0"]])
        (fun _ => 0) (fun _ => [⟨.ok [], 0⟩, ⟨.ok [], second⟩]) id ≠ some .waiting :=
  run_ends (by decide) (fun _ k p h => by
    rcases k with _ | _ | k <;> simp at h <;> subst h <;> simp) (fun _ => by decide)

end Run

end Toolbox.K8s
