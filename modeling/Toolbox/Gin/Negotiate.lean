import Toolbox.Gin.Context
import Toolbox.Go.Utf8
import Mathlib.Data.List.Sort

/-
`NegotiateResponseType` parses the entries of the `Accept` header, sorts them by quality with
`sort.Slice` and answers with the first one whose mime type is supported.  The comparison it
gives `sort.Slice` is `quality[i] < quality[j]`, which sorts in ascending order: the answer is
a supported type of the lowest quality, not the highest.  Qualities are the `float32`s the
decimals of the header round to, so decimals that round alike tie.  `sort.Slice` is not stable,
and the order it leaves entries of equal quality in is left open: every result is stated for
every sorted permutation.

`NegotiateVersion` maps every mime type of its handlers, and each alias, to the mime type, ranging
over the handlers' map, then asks both negotiations.  An alias two handlers share goes to the one
Go's range order writes last.
-/

namespace Toolbox.Gin

open Strings

/-- A quality as the header writes it: `mantissa / 10 ^ scale`. -/
structure Decimal where
  mantissa : Nat
  scale : Nat
deriving DecidableEq, Repr

/-- The number of binary digits of `n`: halvings until it is `0`, counted in `acc`. -/
def bitLength (n : Nat) : Nat := go n n 0
where
  go : Nat → Nat → Nat → Nat
  | 0, _, acc => acc
  | fuel + 1, n, acc => if n = 0 then acc else go fuel (n / 2) (acc + 1)

/-- `2 ^ -149`, the least subnormal `float32`: every non-negative finite `float32` is a whole
number of it, and a quality is that number. -/
def float32One : Nat := 2 ^ 149

/-- `float32(v)` of the decimal `v`: the nearest `float32`, ties to even, in units of `2 ^ -149`.
Below `2 ^ 24` units the spacing of `float32`s is one unit; among values of `k` binary digits it
is `2 ^ (k - 24)` units. -/
def Decimal.toFloat32 (d : Decimal) : Nat :=
  let num := d.mantissa * float32One
  let unit := 2 ^ (bitLength (num / 10 ^ d.scale) - 24)
  let den := 10 ^ d.scale * unit
  let q := num / den
  let r := num % den
  (if 2 * r < den then q else if den < 2 * r then q + 1 else q + q % 2) * unit

set_option maxRecDepth 2000 in
/-- `0.3` and `0.30000001` round to the same `float32`. -/
example : Decimal.toFloat32 ⟨3, 1⟩ = Decimal.toFloat32 ⟨30000001, 8⟩ := by rfl

/-- `acceptedType`, its quality a `float32` in units of `2 ^ -149`. -/
structure AcceptedType where
  mimeType : Bytes
  quality : Nat
deriving DecidableEq, Repr

/-- The order `sort.Slice` leaves the entries in: no entry has a lower quality than one before
it. -/
def AcceptedType.NotBefore (a b : AcceptedType) : Prop := ¬ b.quality < a.quality

instance : DecidableRel AcceptedType.NotBefore := fun a b =>
  inferInstanceAs (Decidable (¬ b.quality < a.quality))

instance : IsTotal AcceptedType AcceptedType.NotBefore :=
  ⟨fun a b => (Nat.lt_or_ge b.quality a.quality).elim (fun h => .inr (Nat.lt_asymm h))
    fun h => .inl (Nat.not_lt.2 h)⟩

instance : IsTrans AcceptedType AcceptedType.NotBefore :=
  ⟨fun _ _ _ hab hbc => by unfold AcceptedType.NotBefore at *; omega⟩

/-- What `sort.Slice` with `quality[i] < quality[j]` may do to the entries: reorder them so that
no entry has a lower quality than one before it.  Go picks the order of entries of equal
quality, by insertion sort on short slices and by pivoting on long ones; the model leaves it
open. -/
structure QualitySort where
  sort : List AcceptedType → List AcceptedType
  perm : ∀ l, (sort l).Perm l
  sorted : ∀ l, (sort l).Sorted AcceptedType.NotBefore

/-- Insertion sort, stable, which is what `sort.Slice` does on up to six entries. -/
def QualitySort.insertion : QualitySort :=
  ⟨fun l => l.insertionSort AcceptedType.NotBefore, List.perm_insertionSort _,
    List.sorted_insertionSort _⟩

/-- A single entry stays as it is. -/
theorem QualitySort.sort_singleton (s : QualitySort) (t : AcceptedType) : s.sort [t] = [t] :=
  List.perm_singleton.1 (s.perm [t])

/-! ### `parseAcceptedType` -/

/-- `\w`: an ASCII letter, digit or underscore. -/
def isWord (b : UInt8) : Bool :=
  (48 ≤ b && b ≤ 57) || (65 ≤ b && b ≤ 90) || (97 ≤ b && b ≤ 122) || b == 95

/-- `[0-9]`. -/
def isDigit (b : UInt8) : Bool := 48 ≤ b && b ≤ 57

/-- The group `[0-9]+(\.[0-9]+)?` matching all of `s`: the digits before and after the point. -/
def matchNumber (s : Bytes) : Option (Bytes × Bytes) :=
  match s.span isDigit with
  | ([], _) => none
  | (whole, []) => some (whole, [])
  | (whole, 46 :: frac) => if frac ≠ [] ∧ frac.all isDigit then some (whole, frac) else none
  | _ => none

/-- `pattern.FindStringSubmatch(s)` for `^([\w*]+\/[-+.*\w]+)(;q=([0-9]+(\.[0-9]+)?))?$`:
groups 1 and 3, group 3 empty when the quality is left out, or `none` for no match.  No class
of the pattern holds `/` or `;`, so each class matches as much as it can. -/
def matchAcceptedType (s : Bytes) : Option (Bytes × Bytes) :=
  match s.span fun b => isWord b || b == 42 with
  | (ty, 47 :: rest) =>
    match rest.span fun b => isWord b || b == 45 || b == 43 || b == 46 || b == 42 with
    | (sub, tail) =>
      if ty = [] ∨ sub = [] then none
      else if tail = [] then some (ty ++ [47] ++ sub, [])
      else if (lit ";q=").isPrefixOf tail ∧ (matchNumber (tail.drop 3)).isSome then
        some (ty ++ [47] ++ sub, tail.drop 3)
      else none
  | _ => none

/-- The least decimal that `strconv.ParseFloat(_, 32)` rounds past `math.MaxFloat32`, half a
unit in the last place above it, written as an integer. -/
def float32Overflow : Nat := 2 ^ 128 - 2 ^ 103

/-- `strconv.ParseFloat(s, 32)` on a matched number: the `float32` it rounds to, or the range
error when it rounds past the largest `float32`. -/
def parseFloat32 (s : Bytes) : Except Bytes Nat :=
  match matchNumber s with
  | none => .error (lit "strconv.ParseFloat: parsing " ++ s ++ lit ": invalid syntax")
  | some (whole, frac) =>
    let d : Decimal := ⟨Strconv.decimalValue (whole ++ frac), frac.length⟩
    if float32Overflow * 10 ^ d.scale ≤ d.mantissa then
      .error (lit "strconv.ParseFloat: parsing " ++ s ++ lit ": value out of range")
    else .ok d.toFloat32

/-- `parseAcceptedType`. -/
def parseAcceptedType (mimeTypes : Bytes) : Except Bytes AcceptedType :=
  let mimeTypes := trimSpace mimeTypes
  match matchAcceptedType mimeTypes with
  | none => .error (mimeTypes ++ lit ": mime type is not valid")
  | some (mimeType, q) =>
    if q = [] then .ok ⟨mimeType, float32One⟩
    else (parseFloat32 q).map fun v => ⟨mimeType, v⟩

/-! ### `NegotiateResponseType` -/

/-- The entries of the header that parse, in the header's order. -/
def acceptedTypes (accept : Bytes) : List AcceptedType :=
  (List.splitOn 44 accept).filterMap fun t =>
    match parseAcceptedType (trimSpace t) with
    | .ok t => some t
    | .error _ => none

/-- The loop over the sorted entries: the first supported one. -/
def firstSupported (supportedTypes : GoMap Bytes) : List AcceptedType → Option Bytes
  | [] => none
  | t :: rest =>
    match supportedTypes.lookup t.mimeType with
    | some answer => some answer
    | none => firstSupported supportedTypes rest

/-- `ErrUnsupportedResponseType`, with the header it was given. -/
structure ErrUnsupportedResponseType where
  accept : Bytes
deriving DecidableEq, Repr

/-- `NegotiateResponseType`, `sort` being what `sort.Slice` does. -/
def negotiateResponseType (sort : QualitySort) (c : Context) (supportedTypes : GoMap Bytes) :
    Except ErrUnsupportedResponseType Bytes :=
  let accept := c.getHeader (lit "Accept")
  match firstSupported supportedTypes (sort.sort (acceptedTypes accept)) with
  | some answer => .ok answer
  | none => .error ⟨accept⟩

/-- On entries sorted by `sort.Slice`'s order, the loop answers with a supported entry that no
supported entry has a lower quality than. -/
theorem firstSupported_of_sorted {supportedTypes : GoMap Bytes} {answer : Bytes} :
    ∀ {l : List AcceptedType}, l.Sorted AcceptedType.NotBefore →
      firstSupported supportedTypes l = some answer →
      ∃ t ∈ l, supportedTypes.lookup t.mimeType = some answer ∧
        ∀ t' ∈ l, (supportedTypes.lookup t'.mimeType).isSome → ¬ t'.quality < t.quality
  | [], _, h => nomatch h
  | t :: rest, hsorted, h => by
    obtain ⟨hfirst, hrest⟩ := List.sorted_cons.mp hsorted
    unfold firstSupported at h
    split at h
    · next hat =>
      cases h
      refine ⟨t, List.mem_cons_self _ _, hat, fun t' ht' _ => ?_⟩
      rcases List.mem_cons.mp ht' with rfl | ht'
      · exact fun hlt => Nat.lt_irrefl _ hlt
      · exact hfirst t' ht'
    · next hnone =>
      obtain ⟨u, hu, hat, hmin⟩ := firstSupported_of_sorted hrest h
      refine ⟨u, List.mem_cons_of_mem _ hu, hat, fun t' ht' hsup => ?_⟩
      rcases List.mem_cons.mp ht' with rfl | ht'
      · rw [hnone] at hsup; cases hsup
      · exact hmin t' ht' hsup

theorem firstSupported_eq_none_iff {supportedTypes : GoMap Bytes} :
    ∀ {l : List AcceptedType},
      firstSupported supportedTypes l = none ↔ ∀ t ∈ l, supportedTypes.lookup t.mimeType = none
  | [] => by simp [firstSupported]
  | t :: rest => by
    unfold firstSupported
    split <;> simp_all [firstSupported_eq_none_iff (l := rest)]

/-- What `NegotiateResponseType` answers, whatever order `sort.Slice` leaves entries of equal
quality in: the type of a supported entry that no supported entry has a lower quality than, or
the error when no entry is supported. -/
theorem negotiateResponseType_cases (sort : QualitySort) (c : Context)
    (supportedTypes : GoMap Bytes) :
    (∃ t ∈ acceptedTypes (c.getHeader (lit "Accept")), ∃ answer,
      supportedTypes.lookup t.mimeType = some answer ∧
      (∀ t' ∈ acceptedTypes (c.getHeader (lit "Accept")),
        (supportedTypes.lookup t'.mimeType).isSome → ¬ t'.quality < t.quality) ∧
      negotiateResponseType sort c supportedTypes = .ok answer) ∨
    ((∀ t ∈ acceptedTypes (c.getHeader (lit "Accept")), supportedTypes.lookup t.mimeType = none) ∧
      negotiateResponseType sort c supportedTypes = .error ⟨c.getHeader (lit "Accept")⟩) := by
  have hperm := sort.perm (acceptedTypes (c.getHeader (lit "Accept")))
  unfold negotiateResponseType
  dsimp only
  cases hfirst : firstSupported supportedTypes (sort.sort (acceptedTypes (c.getHeader
      (lit "Accept")))) with
  | some answer =>
    obtain ⟨t, ht, hat, hmin⟩ := firstSupported_of_sorted (sort.sorted _) hfirst
    exact .inl ⟨t, hperm.subset ht, answer, hat, fun t' ht' => hmin t' (hperm.symm.subset ht'),
      rfl⟩
  | none =>
    exact .inr ⟨fun t ht => firstSupported_eq_none_iff.1 hfirst t (hperm.symm.subset ht), rfl⟩

/-- `NegotiateResponseType` answers with the type of a supported entry of the header of the
lowest quality: no supported entry has a lower one. -/
theorem negotiateResponseType_lowest {sort : QualitySort} {c : Context}
    {supportedTypes : GoMap Bytes} {answer : Bytes}
    (h : negotiateResponseType sort c supportedTypes = .ok answer) :
    ∃ t ∈ acceptedTypes (c.getHeader (lit "Accept")),
      supportedTypes.lookup t.mimeType = some answer ∧
      ∀ t' ∈ acceptedTypes (c.getHeader (lit "Accept")),
        (supportedTypes.lookup t'.mimeType).isSome → ¬ t'.quality < t.quality := by
  rcases negotiateResponseType_cases sort c supportedTypes with
    ⟨t, ht, answer', hat, hmin, heq⟩ | ⟨-, heq⟩ <;> rw [heq] at h <;> cases h
  exact ⟨t, ht, hat, hmin⟩

/-- The order `sort.Slice` leaves entries of equal quality in changes the answer only where two
supported entries of equal quality are answered differently. -/
theorem negotiateResponseType_sort_independent (s s' : QualitySort) (c : Context)
    (supportedTypes : GoMap Bytes)
    (hties : ∀ t ∈ acceptedTypes (c.getHeader (lit "Accept")),
      ∀ t' ∈ acceptedTypes (c.getHeader (lit "Accept")), t.quality = t'.quality →
        ∀ x y, supportedTypes.lookup t.mimeType = some x →
          supportedTypes.lookup t'.mimeType = some y → x = y) :
    negotiateResponseType s c supportedTypes = negotiateResponseType s' c supportedTypes := by
  rcases negotiateResponseType_cases s c supportedTypes with
    ⟨t, ht, x, hx, hmin, heq⟩ | ⟨hnone, heq⟩ <;>
  rcases negotiateResponseType_cases s' c supportedTypes with
    ⟨t', ht', y, hy, hmin', heq'⟩ | ⟨hnone', heq'⟩ <;> rw [heq, heq']
  · -- both answer from an entry of the lowest supported quality: the two qualities are equal
    have hq : t.quality = t'.quality := Nat.le_antisymm
      (Nat.not_lt.1 (hmin t' ht' (by simp [hy]))) (Nat.not_lt.1 (hmin' t ht (by simp [hx])))
    rw [hties t ht t' ht' hq x y hx hy]
  · rw [hnone' t ht] at hx; cases hx
  · rw [hnone t' ht'] at hy; cases hy

/-- Insertion sort run on the reversed entries, which leaves entries of equal quality in the
reverse order. -/
def QualitySort.reverseInsertion : QualitySort :=
  ⟨fun l => l.reverse.insertionSort AcceptedType.NotBefore,
    fun l => (List.perm_insertionSort _ _).trans (List.reverse_perm l),
    fun _ => List.sorted_insertionSort _ _⟩

/-- A header whose two entries tie in quality and are both supported. -/
def tiedAccept : Context :=
  .ofHeaders ((∅ : GoMap Bytes).insert (lit "Accept") (lit "text/html;q=0.5, text/plain;q=0.5"))

/-- When the two tied entries are answered alike the sort does not matter; when they are answered
differently, each order of the tie gives its own answer. -/
theorem negotiateResponseType_sort_independent_tie :
    (∀ t ∈ acceptedTypes (tiedAccept.getHeader (lit "Accept")),
      ∀ t' ∈ acceptedTypes (tiedAccept.getHeader (lit "Accept")), t.quality = t'.quality →
        ∀ x y, (((∅ : GoMap Bytes).insert (lit "text/html") (lit "text")).insert
            (lit "text/plain") (lit "text")).lookup t.mimeType = some x →
          (((∅ : GoMap Bytes).insert (lit "text/html") (lit "text")).insert
            (lit "text/plain") (lit "text")).lookup t'.mimeType = some y → x = y) ∧
      negotiateResponseType .insertion tiedAccept (((∅ : GoMap Bytes).insert (lit "text/html")
          (lit "text")).insert (lit "text/plain") (lit "text")) =
        negotiateResponseType .reverseInsertion tiedAccept (((∅ : GoMap Bytes).insert
          (lit "text/html") (lit "text")).insert (lit "text/plain") (lit "text")) := by
  have hties : ∀ t ∈ acceptedTypes (tiedAccept.getHeader (lit "Accept")),
      ∀ t' ∈ acceptedTypes (tiedAccept.getHeader (lit "Accept")), t.quality = t'.quality →
        ∀ x y, (((∅ : GoMap Bytes).insert (lit "text/html") (lit "text")).insert
            (lit "text/plain") (lit "text")).lookup t.mimeType = some x →
          (((∅ : GoMap Bytes).insert (lit "text/html") (lit "text")).insert
            (lit "text/plain") (lit "text")).lookup t'.mimeType = some y → x = y := by
    intro t _ t' _ _ x y hx hy
    have hall : ∀ k v, (((∅ : GoMap Bytes).insert (lit "text/html") (lit "text")).insert
        (lit "text/plain") (lit "text")).lookup k = some v → v = lit "text" := by
      intro k v hv
      by_cases h₁ : k = lit "text/plain"
      · subst h₁
        rw [AList.lookup_insert] at hv
        exact (Option.some.inj hv).symm
      · rw [AList.lookup_insert_ne h₁] at hv
        by_cases h₂ : k = lit "text/html"
        · subst h₂
          rw [AList.lookup_insert] at hv
          exact (Option.some.inj hv).symm
        · rw [AList.lookup_insert_ne h₂, AList.lookup_empty] at hv
          cases hv
    rw [hall _ _ hx, hall _ _ hy]
  exact ⟨hties, negotiateResponseType_sort_independent _ _ _ _ hties⟩

set_option maxRecDepth 2000 in
/-- The two orders of a tie answered differently. -/
theorem negotiateResponseType_depends_on_tie_order :
    negotiateResponseType .insertion tiedAccept (((∅ : GoMap Bytes).insert (lit "text/html")
        (lit "html")).insert (lit "text/plain") (lit "plain")) = .ok (lit "html") ∧
      negotiateResponseType .reverseInsertion tiedAccept (((∅ : GoMap Bytes).insert
        (lit "text/html") (lit "html")).insert (lit "text/plain") (lit "plain")) =
        .ok (lit "plain") :=
  ⟨rfl, rfl⟩

set_option maxRecDepth 2000 in
/-- JSON at quality 0.5 and HTML at the default quality 1, both supported: whatever order
`sort.Slice` leaves, the answer is JSON. -/
theorem negotiateResponseType_prefers_lower_quality (sort : QualitySort) :
    negotiateResponseType sort
        (.ofHeaders ((∅ : GoMap Bytes).insert (lit "Accept") (lit "application/json;q=0.5, text/html")))
        (((∅ : GoMap Bytes).insert (lit "application/json") (lit "json")).insert
          (lit "text/html") (lit "html")) = .ok (lit "json") := by
  have hacc : acceptedTypes (Context.getHeader (.ofHeaders ((∅ : GoMap Bytes).insert
      (lit "Accept") (lit "application/json;q=0.5, text/html"))) (lit "Accept")) =
      [⟨lit "application/json", 2 ^ 148⟩, ⟨lit "text/html", float32One⟩] :=
    rfl
  rcases negotiateResponseType_cases sort (.ofHeaders ((∅ : GoMap Bytes).insert (lit "Accept")
      (lit "application/json;q=0.5, text/html"))) (((∅ : GoMap Bytes).insert
        (lit "application/json") (lit "json")).insert (lit "text/html") (lit "html")) with
    ⟨t, ht, answer, hat, hmin, heq⟩ | ⟨hnone, -⟩
  · rw [heq]
    rw [hacc] at ht hmin
    simp only [List.mem_cons, List.mem_singleton, List.not_mem_nil, or_false] at ht
    rcases ht with rfl | rfl
    · -- JSON, the lowest
      exact congrArg _ (Option.some.inj (hat.symm.trans (show _ = some (lit "json") from rfl)))
    · -- HTML is not the lowest: JSON is supported and below it
      exact absurd (hmin _ (List.mem_cons_self _ _) (by decide)) (by decide)
  · rw [hacc] at hnone
    exact absurd (hnone _ (List.mem_cons_self _ _)) (by decide)

/-- `ErrUnsupportedRequestType`, with the header it was given. -/
structure ErrUnsupportedRequestType where
  contentType : Bytes
deriving DecidableEq, Repr

/-- `NegotiateRequestType`: the supported type under the `Content-Type` header.  The loop over
the map stops at the key equal to the header, and keys are distinct, so it is the lookup. -/
def negotiateRequestType (c : Context) (supportedTypes : GoMap Bytes) :
    Except ErrUnsupportedRequestType Bytes :=
  let contentType := c.getHeader (lit "Content-Type")
  match supportedTypes.lookup contentType with
  | some answer => .ok answer
  | none => .error ⟨contentType⟩

/-- `VersionedHandler`: the aliases of a mime type, and its handler. -/
structure VersionedHandler (H : Type) where
  mimeTypeAliases : List Bytes
  handler : H

/-- The mime type a handler is registered under, and its aliases: the keys of `supportedTypes`
it writes. -/
def VersionedHandler.keys {H : Type} (v : VersionedHandler H) (mimeType : Bytes) : List Bytes :=
  mimeType :: v.mimeTypeAliases

/-- Every key the loop below writes. -/
def supportedKeys {H : Type} (order : List (Σ _ : Bytes, VersionedHandler H)) : List Bytes :=
  order.flatMap fun e => e.2.keys e.1

@[simp] theorem supportedKeys_nil {H : Type} :
    supportedKeys ([] : List (Σ _ : Bytes, VersionedHandler H)) = [] :=
  rfl

@[simp] theorem supportedKeys_cons {H : Type} (e : Σ _ : Bytes, VersionedHandler H)
    (rest : List (Σ _ : Bytes, VersionedHandler H)) :
    supportedKeys (e :: rest) = e.2.keys e.1 ++ supportedKeys rest :=
  rfl

/-- The loop of `NegotiateVersion` that maps each mime type and each of its aliases to the mime
type, over the handlers in the order Go ranges over them; a later write wins. -/
def supportedTypesOf {H : Type} : GoMap Bytes → List (Σ _ : Bytes, VersionedHandler H) → GoMap Bytes
  | m, [] => m
  | m, ⟨mimeType, v⟩ :: rest =>
    supportedTypesOf (v.mimeTypeAliases.foldl (fun m a => m.insert a mimeType)
      (m.insert mimeType mimeType)) rest

/-- The errors of `NegotiateVersion`. -/
inductive NegotiateVersionError where
  | request (e : ErrUnsupportedRequestType)
  | response (e : ErrUnsupportedResponseType)
  | mismatch (requestType responseType : Bytes)
deriving DecidableEq, Repr

/-- `NegotiateVersion`, ranging over `handlers` in the order `order`; the handler is `none` for
the nil function a missing key gives. -/
def negotiateVersion {H : Type} (sort : QualitySort) (c : Context)
    (handlers : GoMap (VersionedHandler H)) (order : List (Σ _ : Bytes, VersionedHandler H)) :
    Except NegotiateVersionError (Option H) :=
  let supportedTypes := supportedTypesOf ∅ order
  match negotiateRequestType c supportedTypes with
  | .error e => .error (.request e)
  | .ok reqType =>
    match negotiateResponseType sort c supportedTypes with
    | .error e => .error (.response e)
    | .ok respType =>
      if reqType ≠ respType then .error (.mismatch reqType respType)
      else .ok ((handlers.lookup respType).map (·.handler))

theorem lookup_foldl_insert (t k : Bytes) :
    ∀ (aliases : List Bytes) (m : GoMap Bytes),
      (aliases.foldl (fun m a => m.insert a t) m).lookup k =
        if k ∈ aliases then some t else m.lookup k
  | [], m => by simp
  | a :: rest, m => by
    rw [List.foldl_cons, lookup_foldl_insert t k rest]
    by_cases hk : k = a
    · subst hk; simp [AList.lookup_insert]
    · simp [hk, AList.lookup_insert_ne hk]

/-- The writes for one handler. -/
theorem lookup_writeKeys {H : Type} (k mimeType : Bytes) (v : VersionedHandler H)
    (m : GoMap Bytes) :
    (v.mimeTypeAliases.foldl (fun m a => m.insert a mimeType) (m.insert mimeType mimeType)).lookup
        k =
      if k ∈ v.keys mimeType then some mimeType else m.lookup k := by
  rw [lookup_foldl_insert]
  by_cases hk : k = mimeType
  · subst hk; simp [VersionedHandler.keys, AList.lookup_insert]
  · simp [VersionedHandler.keys, hk, AList.lookup_insert_ne hk]

/-- With no key written twice, the loop maps each key to the mime type that claims it, and
leaves the others as they were. -/
theorem lookup_supportedTypesOf {H : Type} (k t : Bytes) :
    ∀ (m : GoMap Bytes) (order : List (Σ _ : Bytes, VersionedHandler H)),
      (supportedKeys order).Nodup →
      ((supportedTypesOf m order).lookup k = some t ↔
        (∃ e ∈ order, k ∈ e.2.keys e.1 ∧ t = e.1) ∨ (k ∉ supportedKeys order ∧ m.lookup k = some t))
  | m, [], _ => by simp [supportedTypesOf]
  | m, ⟨mimeType, v⟩ :: rest, hnd => by
    rw [supportedKeys_cons, List.nodup_append] at hnd
    obtain ⟨-, hnd, hdisj⟩ := hnd
    rw [supportedTypesOf, lookup_supportedTypesOf k t _ rest hnd, lookup_writeKeys]
    by_cases hk : k ∈ v.keys mimeType
    · -- the key is this handler's: no later handler claims it
      have hrest : k ∉ supportedKeys rest := hdisj hk
      have hnone : ¬ ∃ e ∈ rest, k ∈ e.2.keys e.1 ∧ t = e.1 := fun ⟨e, he, hke, _⟩ =>
        hrest (List.mem_flatMap.mpr ⟨e, he, hke⟩)
      simp [hk, hrest, hnone, eq_comm]
    · simp [hk]

/-- Every value the loop writes is the mime type of one of the handlers. -/
theorem lookup_supportedTypesOf_mem {H : Type} {k t : Bytes} :
    ∀ {m : GoMap Bytes} {order : List (Σ _ : Bytes, VersionedHandler H)},
      (supportedTypesOf m order).lookup k = some t → m.lookup k = some t ∨ ∃ e ∈ order, t = e.1
  | _, [], h => .inl h
  | m, ⟨mimeType, v⟩ :: rest, h => by
    rw [supportedTypesOf] at h
    rcases lookup_supportedTypesOf_mem h with h | ⟨e, he, rfl⟩
    · rw [lookup_writeKeys] at h
      split at h
      · exact .inr ⟨⟨mimeType, v⟩, List.mem_cons_self _ _, (Option.some.inj h).symm⟩
      · exact .inl h
    · exact .inr ⟨e, List.mem_cons_of_mem _ he, rfl⟩

/-- With distinct keys, the loop writes the same map, up to the order of its entries, whatever
the order it ranges in. -/
theorem lookup_supportedTypesOf_perm {H : Type} {o₁ o₂ : List (Σ _ : Bytes, VersionedHandler H)}
    (hperm : o₁.Perm o₂) (hnd : (supportedKeys o₁).Nodup) (k : Bytes) :
    (supportedTypesOf ∅ o₁).lookup k = (supportedTypesOf ∅ o₂).lookup k := by
  have hnd₂ : (supportedKeys o₂).Nodup := (hperm.flatMap_right _).nodup_iff.mp hnd
  refine Option.ext fun t => ?_
  rw [Option.mem_def, Option.mem_def, lookup_supportedTypesOf k t _ _ hnd,
    lookup_supportedTypesOf k t _ _ hnd₂]
  simp only [hperm.mem_iff, AList.lookup_empty, reduceCtorEq, and_false, or_false]

theorem firstSupported_congr {s₁ s₂ : GoMap Bytes} (h : ∀ k, s₁.lookup k = s₂.lookup k) :
    ∀ l : List AcceptedType, firstSupported s₁ l = firstSupported s₂ l
  | [] => rfl
  | t :: rest => by simp only [firstSupported, h, firstSupported_congr h rest]

/-- `NegotiateVersion` reads the map it builds only through lookups. -/
theorem negotiateVersion_congr {H : Type} (sort : QualitySort) (c : Context)
    (handlers : GoMap (VersionedHandler H)) {o₁ o₂ : List (Σ _ : Bytes, VersionedHandler H)}
    (h : ∀ k, (supportedTypesOf ∅ o₁).lookup k = (supportedTypesOf ∅ o₂).lookup k) :
    negotiateVersion sort c handlers o₁ = negotiateVersion sort c handlers o₂ := by
  simp only [negotiateVersion, negotiateRequestType, negotiateResponseType, h,
    firstSupported_congr h]

/-- Two versions of an object that both answer plain JSON, and only the first that does. -/
def sharedAliasHandlers : GoMap (VersionedHandler Nat) :=
  ((∅ : GoMap (VersionedHandler Nat)).insert (lit "application/vnd.v1+json")
    ⟨[lit "application/json"], 1⟩).insert (lit "application/vnd.v2+json")
      ⟨[lit "application/json"], 2⟩

def distinctAliasHandlers : GoMap (VersionedHandler Nat) :=
  ((∅ : GoMap (VersionedHandler Nat)).insert (lit "application/vnd.v1+json")
    ⟨[lit "application/json"], 1⟩).insert (lit "application/vnd.v2+json") ⟨[], 2⟩

/-- A request that sends and accepts plain JSON. -/
def jsonRequest : Context :=
  .ofHeaders (((∅ : GoMap Bytes).insert (lit "Content-Type") (lit "application/json")).insert
    (lit "Accept") (lit "application/json"))

/-- When no mime type or alias is claimed twice, `NegotiateVersion` gives the same result for
every order Go may range over the handlers in. -/
theorem negotiateVersion_order_independent {H : Type} (sort : QualitySort) (c : Context)
    (handlers : GoMap (VersionedHandler H)) {o₁ o₂ : List (Σ _ : Bytes, VersionedHandler H)}
    (h₁ : o₁.Perm handlers.entries) (h₂ : o₂.Perm handlers.entries)
    (hdistinct : (supportedKeys handlers.entries).Nodup) :
    negotiateVersion sort c handlers o₁ = negotiateVersion sort c handlers o₂ :=
  negotiateVersion_congr sort c handlers (lookup_supportedTypesOf_perm (h₁.trans h₂.symm)
    ((h₁.flatMap_right _).nodup_iff.mpr hdistinct))

theorem negotiateVersion_order_independent_json :
    distinctAliasHandlers.entries.Perm distinctAliasHandlers.entries ∧
      distinctAliasHandlers.entries.reverse.Perm distinctAliasHandlers.entries ∧
      (supportedKeys distinctAliasHandlers.entries).Nodup ∧
      negotiateVersion .insertion jsonRequest distinctAliasHandlers
          distinctAliasHandlers.entries =
        negotiateVersion .insertion jsonRequest distinctAliasHandlers
          distinctAliasHandlers.entries.reverse :=
  ⟨.refl _, List.reverse_perm _, by decide,
    negotiateVersion_order_independent _ _ _ (.refl _) (List.reverse_perm _) (by decide)⟩

/-- Without the distinct keys the order matters: when two versions share an alias, the handler
that answers depends on the order Go ranges over the map in, the alias going to the version
written last.  (A one-entry `Accept` header is sorted alike by every sort.) -/
theorem negotiateVersion_depends_on_range_order :
    sharedAliasHandlers.entries.reverse.Perm sharedAliasHandlers.entries ∧
      negotiateVersion .insertion jsonRequest sharedAliasHandlers sharedAliasHandlers.entries =
        .ok (some 1) ∧
      negotiateVersion .insertion jsonRequest sharedAliasHandlers
          sharedAliasHandlers.entries.reverse = .ok (some 2) :=
  ⟨List.reverse_perm _, rfl, rfl⟩

/-- A nil error comes with the handler of a registered mime type, never a nil one. -/
theorem negotiateVersion_ok {H : Type} {sort : QualitySort} {c : Context}
    {handlers : GoMap (VersionedHandler H)} {order : List (Σ _ : Bytes, VersionedHandler H)}
    (hperm : order.Perm handlers.entries) {r : Option H}
    (h : negotiateVersion sort c handlers order = .ok r) :
    ∃ mimeType v, handlers.lookup mimeType = some v ∧ r = some v.handler := by
  unfold negotiateVersion at h
  dsimp only at h
  split at h
  · cases h
  split at h
  · cases h
  next respType hresp =>
  split at h
  · cases h
  cases h
  obtain ⟨t, -, ht, -⟩ := negotiateResponseType_lowest hresp
  obtain hnil | ⟨e, he, rfl⟩ := lookup_supportedTypesOf_mem ht
  · simp at hnil
  · have hv := AList.mem_lookup_iff.mpr (hperm.subset he)
    exact ⟨e.1, e.2, hv, by rw [hv]; rfl⟩

theorem negotiateVersion_ok_json :
    distinctAliasHandlers.entries.Perm distinctAliasHandlers.entries ∧
      negotiateVersion .insertion jsonRequest distinctAliasHandlers distinctAliasHandlers.entries =
        .ok (some 1) ∧
      ∃ mimeType v, distinctAliasHandlers.lookup mimeType = some v ∧ some 1 = some v.handler :=
  ⟨.refl _, rfl, @negotiateVersion_ok Nat .insertion jsonRequest _ _ (.refl _) _ rfl⟩

end Toolbox.Gin
