import Toolbox.Go.Utf8

/-
The flag values `ExcludeHTTPRequest` and `ExcludeHTTPRequests` of the `Logger` middleware,
printed as `METHOD path` and a comma-separated list of these.  `Set` reads `result[1]` of
`strings.SplitN(str, " ", 2)` without checking that there is a space, and the list's `Set` has
a value receiver, so the list it builds is assigned to its own copy and never reaches the
caller.  `regexp.Compile` is given abstractly, by the error it returns for a path, and
`strings.ToUpper` by the upper-casing of the Unicode tables.
-/

namespace Toolbox.Gin

open Strings

/-- `ExcludeHTTPRequest`. -/
structure ExcludeHTTPRequest where
  method : Bytes
  path : Bytes
deriving DecidableEq, Repr

/-- The methods `Set` accepts. -/
def httpMethods : List Bytes :=
  [lit "GET", lit "POST", lit "PUT", lit "PATCH", lit "DELETE", lit "OPTIONS"]

namespace ExcludeHTTPRequest

/-- `(*ExcludeHTTPRequest).String`. -/
def string (upperCase : Nat → Nat) (r : ExcludeHTTPRequest) : Bytes :=
  toUpperWith upperCase r.method ++ lit " " ++ r.path

/-- `(*ExcludeHTTPRequest).Set`: the receiver after the call and the error, or `none` for a
panic.  The method is written before the path is compiled, and stays when that fails. -/
def set (upperCase : Nat → Nat) (compile : Bytes → Option Bytes) (r : ExcludeHTTPRequest)
    (str : Bytes) : Option (ExcludeHTTPRequest × Option Bytes) :=
  let result := splitN str 32 2
  (sliceAt result 0).bind fun first => (sliceAt result 1).map fun second =>
    let method := trimSpace (toUpperWith upperCase first)
    let path := trimSpace second
    if method ∈ httpMethods then
      match compile path with
      | some err => ({ r with method := method }, some err)
      | none => ({ r with method := method, path := path }, none)
    else (r, some (method ++ lit ": not a valid HTTP request method"))

end ExcludeHTTPRequest

namespace ExcludeHTTPRequests

/-- `ExcludeHTTPRequests.String`. -/
def string (upperCase : Nat → Nat) (r : List ExcludeHTTPRequest) : Bytes :=
  List.intercalate [44] (r.map (·.string upperCase))

/-- The loop of `ExcludeHTTPRequests.Set`: each piece set into a fresh `ExcludeHTTPRequest{}`,
up to the first error. -/
def parse (upperCase : Nat → Nat) (compile : Bytes → Option Bytes) :
    List Bytes → Option (Except Bytes (List ExcludeHTTPRequest))
  | [] => some (.ok [])
  | req :: rest =>
    (ExcludeHTTPRequest.set upperCase compile ⟨[], []⟩ req).bind fun
      | (_, some err) => some (.error err)
      | (request, none) => (parse upperCase compile rest).map (·.map (request :: ·))

/-- `ExcludeHTTPRequests.Set` as the caller sees it: the caller's value after the call and the
error, or `none` for a panic.  `r = newRequests` assigns the method's copy of the slice header. -/
def set (upperCase : Nat → Nat) (compile : Bytes → Option Bytes) (r : List ExcludeHTTPRequest)
    (str : Bytes) : Option (List ExcludeHTTPRequest × Option Bytes) :=
  (parse upperCase compile (List.splitOn 44 str)).map fun
    | .error err => (r, some err)
    | .ok _ => (r, none)

end ExcludeHTTPRequests

/-- `Set` panics exactly on the strings with no space. -/
theorem ExcludeHTTPRequest.set_eq_none_iff (upperCase : Nat → Nat)
    (compile : Bytes → Option Bytes) (r : ExcludeHTTPRequest) (str : Bytes) :
    r.set upperCase compile str = none ↔ (32 : UInt8) ∉ str := by
  have hspace : str.indexOf? 32 = none ↔ (32 : UInt8) ∉ str := by
    simp only [List.indexOf?_eq_none_iff, beq_iff_eq]
    exact ⟨fun h hm => h _ hm rfl, fun h x hx hx32 => h (hx32 ▸ hx)⟩
  unfold ExcludeHTTPRequest.set splitN
  cases h : str.indexOf? 32 with
  | none => simpa [sliceAt] using hspace.mp h
  | some i =>
    refine iff_of_false (by simp [sliceAt, splitN]) fun hn => ?_
    rw [hspace.mpr hn] at h
    cases h

/-- Whatever the string, `ExcludeHTTPRequests.Set` leaves the caller's value as it was. -/
theorem ExcludeHTTPRequests.set_keeps_value {upperCase : Nat → Nat}
    {compile : Bytes → Option Bytes} {r : List ExcludeHTTPRequest} {str : Bytes}
    {res : List ExcludeHTTPRequest × Option Bytes}
    (h : ExcludeHTTPRequests.set upperCase compile r str = some res) : res.1 = r := by
  unfold ExcludeHTTPRequests.set at h
  obtain ⟨parsed, -, rfl⟩ := Option.map_eq_some'.mp h
  cases parsed <;> rfl

/-! ### The printed form parses back -/

theorem indexOf?_append_cons {a : UInt8} {m : Bytes} (p : Bytes) (h : a ∉ m) :
    (m ++ a :: p).indexOf? a = some m.length := by
  induction m with
  | nil => simp [List.indexOf?_cons]
  | cons b m ih =>
    have hb : ¬ (b == a) = true := fun hb => h (beq_iff_eq.mp hb ▸ List.mem_cons_self _ _)
    rw [List.cons_append, List.indexOf?_cons, if_neg hb, ih fun hm => h (List.mem_cons_of_mem _ hm)]
    rfl

/-- `SplitN` cuts `METHOD path` at the space after a method without one. -/
theorem splitN_two {m : Bytes} (p : Bytes) (h : (32 : UInt8) ∉ m) :
    splitN (m ++ lit " " ++ p) 32 2 = [m, p] := by
  rw [List.append_assoc]
  show splitN (m ++ 32 :: p) 32 2 = [m, p]
  simp only [splitN, indexOf?_append_cons p h, List.take_left, List.drop_append, List.drop_one,
    List.tail_cons]

/-- The methods are ASCII, so `strings.ToUpper` takes its ASCII path on them. -/
theorem httpMethods_plain : ∀ m ∈ httpMethods, (∀ b ∈ m, b < 0x80) ∧
    toUpper m = m ∧ trimSpace m = m ∧ (32 : UInt8) ∉ m ∧ (44 : UInt8) ∉ m := by
  decide

/-- What the round trip asks of a value: a method `Set` accepts, a path that compiles, has no
comma and no surrounding space. -/
structure ExcludeHTTPRequest.Printable (compile : Bytes → Option Bytes) (r : ExcludeHTTPRequest) :
    Prop where
  method_mem : r.method ∈ httpMethods
  compile_path : compile r.path = none
  comma_not_mem : (44 : UInt8) ∉ r.path
  trimSpace_path : trimSpace r.path = r.path

theorem ExcludeHTTPRequest.Printable.set_string {compile : Bytes → Option Bytes}
    {r : ExcludeHTTPRequest} (hr : r.Printable compile) (upperCase : Nat → Nat)
    (r' : ExcludeHTTPRequest) : r'.set upperCase compile (r.string upperCase) = some (r, none) := by
  obtain ⟨hascii, hup, htrim, hsp, -⟩ := httpMethods_plain _ hr.method_mem
  have hupper : toUpperWith upperCase r.method = r.method := by
    rw [toUpperWith_of_ascii _ hascii, hup]
  rw [ExcludeHTTPRequest.set, ExcludeHTTPRequest.string, hupper, splitN_two _ hsp]
  simp [sliceAt, hupper, htrim, hr.trimSpace_path, hr.method_mem, hr.compile_path]

theorem ExcludeHTTPRequest.Printable.comma_not_mem_string {compile : Bytes → Option Bytes}
    {r : ExcludeHTTPRequest} (hr : r.Printable compile) (upperCase : Nat → Nat) :
    (44 : UInt8) ∉ r.string upperCase := by
  obtain ⟨hascii, hup, -, -, hcomma⟩ := httpMethods_plain _ hr.method_mem
  simp only [ExcludeHTTPRequest.string, toUpperWith_of_ascii _ hascii, hup, List.mem_append,
    not_or]
  exact ⟨⟨hcomma, by decide⟩, hr.comma_not_mem⟩

theorem ExcludeHTTPRequests.parse_map_string {compile : Bytes → Option Bytes}
    (upperCase : Nat → Nat) : ∀ {L : List ExcludeHTTPRequest}, (∀ r ∈ L, r.Printable compile) →
      parse upperCase compile (L.map (·.string upperCase)) = some (.ok L)
  | [], _ => rfl
  | r :: L, hL => by
    rw [List.map_cons, parse, (hL r (List.mem_cons_self _ _)).set_string, Option.some_bind]
    dsimp only
    rw [parse_map_string upperCase fun r' hr' => hL r' (List.mem_cons_of_mem _ hr')]
    rfl

/-- The printed form of a non-empty list of printable values parses back to the list, and
`Set` returns nil on it, yet the caller's value stays what it was. -/
theorem ExcludeHTTPRequests.set_string_round_trip (upperCase : Nat → Nat)
    {compile : Bytes → Option Bytes} {L : List ExcludeHTTPRequest} (hne : L ≠ [])
    (hL : ∀ r ∈ L, r.Printable compile) (r : List ExcludeHTTPRequest) :
    parse upperCase compile (List.splitOn 44 (string upperCase L)) = some (.ok L) ∧
      set upperCase compile r (string upperCase L) = some (r, none) := by
  have hparse : parse upperCase compile (List.splitOn 44 (string upperCase L)) = some (.ok L) := by
    rw [string, List.splitOn_intercalate _ _ (fun x hx => ?_) (by simpa using hne)]
    · exact parse_map_string upperCase hL
    · obtain ⟨r, hr, rfl⟩ := List.mem_map.mp hx
      exact (hL r hr).comma_not_mem_string upperCase
  refine ⟨hparse, ?_⟩
  rw [set, hparse]
  rfl

/-- `[GET /health, POST /metrics]` with tables that keep every rune and a `regexp.Compile` that
accepts both paths. -/
theorem ExcludeHTTPRequests.set_string_round_trip_two :
    [(⟨lit "GET", lit "/health"⟩ : ExcludeHTTPRequest), ⟨lit "POST", lit "/metrics"⟩] ≠ [] ∧
      (∀ r ∈ [(⟨lit "GET", lit "/health"⟩ : ExcludeHTTPRequest), ⟨lit "POST", lit "/metrics"⟩],
        r.Printable fun _ => none) ∧
      parse id (fun _ => none) (List.splitOn 44
          (string id [⟨lit "GET", lit "/health"⟩, ⟨lit "POST", lit "/metrics"⟩])) =
          some (.ok [⟨lit "GET", lit "/health"⟩, ⟨lit "POST", lit "/metrics"⟩]) ∧
        set id (fun _ => none) []
          (string id [⟨lit "GET", lit "/health"⟩, ⟨lit "POST", lit "/metrics"⟩]) = some ([], none) :=
  have hne : [(⟨lit "GET", lit "/health"⟩ : ExcludeHTTPRequest), ⟨lit "POST", lit "/metrics"⟩] ≠
      [] := List.cons_ne_nil _ _
  have hL : ∀ r ∈ [(⟨lit "GET", lit "/health"⟩ : ExcludeHTTPRequest), ⟨lit "POST", lit "/metrics"⟩],
      r.Printable fun _ => none := by
    simp only [List.mem_cons, List.mem_singleton, List.not_mem_nil, or_false]
    rintro r (rfl | rfl) <;> exact ⟨by decide, rfl, by decide, by decide⟩
  ⟨hne, hL, set_string_round_trip id hne hL []⟩

/-- A method with no path panics, and setting the printed form of `[GET /health]` on an empty
list returns nil but leaves the list empty, whatever the tables. -/
theorem excludeHTTPRequests_set_fails :
    (∀ upperCase compile r, ExcludeHTTPRequest.set upperCase compile r (lit "GET") = none) ∧
      ∀ upperCase, ExcludeHTTPRequests.set upperCase (fun _ => none) []
          (ExcludeHTTPRequests.string upperCase [⟨lit "GET", lit "/health"⟩]) = some ([], none) :=
  ⟨fun _ _ _ => rfl, fun _ => rfl⟩

end Toolbox.Gin
