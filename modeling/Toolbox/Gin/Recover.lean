import Toolbox.Gin.Context

/-
`Recover` runs the rest of the chain and recovers from a panic in it.  A broken connection is
only recorded.  Any other panic value is asserted to be an `error` (`err.(error)`) to log it and
hand it to the `RecoveryHandler`; a value of another dynamic type, such as the string of
`panic("...")`, makes that assertion panic again inside the deferred function.
-/

namespace Toolbox.Gin

/-- The value a downstream handler panics with, by its dynamic type. -/
inductive PanicValue where
  /-- A `*net.OpError` with the text of its `Error()`, and the text of its `Err` when that is an
  `*os.SyscallError`. -/
  | netOpError (msg : Bytes) (syscallErr : Option Bytes)
  /-- A value of another type that implements `error`. -/
  | error (e : ErrorValue)
  /-- A `string`. -/
  | string (s : Bytes)
  /-- A value of any other type that does not implement `error`. -/
  | other
deriving DecidableEq, Repr

/-- `err.(error)`: the value as an `error`, or `none` where the assertion panics. -/
def PanicValue.asError : PanicValue → Option ErrorValue
  | .netOpError msg _ => some (.text msg)
  | .error e => some e
  | .string _ => none
  | .other => none

/-- `strings.Contains`. -/
def contains (s substr : Bytes) : Bool := (Strings.indexOf? substr s).isSome

/-- The broken-connection test: a `*net.OpError` over an `*os.SyscallError` whose lowered text
mentions a broken pipe or a reset connection. -/
def PanicValue.brokenPipe : PanicValue → Bool
  | .netOpError _ (some se) =>
    contains (Strings.toLower se) (lit "broken pipe") ||
      contains (Strings.toLower se) (lit "connection reset by peer")
  | _ => false

/-- `RecoveryHandler`: gets the error and the stack. -/
abbrev RecoveryHandler := Context → ErrorValue → Bytes → Context

/-- The deferred function of `Recover` after a panic with `v`, the stack being `stack`: the
context after it, or `none` where it panics again. -/
def recoverPanic (handler : Option RecoveryHandler) (stack : Bytes) (c : Context)
    (v : PanicValue) : Option Context :=
  if v.brokenPipe then (v.asError.map c.error).map Context.abort
  else
    v.asError.map fun e =>
      match handler with
      | none => c
      | some h => h c e stack

/-- `Recover` on one request, the rest of the chain returning normally or panicking with a
value. -/
def recover (handler : Option RecoveryHandler) (stack : Bytes)
    (next : Context → Context × Option PanicValue) (c : Context) : Option Context :=
  match next c with
  | (c, none) => some c
  | (c, some v) => recoverPanic handler stack c v

/-- The deferred function panics again exactly on the values that are not errors. -/
theorem recoverPanic_eq_none_iff (handler : Option RecoveryHandler) (stack : Bytes) (c : Context)
    (v : PanicValue) : recoverPanic handler stack c v = none ↔ v.asError = none := by
  unfold recoverPanic
  split <;> cases v.asError <;> simp

/-- `panic("boom")` downstream of `Recover` panics again, whatever the recovery handler. -/
theorem recover_string_panic (handler : Option RecoveryHandler) (stack : Bytes) (c : Context) :
    recover handler stack (fun c => (c, some (.string (lit "boom")))) c = none :=
  rfl

end Toolbox.Gin
