import Toolbox.Go.Strings

/-
The part of a gin request that the toolbox's middlewares read and write: the request headers,
the response headers, the context keys, the errors, the cookies and the abort status.  The rest
of the handler chain after a middleware is a function `next` on the context, which `c.Next()`
runs.  Handlers that the application supplies are functions of the context that return the
context they leave behind with their result.  Logging has no effect here, except that a log line
calling `err.Error()` on a nil error panics.
-/

namespace Toolbox.Gin

/-- A non-nil Go `error` value as the middlewares handle it: `redis.Nil`, or another error with
the text its `Error()` returns. -/
inductive ErrorValue where
  | redisNil
  | text (msg : Bytes)
deriving DecidableEq, Repr

/-- `err.Error()` of a non-nil error. -/
def ErrorValue.error : ErrorValue → Bytes
  | .redisNil => lit "redis: nil"
  | .text msg => msg

/-- A Go `error`; `none` is `nil`. -/
abbrev GoError := Option ErrorValue

/-- `err.Error()`, which panics on a nil error. -/
def errorText (err : GoError) : Option Bytes := err.map ErrorValue.error

/-- A `*jwt.Token`, known by the string it was parsed from. -/
structure Token where
  raw : Bytes
deriving DecidableEq, Repr

/-- A value stored under a context key: a string, a token, or a value of another type. -/
inductive Value where
  | string (s : Bytes)
  | token (t : Token)
  | other
deriving DecidableEq, Repr

/-- `tbcontext.KeyJWT`. -/
def keyJWT : Bytes := lit "jwt"

/-- `tbcontext.KeySessionData`. -/
def keySessionData : Bytes := lit "session_data"

/-- `tbcontext.KeySessionID`. -/
def keySessionID : Bytes := lit "session_id"

/-- A `*gin.Context` as the middlewares see it. -/
structure Context where
  /-- The request's headers, which `c.GetHeader` reads. -/
  requestHeaders : GoMap Bytes
  /-- The response headers `c.Header` writes. -/
  headers : GoMap Bytes
  /-- `c.Keys`. -/
  keys : GoMap Value
  /-- `c.Errors`. -/
  errors : List ErrorValue
  /-- The cookies `c.SetCookie` writes, by name and value. -/
  cookies : List (Bytes × Bytes)
  /-- The status `c.AbortWithStatus` writes. -/
  status : Option Nat
  /-- `c.IsAborted()`. -/
  aborted : Bool

namespace Context

/-- `c.GetHeader(key)`: the request header, `""` when it is missing. -/
def getHeader (c : Context) (key : Bytes) : Bytes := (c.requestHeaders.lookup key).getD []

/-- `c.Header(key, value)`: sets a response header, or deletes it for an empty value. -/
def header (c : Context) (key value : Bytes) : Context :=
  if value = [] then { c with headers := c.headers.erase key }
  else { c with headers := c.headers.insert key value }

/-- `c.Set(key, value)`. -/
def set (c : Context) (key : Bytes) (value : Value) : Context :=
  { c with keys := c.keys.insert key value }

/-- `c.Get(key)`. -/
def get (c : Context) (key : Bytes) : Option Value := c.keys.lookup key

/-- `c.Abort()`. -/
def abort (c : Context) : Context := { c with aborted := true }

/-- `c.AbortWithStatus(code)`. -/
def abortWithStatus (c : Context) (code : Nat) : Context :=
  { c with status := some code, aborted := true }

/-- `c.Error(err)`. -/
def error (c : Context) (err : ErrorValue) : Context := { c with errors := c.errors ++ [err] }

/-- `c.SetCookie(name, value, ...)`, the cookie's other attributes left out. -/
def setCookie (c : Context) (name value : Bytes) : Context :=
  { c with cookies := c.cookies ++ [(name, value)] }

/-- A request with the given headers that no middleware has touched yet. -/
def ofHeaders (requestHeaders : GoMap Bytes) : Context :=
  ⟨requestHeaders, ∅, ∅, [], [], none, false⟩

end Context

/-- `ErrorHandler`: called with the context, an error code and the error; `true` lets the
middleware go on with `c.Next()`. -/
abbrev ErrorHandler := Context → Bytes → GoError → Context × Bool

/-- What `middlewareOptions` tells `setErrorHeaders`: the name of the error code header, and
whether to set the code and the message. -/
structure MiddlewareOptions where
  errorCodeHeader : Bytes
  setErrorCodeHeader : Bool
  setErrorMessageHeader : Bool

/-- `setErrorHeaders`.  The message goes under the error code header's name too, as the source
writes it, and taking the message of a nil error panics. -/
def setErrorHeaders (c : Context) (m : MiddlewareOptions) (code : Bytes) (err : GoError) :
    Option Context :=
  let c := if m.setErrorCodeHeader then c.header m.errorCodeHeader code else c
  if m.setErrorMessageHeader then (errorText err).map (c.header m.errorCodeHeader) else some c

/-- The end of a failed middleware: abort with `status` when there is no `ErrorHandler`, else
call it and go on with `c.Next()` when it says so. -/
def onError (handler : Option ErrorHandler) (next : Context → Context) (status : Nat)
    (c : Context) (code : Bytes) (err : GoError) : Context :=
  match handler with
  | none => c.abortWithStatus status
  | some h => if (h c code err).2 then next (h c code err).1 else (h c code err).1

/-- The headers of a non-nil error are always written. -/
theorem setErrorHeaders_isSome (c : Context) (m : MiddlewareOptions) (code : Bytes)
    (e : ErrorValue) : (setErrorHeaders c m code (some e)).isSome := by
  unfold setErrorHeaders
  split <;> split <;> rfl

end Toolbox.Gin
