import Toolbox.Gin.Context

/-
`JWTAuth` checks a bearer token in three steps: the auth service verifies it, `AuthnHandler`
authenticates the caller and `AuthzHandler` authorizes the request.  Each step that fails sets
the error headers and aborts, unless an `ErrorHandler` lets the request go on.  The
authorization step calls `AuthnHandler` in place of `AuthzHandler`: the authorization decision
is the authentication handler's, and with no `AuthnHandler` the call panics.
-/

namespace Toolbox.Gin

/-- `JWTAuthHandler`: decides on the token, with an error when it cannot. -/
abbrev JWTAuthHandler := Context → Token → Context × Bool × GoError

/-- `JWTAuthOptions`; of the cookie only its name is kept. -/
structure JWTAuthOptions where
  authnHandler : Option JWTAuthHandler
  authzHandler : Option JWTAuthHandler
  /-- `AuthService.VerifyToken`, or `none` for a nil service. -/
  authService : Option (Bytes → Token × GoError)
  cookieName : Bytes
  enableErrorCodeHeader : Bool
  enableErrorMessageHeader : Bool
  errorHandler : Option ErrorHandler
  saveToCookie : Bool

namespace JWTAuthOptions

/-- The `middlewareOptions` methods of `JWTAuthOptions`. -/
def toMiddlewareOptions (o : JWTAuthOptions) : MiddlewareOptions :=
  ⟨lit "X-JWT-Auth-Error-Code", o.enableErrorCodeHeader, o.enableErrorMessageHeader⟩

/-- A failed step: the error headers for `headerErr`, then abort with `status` or call the
`ErrorHandler` with `err`.  The log lines only read non-nil errors. -/
def fail (o : JWTAuthOptions) (next : Context → Context) (status : Nat) (c : Context)
    (code : Bytes) (headerErr err : GoError) : Option Context :=
  (setErrorHeaders c o.toMiddlewareOptions code headerErr).map fun c =>
    onError o.errorHandler next status c code err

/-- One handler step: on an error or a refusal the request ends (`.error`, holding the result
of the middleware), else it goes on with the handler's context. -/
def authStep (o : JWTAuthOptions) (next : Context → Context) (h : JWTAuthHandler)
    (failCode notCode notMsg : Bytes) (status : Nat) (c : Context) (token : Token) :
    Except (Option Context) Context :=
  match h c token with
  | (c, _, some e) => .error (o.fail next status c failCode (some e) (some e))
  | (c, true, none) => .ok c
  | (c, false, none) => .error (o.fail next status c notCode (some (.text notMsg)) none)

/-- The authentication step. -/
def authenticate (o : JWTAuthOptions) (next : Context → Context) (c : Context) (token : Token) :
    Except (Option Context) Context :=
  match o.authnHandler with
  | none => .ok c
  | some h => o.authStep next h (lit "jwt-authentication-failed") (lit "jwt-not-authenticated")
      (lit "JWT token is not authenticated") 401 c token

/-- The authorization step, as the source has it: when `AuthzHandler` is set it calls
`AuthnHandler`, which panics when that one is nil. -/
def authorize (o : JWTAuthOptions) (next : Context → Context) (c : Context) (token : Token) :
    Except (Option Context) Context :=
  match o.authzHandler with
  | none => .ok c
  | some _ =>
    match o.authnHandler with
    | none => .error none
    | some h => o.authStep next h (lit "jwt-authorized-failed") (lit "jwt-not-authorized")
        (lit "JWT token is not authorized to perform the request") 403 c token

end JWTAuthOptions

/-- `JWTAuthHeader` and `JWTAuthTokenType`. -/
def jwtAuthHeader : Bytes := lit "Authorization"

def jwtAuthTokenType : Bytes := lit "Bearer"

/-- `JWTAuth` on one request: the context after it, or `none` for a panic. -/
def jwtAuth (o : JWTAuthOptions) (next : Context → Context) (c : Context) : Option Context :=
  let authHeader := c.getHeader jwtAuthHeader
  let length := jwtAuthTokenType.length + 1
  if authHeader.length ≤ length then
    let err := some (.text (lit "authentication token is missing from request"))
    o.fail next 401 c (lit "jwt-missing-auth-token") err err
  else
    let tokenString := authHeader.drop length
    match o.authService with
    | none =>
      let err := some (.text (lit "no auth service for token verification was defined"))
      o.fail next 401 c (lit "jwt-no-auth-service-defined") err err
    | some verifyToken =>
      match verifyToken tokenString with
      | (_, some e) => o.fail next 401 c (lit "jwt-verify-token-failed") (some e) (some e)
      | (token, none) =>
        match o.authenticate next c token with
        | .error r => r
        | .ok c =>
          match o.authorize next c token with
          | .error r => r
          | .ok c =>
            let c := c.set keyJWT (.token token)
            some (next (if o.saveToCookie then c.setCookie o.cookieName tokenString else c))

/-- `AuthzHandler` is never called: the outcome is the same whichever one is set. -/
theorem jwtAuth_authzHandler_unused (o : JWTAuthOptions) (hz hz' : JWTAuthHandler)
    (next : Context → Context) (c : Context) :
    jwtAuth { o with authzHandler := some hz } next c =
      jwtAuth { o with authzHandler := some hz' } next c :=
  rfl

/-- A request with a bearer token `"tok"`. -/
def bearerRequest : Context :=
  .ofHeaders ((∅ : GoMap Bytes).insert jwtAuthHeader (lit "Bearer tok"))

/-- A service that accepts every token, and handlers that accept or reject every token. -/
def acceptAll : Bytes → Token × GoError := fun raw => (⟨raw⟩, none)

def allow : JWTAuthHandler := fun c _ => (c, true, none)

def deny : JWTAuthHandler := fun c _ => (c, false, none)

/-- With no `ErrorHandler` and an `AuthzHandler` that rejects every token: without an
`AuthnHandler` the request panics, and with one that accepts it the request reaches
`c.Next()` with the token stored, neither aborted nor answered with 403. -/
theorem jwtAuth_authz_step_calls_authn (next : Context → Context) :
    jwtAuth ⟨none, some deny, some acceptAll, [], false, false, none, false⟩ next bearerRequest =
        none ∧
      jwtAuth ⟨some allow, some deny, some acceptAll, [], false, false, none, false⟩ next
          bearerRequest =
        some (next (bearerRequest.set keyJWT (.token ⟨lit "tok"⟩))) :=
  ⟨rfl, rfl⟩

namespace JWTAuthOptions

/-- The service verifies `token` from the request: the `Authorization` header is longer than
`"Bearer "`, an auth service is set, and it returns `token` for the rest of the header with a
nil error. -/
def Verifies (o : JWTAuthOptions) (c : Context) (token : Token) : Prop :=
  jwtAuthTokenType.length + 1 < (c.getHeader jwtAuthHeader).length ∧
    ∃ verifyToken, o.authService = some verifyToken ∧
      verifyToken ((c.getHeader jwtAuthHeader).drop (jwtAuthTokenType.length + 1)) = (token, none)

theorem authStep_eq_ok_iff {o : JWTAuthOptions} {next : Context → Context} {h : JWTAuthHandler}
    {failCode notCode notMsg : Bytes} {status : Nat} {c c' : Context} {token : Token} :
    o.authStep next h failCode notCode notMsg status c token = .ok c' ↔
      h c token = (c', true, none) := by
  unfold authStep
  rcases h c token with ⟨c₁, _ | _, _ | e⟩ <;> simp [eq_comm]

theorem authenticate_ok {o : JWTAuthOptions} {next : Context → Context} {c c' : Context}
    {token : Token} (heq : o.authenticate next c token = .ok c') :
    ∀ h, o.authnHandler = some h → h c token = (c', true, none) := by
  intro h hh
  rw [authenticate, hh] at heq
  exact authStep_eq_ok_iff.1 heq

/-- The authorization step lets a request on without an `AuthnHandler` only when no
`AuthzHandler` is set. -/
theorem authorize_ok {o : JWTAuthOptions} {next : Context → Context} {c c' : Context}
    {token : Token} (heq : o.authorize next c token = .ok c') :
    o.authzHandler.isSome → o.authnHandler.isSome := by
  unfold authorize at heq
  cases hz : o.authzHandler with
  | none => simp
  | some _ =>
    cases hn : o.authnHandler with
    | none => simp [hz, hn] at heq
    | some h => simp

section NoErrorHandler

variable {o : JWTAuthOptions} (ho : o.errorHandler = none) {next : Context → Context}
include ho

/-- A failed step aborts with its status: the error headers of a non-nil error are always
written. -/
theorem fail_eq_abortWithStatus (status : Nat) (c : Context) (code : Bytes) (e : ErrorValue)
    (err : GoError) :
    ∃ c' : Context, o.fail next status c code (some e) err = some (c'.abortWithStatus status) := by
  obtain ⟨c', hc'⟩ :=
    Option.isSome_iff_exists.mp (setErrorHeaders_isSome c o.toMiddlewareOptions code e)
  exact ⟨c', by simp [fail, hc', ho, onError]⟩

/-- A handler step that stops the request had the handler fail or refuse, and aborts with the
step's status. -/
theorem authStep_error {h : JWTAuthHandler} {failCode notCode notMsg : Bytes} {status : Nat}
    {c : Context} {token : Token} {r : Option Context}
    (heq : o.authStep next h failCode notCode notMsg status c token = .error r) :
    (h c token).2 ≠ (true, none) ∧ ∃ c' : Context, r = some (c'.abortWithStatus status) := by
  unfold authStep at heq
  rcases hh : h c token with ⟨c₁, _ | _, _ | e⟩ <;>
    simp only [hh, Except.error.injEq, reduceCtorEq] at heq <;> subst heq <;>
    exact ⟨by simp, fail_eq_abortWithStatus ho ..⟩

theorem authenticate_error {c : Context} {token : Token} {r : Option Context}
    (heq : o.authenticate next c token = .error r) :
    ∃ h, o.authnHandler = some h ∧ (h c token).2 ≠ (true, none) ∧
      ∃ c' : Context, r = some (c'.abortWithStatus 401) := by
  unfold authenticate at heq
  cases hn : o.authnHandler with
  | none => simp [hn] at heq
  | some h => rw [hn] at heq; exact ⟨h, rfl, authStep_error ho heq⟩

/-- The authorization step stops a request only when an `AuthzHandler` is set: with a panic
when no `AuthnHandler` is, else aborted with 403 on the `AuthnHandler`'s failure or refusal. -/
theorem authorize_error {c : Context} {token : Token} {r : Option Context}
    (heq : o.authorize next c token = .error r) :
    o.authzHandler.isSome ∧ (o.authnHandler = none ∧ r = none ∨
      ∃ h, o.authnHandler = some h ∧ (h c token).2 ≠ (true, none) ∧
        ∃ c' : Context, r = some (c'.abortWithStatus 403)) := by
  unfold authorize at heq
  cases hz : o.authzHandler with
  | none => simp [hz] at heq
  | some _ =>
    rw [hz] at heq
    refine ⟨rfl, ?_⟩
    cases hn : o.authnHandler with
    | none => simp only [hn, Except.error.injEq] at heq; exact .inl ⟨rfl, heq.symm⟩
    | some h => rw [hn] at heq; exact .inr ⟨h, rfl, authStep_error ho heq⟩

/-- A request whose token the service does not verify is aborted with 401. -/
theorem jwtAuth_of_not_verifies {c : Context} (hv : ¬ ∃ token, o.Verifies c token) :
    ∃ c' : Context, jwtAuth o next c = some (c'.abortWithStatus 401) := by
  unfold jwtAuth
  dsimp only
  by_cases hlen : (c.getHeader jwtAuthHeader).length ≤ jwtAuthTokenType.length + 1
  · rw [if_pos hlen]
    exact fail_eq_abortWithStatus ho ..
  rw [if_neg hlen]
  cases hs : o.authService with
  | none => exact fail_eq_abortWithStatus ho ..
  | some verifyToken =>
    dsimp only
    rcases hv' : verifyToken ((c.getHeader jwtAuthHeader).drop (jwtAuthTokenType.length + 1)) with
      ⟨token, _ | e⟩ <;> dsimp only
    · exact absurd ⟨token, by omega, verifyToken, hs, hv'⟩ hv
    · exact fail_eq_abortWithStatus ho ..

end NoErrorHandler

end JWTAuthOptions

open JWTAuthOptions in
/-- With no `ErrorHandler`, `JWTAuth` never consults the `AuthzHandler`, and a request through it
ends in one of four ways, each with its cause.  It panics exactly when an `AuthzHandler` is set,
no `AuthnHandler` is, and the service verified the token.  It is aborted with 401 when the
service does not verify the token or the `AuthnHandler` fails or refuses it; with 403 when an
`AuthzHandler` is set and the `AuthnHandler`, having accepted the token, fails or refuses it when
called again; or it goes on with `c.Next()` on a context holding the verified token, once the
`AuthnHandler`, if set, has accepted that token. -/
theorem jwtAuth_outcomes (o : JWTAuthOptions) (ho : o.errorHandler = none)
    (next : Context → Context) (c : Context) :
    (∀ hz, o.authzHandler.isSome →
      jwtAuth { o with authzHandler := some hz } next c = jwtAuth o next c) ∧
    (jwtAuth o next c = none ↔
      o.authzHandler.isSome ∧ o.authnHandler = none ∧ ∃ token, o.Verifies c token) ∧
    ∀ r, jwtAuth o next c = some r →
      (∃ c' : Context, r = c'.abortWithStatus 401 ∧ ((¬ ∃ token, o.Verifies c token) ∨
        ∃ token h, o.Verifies c token ∧ o.authnHandler = some h ∧
          (h c token).2 ≠ (true, none))) ∨
      (∃ c' : Context, r = c'.abortWithStatus 403 ∧ o.authzHandler.isSome ∧
        ∃ token h c₁, o.Verifies c token ∧ o.authnHandler = some h ∧
          h c token = (c₁, true, none) ∧ (h c₁ token).2 ≠ (true, none)) ∨
      ∃ token c', o.Verifies c token ∧
        (∀ h, o.authnHandler = some h → ∃ c₁, h c token = (c₁, true, none)) ∧
        c'.get keyJWT = some (.token token) ∧ r = next c' := by
  refine ⟨fun hz hs => ?_, ?_⟩
  · rcases o with ⟨_, _ | hz', _⟩
    · cases hs
    · exact jwtAuth_authzHandler_unused _ hz hz' next c
  by_cases hv : ∃ token, o.Verifies c token
  swap
  · -- the token is not verified: 401
    obtain ⟨c', hc'⟩ := jwtAuth_of_not_verifies ho hv
    rw [hc']
    exact ⟨by simp [hv], fun r hr => .inl ⟨c', (Option.some.inj hr).symm, .inl hv⟩⟩
  obtain ⟨token, hlen, verifyToken, hs, htok⟩ := hv
  have hvt : o.Verifies c token := ⟨hlen, verifyToken, hs, htok⟩
  have hj : jwtAuth o next c =
      match o.authenticate next c token with
      | .error r => r
      | .ok c₁ =>
        match o.authorize next c₁ token with
        | .error r => r
        | .ok c₂ =>
          some (next (if o.saveToCookie then (c₂.set keyJWT (.token token)).setCookie o.cookieName
            ((c.getHeader jwtAuthHeader).drop (jwtAuthTokenType.length + 1))
            else c₂.set keyJWT (.token token))) := by
    simp only [jwtAuth, if_neg (Nat.not_le.2 hlen), hs, htok]
  rw [hj]
  cases ha : o.authenticate next c token with
  | error r =>
    -- the `AuthnHandler` fails or refuses the token: 401
    obtain ⟨h, hh, hrefuse, c', rfl⟩ := authenticate_error ho ha
    exact ⟨by simp [hh], fun r hr => .inl ⟨c', (Option.some.inj hr).symm,
      .inr ⟨token, h, hvt, hh, hrefuse⟩⟩⟩
  | ok c₁ =>
    have hauthn := authenticate_ok ha
    dsimp only
    cases hz : o.authorize next c₁ token with
    | error r =>
      obtain ⟨hzs, ⟨hn, rfl⟩ | ⟨h, hh, hrefuse, c', rfl⟩⟩ := authorize_error ho hz
      · -- no `AuthnHandler` to call: a panic
        exact ⟨by simpa [hzs, hn] using ⟨token, hvt⟩, fun r hr => Option.noConfusion hr⟩
      · -- the `AuthnHandler`, called again, fails or refuses: 403
        exact ⟨by simp [hh], fun r hr => .inr (.inl ⟨c', (Option.some.inj hr).symm, hzs, token,
          h, c₁, hvt, hh, hauthn h hh, hrefuse⟩)⟩
    | ok c₂ =>
      refine ⟨⟨nofun, fun ⟨hzs, hn, _⟩ => by simpa [hn] using authorize_ok hz hzs⟩,
        fun r hr => .inr (.inr ⟨token, _, hvt, fun h hh => ⟨c₁, hauthn h hh⟩, ?_,
          (Option.some.inj hr).symm⟩)⟩
      split <;> simp [Context.get, Context.set, Context.setCookie, AList.lookup_insert]

/-- The outcomes at a bearer token that the service and the `AuthnHandler` accept. -/
theorem jwtAuth_outcomes_bearer :
    (⟨some allow, none, some acceptAll, [], false, false, none, false⟩ :
        JWTAuthOptions).errorHandler = none ∧
      (∀ hz, (⟨some allow, none, some acceptAll, [], false, false, none, false⟩ :
          JWTAuthOptions).authzHandler.isSome →
        jwtAuth ⟨some allow, some hz, some acceptAll, [], false, false, none, false⟩ id
            bearerRequest =
          jwtAuth ⟨some allow, none, some acceptAll, [], false, false, none, false⟩ id
            bearerRequest) ∧
      (jwtAuth ⟨some allow, none, some acceptAll, [], false, false, none, false⟩ id bearerRequest =
          none ↔
        (none : Option JWTAuthHandler).isSome ∧ some allow = none ∧
          ∃ token, JWTAuthOptions.Verifies ⟨some allow, none, some acceptAll, [], false, false,
            none, false⟩ bearerRequest token) ∧
      ∀ r, jwtAuth ⟨some allow, none, some acceptAll, [], false, false, none, false⟩ id
          bearerRequest = some r →
        (∃ c' : Context, r = c'.abortWithStatus 401 ∧
          ((¬ ∃ token, JWTAuthOptions.Verifies ⟨some allow, none, some acceptAll, [], false, false,
              none, false⟩ bearerRequest token) ∨
          ∃ token h, JWTAuthOptions.Verifies ⟨some allow, none, some acceptAll, [], false, false,
              none, false⟩ bearerRequest token ∧ some allow = some h ∧
            (h bearerRequest token).2 ≠ (true, none))) ∨
        (∃ c' : Context, r = c'.abortWithStatus 403 ∧ (none : Option JWTAuthHandler).isSome ∧
          ∃ token h c₁, JWTAuthOptions.Verifies ⟨some allow, none, some acceptAll, [], false,
              false, none, false⟩ bearerRequest token ∧ some allow = some h ∧
            h bearerRequest token = (c₁, true, none) ∧ (h c₁ token).2 ≠ (true, none)) ∨
        ∃ token c', JWTAuthOptions.Verifies ⟨some allow, none, some acceptAll, [], false, false,
            none, false⟩ bearerRequest token ∧
          (∀ h, some allow = some h → ∃ c₁, h bearerRequest token = (c₁, true, none)) ∧
          c'.get keyJWT = some (.token token) ∧ r = id c' :=
  ⟨rfl, jwtAuth_outcomes _ rfl id bearerRequest⟩

end Toolbox.Gin
