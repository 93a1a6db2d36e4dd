import Toolbox.Gin.Context

/-
The request filters of package `middleware`: `IPFilter`, which lets a request through when the
application's `IsBannedHandler` answers true for the client's address and country, and
`RedisRateLimiter`, which asks a Redis-backed GCRA limiter to allow the request under the key the
application chooses.  The IP database and the limiter are the environment: their answers are
inputs.  The limiter stores the remaining allowance and the retry delay under context keys, with
`c.Set`, though their names are those of response headers.
-/

namespace Toolbox.Gin

open Strings Strconv

/-- `strconv.Itoa`. -/
def itoaInt (i : Int) : Bytes :=
  if i < 0 then lit "-" ++ itoa i.natAbs else itoa i.toNat

/-- What the middleware's own writes leave of the response headers: those other than its error
code header are untouched. -/
def HeadersKept (m : MiddlewareOptions) (c c' : Context) : Prop :=
  ∀ k, k ≠ m.errorCodeHeader → c'.headers.lookup k = c.headers.lookup k

theorem HeadersKept.refl (m : MiddlewareOptions) (c : Context) : HeadersKept m c c :=
  fun _ _ => rfl

theorem HeadersKept.header {m : MiddlewareOptions} {c : Context} (v : Bytes) :
    HeadersKept m c (c.header m.errorCodeHeader v) := by
  intro k hk
  unfold Context.header
  split
  · exact AList.lookup_erase_ne hk
  · exact AList.lookup_insert_ne hk

/-- `setErrorHeaders` writes the error code header and nothing else. -/
theorem setErrorHeaders_kept {c c' : Context} {m : MiddlewareOptions} {code : Bytes}
    {err : GoError} (h : setErrorHeaders c m code err = some c') :
    c' = { c with headers := c'.headers } ∧ HeadersKept m c c' := by
  have hcode : (∃ hs, (if m.setErrorCodeHeader then c.header m.errorCodeHeader code else c) =
      { c with headers := hs }) ∧
      HeadersKept m c (if m.setErrorCodeHeader then c.header m.errorCodeHeader code else c) := by
    split
    · exact ⟨by unfold Context.header; split <;> exact ⟨_, rfl⟩, HeadersKept.header code⟩
    · exact ⟨⟨_, rfl⟩, HeadersKept.refl m c⟩
  unfold setErrorHeaders at h
  dsimp only at h
  generalize (if m.setErrorCodeHeader then c.header m.errorCodeHeader code else c) = c₁ at h hcode
  obtain ⟨⟨hs, rfl⟩, hkept⟩ := hcode
  split at h
  · obtain ⟨msg, -, rfl⟩ := Option.map_eq_some'.1 h
    refine ⟨by unfold Context.header; split <;> rfl, fun k hk => ?_⟩
    exact (HeadersKept.header msg k hk).trans (hkept k hk)
  · cases h
    exact ⟨rfl, hkept⟩

/-! ### IPFilter -/

/-- `IPAddressRecord`. -/
structure IPAddressRecord where
  address : Bytes
  countryCode : Bytes
  countryName : Bytes
deriving DecidableEq, Repr

/-- `IPFilterOptions`; the database handle is known by its `Get_all`, which gives the short and
long country names of an address, or an error. -/
structure IPFilterOptions where
  clientIPLookupHandler : Option (Context → Context × Bytes × GoError)
  enableErrorCodeHeader : Bool
  enableErrorMessageHeader : Bool
  ipDBGetAll : Bytes → Except ErrorValue (Bytes × Bytes)
  isBannedHandler : Context → IPAddressRecord → Context × Bool
  errorHandler : Option ErrorHandler

namespace IPFilterOptions

/-- The `middlewareOptions` methods of `IPFilterOptions`. -/
def toMiddlewareOptions (o : IPFilterOptions) : MiddlewareOptions :=
  ⟨lit "X-IP-Filter-Error-Code", o.enableErrorCodeHeader, o.enableErrorMessageHeader⟩

/-- A failed lookup: the error headers, then abort with 500 or call the `ErrorHandler`. -/
def fail (o : IPFilterOptions) (next : Context → Context) (c : Context) (code : Bytes)
    (err : ErrorValue) : Option Context :=
  (setErrorHeaders c o.toMiddlewareOptions code (some err)).map fun c =>
    onError o.errorHandler next 500 c code (some err)

/-- The client's address: `c.ClientIP()`, or what `ClientIPLookupHandler` finds; on its error the
request ends (`.error`, holding the result of the middleware). -/
def clientIP (o : IPFilterOptions) (next : Context → Context) (c : Context) (ip : Bytes) :
    Except (Option Context) (Context × Bytes) :=
  match o.clientIPLookupHandler with
  | none => .ok (c, ip)
  | some h =>
    match h c with
    | (c, _, some err) => .error (o.fail next c (lit "client-ip-lookup-failure") err)
    | (c, ip, none) => .ok (c, ip)

end IPFilterOptions

/-- `IPFilter` on one request whose `c.ClientIP()` is `ip`: the context after it, or `none` for a
panic.  `c.Next()` runs only when `IsBannedHandler` answers true. -/
def ipFilter (o : IPFilterOptions) (ip : Bytes) (next : Context → Context) (c : Context) :
    Option Context :=
  match o.clientIP next c ip with
  | .error r => r
  | .ok (c, clientIP) =>
    match o.ipDBGetAll clientIP with
    | .error err => o.fail next c (lit "ip-location-lookup-failure") err
    | .ok (countryShort, countryLong) =>
      match o.isBannedHandler c ⟨clientIP, countryShort, countryLong⟩ with
      | (c, false) => some c
      | (c, true) => some (next c)

namespace IPFilterOptions

/-- The address is `c.ClientIP()` with no `ClientIPLookupHandler`, else the one it finds with a
nil error. -/
theorem clientIP_eq_ok_iff {o : IPFilterOptions} {next : Context → Context} {c c₁ : Context}
    {ip addr : Bytes} :
    o.clientIP next c ip = .ok (c₁, addr) ↔
      o.clientIPLookupHandler = none ∧ c₁ = c ∧ addr = ip ∨
        ∃ h, o.clientIPLookupHandler = some h ∧ h c = (c₁, addr, none) := by
  unfold clientIP
  cases o.clientIPLookupHandler with
  | none => simp [eq_comm]
  | some h => rcases hc : h c with ⟨c', ip', _ | err⟩ <;> simp [hc, eq_comm]

section NoErrorHandler

variable {o : IPFilterOptions} (ho : o.errorHandler = none) {next : Context → Context}
include ho

/-- A failed lookup writes its error code and aborts with 500. -/
theorem fail_eq_abortWithStatus (c : Context) (code : Bytes) (err : ErrorValue) :
    ∃ c', setErrorHeaders c o.toMiddlewareOptions code (some err) = some c' ∧
      o.fail next c code err = some (c'.abortWithStatus 500) := by
  obtain ⟨c', hc'⟩ :=
    Option.isSome_iff_exists.mp (setErrorHeaders_isSome c o.toMiddlewareOptions code err)
  exact ⟨c', hc', by simp [fail, hc', ho, onError]⟩

/-- The address lookup stops a request only on the `ClientIPLookupHandler`'s error, and aborts
it with 500. -/
theorem clientIP_eq_error {c : Context} {ip : Bytes} {r : Option Context}
    (heq : o.clientIP next c ip = .error r) :
    ∃ h c₁ ip' err c', o.clientIPLookupHandler = some h ∧ h c = (c₁, ip', some err) ∧
      setErrorHeaders c₁ o.toMiddlewareOptions (lit "client-ip-lookup-failure") (some err) =
        some c' ∧ r = some (c'.abortWithStatus 500) := by
  unfold clientIP at heq
  cases hh : o.clientIPLookupHandler with
  | none => simp [hh] at heq
  | some h =>
    rcases hc : h c with ⟨c₁, ip', _ | err⟩ <;> simp only [hh, hc, reduceCtorEq] at heq
    cases heq
    obtain ⟨c', hs, hf⟩ := @fail_eq_abortWithStatus o ho next c₁
      (lit "client-ip-lookup-failure") err
    exact ⟨h, c₁, ip', err, c', rfl, hc, hs, hf⟩

end NoErrorHandler

end IPFilterOptions

open IPFilterOptions in
/-- With no `ErrorHandler`, a request through `IPFilter` never panics.  It is aborted with 500,
after the error code is written, when the `ClientIPLookupHandler` fails or the database has no
country for the address.  Else `IsBannedHandler` is asked about the address and the database's
country for it, and the request goes on with `c.Next()` exactly when it answers true, `IPFilter`
leaving the context as the handler left it when it answers false. -/
theorem ipFilter_outcomes (o : IPFilterOptions) (ho : o.errorHandler = none) (ip : Bytes)
    (next : Context → Context) (c : Context) :
    (∃ h c₁ ip' err c', o.clientIPLookupHandler = some h ∧ h c = (c₁, ip', some err) ∧
      setErrorHeaders c₁ o.toMiddlewareOptions (lit "client-ip-lookup-failure") (some err) =
        some c' ∧ ipFilter o ip next c = some (c'.abortWithStatus 500)) ∨
    ∃ c₁ addr, (o.clientIPLookupHandler = none ∧ c₁ = c ∧ addr = ip ∨
        ∃ h, o.clientIPLookupHandler = some h ∧ h c = (c₁, addr, none)) ∧
      ((∃ err c', o.ipDBGetAll addr = .error err ∧
          setErrorHeaders c₁ o.toMiddlewareOptions (lit "ip-location-lookup-failure") (some err) =
            some c' ∧ ipFilter o ip next c = some (c'.abortWithStatus 500)) ∨
        ∃ short long c₂ b, o.ipDBGetAll addr = .ok (short, long) ∧
          o.isBannedHandler c₁ ⟨addr, short, long⟩ = (c₂, b) ∧
          ipFilter o ip next c = some (if b then next c₂ else c₂)) := by
  unfold ipFilter
  rcases hip : o.clientIP next c ip with r | ⟨c₁, addr⟩
  · -- the `ClientIPLookupHandler` fails
    obtain ⟨h, c₁, ip', err, c', hh, hc, hs, rfl⟩ := clientIP_eq_error ho hip
    exact .inl ⟨h, c₁, ip', err, c', hh, hc, hs, rfl⟩
  refine .inr ⟨c₁, addr, clientIP_eq_ok_iff.1 hip, ?_⟩
  dsimp only
  rcases hdb : o.ipDBGetAll addr with err | ⟨short, long⟩
  · -- the database has no country for the address
    obtain ⟨c', hs, hf⟩ := @fail_eq_abortWithStatus o ho next c₁
      (lit "ip-location-lookup-failure") err
    exact .inl ⟨err, c', rfl, hs, hf⟩
  · dsimp only
    rcases hb : o.isBannedHandler c₁ ⟨addr, short, long⟩ with ⟨c₂, _ | _⟩
    · exact .inr ⟨short, long, c₂, false, rfl, hb, rfl⟩
    · exact .inr ⟨short, long, c₂, true, rfl, hb, rfl⟩

/-- A filter that lets through clients the database places in one country. -/
def sameCountry (code : Bytes) : IPFilterOptions :=
  ⟨none, false, false, fun _ => .ok (lit "US", lit "United States"),
    fun c r => (c, r.countryCode = code), none⟩

theorem ipFilter_outcomes_us :
    (sameCountry (lit "US")).errorHandler = none ∧
      ((∃ h c₁ ip' err c', (sameCountry (lit "US")).clientIPLookupHandler = some h ∧
          h (.ofHeaders ∅) = (c₁, ip', some err) ∧
          setErrorHeaders c₁ (sameCountry (lit "US")).toMiddlewareOptions
            (lit "client-ip-lookup-failure") (some err) = some c' ∧
          ipFilter (sameCountry (lit "US")) (lit "203.0.113.7") id (.ofHeaders ∅) =
            some (c'.abortWithStatus 500)) ∨
        ∃ c₁ addr, ((sameCountry (lit "US")).clientIPLookupHandler = none ∧
            c₁ = .ofHeaders ∅ ∧ addr = lit "203.0.113.7" ∨
          ∃ h, (sameCountry (lit "US")).clientIPLookupHandler = some h ∧
            h (.ofHeaders ∅) = (c₁, addr, none)) ∧
          ((∃ err c', (sameCountry (lit "US")).ipDBGetAll addr = .error err ∧
              setErrorHeaders c₁ (sameCountry (lit "US")).toMiddlewareOptions
                (lit "ip-location-lookup-failure") (some err) = some c' ∧
              ipFilter (sameCountry (lit "US")) (lit "203.0.113.7") id (.ofHeaders ∅) =
                some (c'.abortWithStatus 500)) ∨
            ∃ short long c₂ b, (sameCountry (lit "US")).ipDBGetAll addr = .ok (short, long) ∧
              (sameCountry (lit "US")).isBannedHandler c₁ ⟨addr, short, long⟩ = (c₂, b) ∧
              ipFilter (sameCountry (lit "US")) (lit "203.0.113.7") id (.ofHeaders ∅) =
                some (if b then id c₂ else c₂))) :=
  ⟨rfl, ipFilter_outcomes _ rfl _ id _⟩

/-! ### RedisRateLimiter -/

/-- `RedisRateLimitRemainingHeader` and `RedisRateLimitRetryAfterHeader`, which `RedisRateLimiter`
uses as context keys. -/
def redisRateLimitRemainingHeader : Bytes := lit "X-Redis-Rate-Limiter-Remaining"

def redisRateLimitRetryAfterHeader : Bytes := lit "X-Redis-Rate-Limiter-Retry-After"

/-- `redis_rate.Result` as the middleware reads it; `retryAfter` in nanoseconds. -/
structure RateResult where
  allowed : Int
  remaining : Int
  retryAfter : Int
deriving DecidableEq, Repr

/-- `RedisRateLimiterOptions`; the client and the rate are those of the limiter, whose answers
`redisRateLimiter` takes. -/
structure RedisRateLimiterOptions where
  enableErrorCodeHeader : Bool
  enableErrorMessageHeader : Bool
  errorHandler : Option ErrorHandler
  keyLookupHandler : Context → Context × Bytes

namespace RedisRateLimiterOptions

/-- The `middlewareOptions` methods of `RedisRateLimiterOptions`. -/
def toMiddlewareOptions (o : RedisRateLimiterOptions) : MiddlewareOptions :=
  ⟨lit "X-Redis-Rate-Limiter-Error-Code", o.enableErrorCodeHeader, o.enableErrorMessageHeader⟩

end RedisRateLimiterOptions

/-- `RedisRateLimiter` on one request, `allow` being what `limiter.Allow` answers for a key under
the configured rate.  A refused request reaches the `ErrorHandler` with the nil error of
`Allow`, not the rate limit's. -/
def redisRateLimiter (o : RedisRateLimiterOptions) (allow : Bytes → Except ErrorValue RateResult)
    (next : Context → Context) (c : Context) : Option Context :=
  let (c, key) := o.keyLookupHandler c
  match allow key with
  | .error err =>
    (setErrorHeaders c o.toMiddlewareOptions (lit "rate-limiter-failure") (some err)).map fun c =>
      onError o.errorHandler next 500 c (lit "rate-limiter-failure") (some err)
  | .ok result =>
    let c := c.set redisRateLimitRemainingHeader (.string (itoaInt result.remaining))
    if result.allowed = 0 then
      let seconds := result.retryAfter.tdiv 1000000000
      (setErrorHeaders c o.toMiddlewareOptions (lit "rate-limited")
          (some (.text (lit "rate limit has been reached; retry in " ++ itoaInt seconds ++
            lit " second(s)")))).map fun c =>
        onError o.errorHandler next 429
          (c.set redisRateLimitRetryAfterHeader (.string (itoaInt seconds))) (lit "rate-limited")
          none
    else some (next c)

/-- With no `ErrorHandler`, a request through `RedisRateLimiter`, under the key
`KeyLookupHandler` gives, is aborted with 500 when the limiter fails, with 429 when the limiter
refuses it, and goes on with `c.Next()` only when the limiter allows it.  The remaining allowance
and the retry delay are stored under context keys, and the middleware writes no response header
but its error code header. -/
theorem redisRateLimiter_outcomes (o : RedisRateLimiterOptions) (ho : o.errorHandler = none)
    (allow : Bytes → Except ErrorValue RateResult) (next : Context → Context) (c : Context) :
    (∃ err c', allow (o.keyLookupHandler c).2 = .error err ∧
        redisRateLimiter o allow next c = some (c'.abortWithStatus 500) ∧
        HeadersKept o.toMiddlewareOptions (o.keyLookupHandler c).1 c') ∨
      (∃ result c', allow (o.keyLookupHandler c).2 = .ok result ∧ result.allowed = 0 ∧
        redisRateLimiter o allow next c = some (c'.abortWithStatus 429) ∧
        HeadersKept o.toMiddlewareOptions (o.keyLookupHandler c).1 c' ∧
        c'.get redisRateLimitRemainingHeader = some (.string (itoaInt result.remaining)) ∧
        c'.get redisRateLimitRetryAfterHeader =
          some (.string (itoaInt (result.retryAfter.tdiv 1000000000)))) ∨
      ∃ result, allow (o.keyLookupHandler c).2 = .ok result ∧ result.allowed ≠ 0 ∧
        redisRateLimiter o allow next c = some (next ((o.keyLookupHandler c).1.set
          redisRateLimitRemainingHeader (.string (itoaInt result.remaining)))) := by
  unfold redisRateLimiter
  rcases hk : o.keyLookupHandler c with ⟨c₁, key⟩
  dsimp only
  cases ha : allow key with
  | error err =>
    obtain ⟨c', hc'⟩ := Option.isSome_iff_exists.1
      (setErrorHeaders_isSome c₁ o.toMiddlewareOptions (lit "rate-limiter-failure") err)
    refine .inl ⟨err, c', rfl, ?_, (setErrorHeaders_kept hc').2⟩
    simp only [hc', Option.map_some', onError, ho]
  | ok result =>
    dsimp only
    by_cases h0 : result.allowed = 0
    · rw [if_pos h0]
      obtain ⟨c', hc'⟩ := Option.isSome_iff_exists.1 (setErrorHeaders_isSome
        (c₁.set redisRateLimitRemainingHeader (.string (itoaInt result.remaining)))
        o.toMiddlewareOptions (lit "rate-limited")
        (.text (lit "rate limit has been reached; retry in " ++
          itoaInt (result.retryAfter.tdiv 1000000000) ++ lit " second(s)")))
      obtain ⟨hframe, hkept⟩ := setErrorHeaders_kept hc'
      refine .inr (.inl ⟨result, c'.set redisRateLimitRetryAfterHeader
        (.string (itoaInt (result.retryAfter.tdiv 1000000000))), rfl, h0,
        by simp only [hc', Option.map_some', onError, ho], hkept, ?_, AList.lookup_insert _⟩)
      show (c'.keys.insert _ _).lookup _ = _
      rw [AList.lookup_insert_ne (by decide), hframe]
      exact AList.lookup_insert _
    · rw [if_neg h0]
      exact .inr (.inr ⟨result, rfl, h0, rfl⟩)

/-- A limiter keyed by one client, and a limiter that refuses for two and a half seconds. -/
def oneClient : RedisRateLimiterOptions := ⟨false, false, none, fun c => (c, lit "client")⟩

def refuseFor (retryAfter : Int) : Bytes → Except ErrorValue RateResult :=
  fun _ => .ok ⟨0, 0, retryAfter⟩

theorem redisRateLimiter_outcomes_refused :
    oneClient.errorHandler = none ∧
      ((∃ err c', refuseFor 2500000000 (oneClient.keyLookupHandler (.ofHeaders ∅)).2 = .error err ∧
          redisRateLimiter oneClient (refuseFor 2500000000) id (.ofHeaders ∅) =
            some (c'.abortWithStatus 500) ∧
          HeadersKept oneClient.toMiddlewareOptions (oneClient.keyLookupHandler (.ofHeaders ∅)).1 c') ∨
        (∃ result c', refuseFor 2500000000 (oneClient.keyLookupHandler (.ofHeaders ∅)).2 =
            .ok result ∧ result.allowed = 0 ∧
          redisRateLimiter oneClient (refuseFor 2500000000) id (.ofHeaders ∅) =
            some (c'.abortWithStatus 429) ∧
          HeadersKept oneClient.toMiddlewareOptions (oneClient.keyLookupHandler (.ofHeaders ∅)).1 c' ∧
          c'.get redisRateLimitRemainingHeader = some (.string (itoaInt result.remaining)) ∧
          c'.get redisRateLimitRetryAfterHeader =
            some (.string (itoaInt (result.retryAfter.tdiv 1000000000)))) ∨
        ∃ result, refuseFor 2500000000 (oneClient.keyLookupHandler (.ofHeaders ∅)).2 =
            .ok result ∧ result.allowed ≠ 0 ∧
          redisRateLimiter oneClient (refuseFor 2500000000) id (.ofHeaders ∅) =
            some (id ((oneClient.keyLookupHandler (.ofHeaders ∅)).1.set
              redisRateLimitRemainingHeader (.string (itoaInt result.remaining))))) :=
  ⟨rfl, redisRateLimiter_outcomes _ rfl _ id _⟩

end Toolbox.Gin
