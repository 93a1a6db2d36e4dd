import Toolbox.Gin.Context

/-
`RedisSession` keeps session data in Redis under an id the application looks up, for
`options.TTL`.  A `GET` that finds the key returns a nil error, and the middleware takes every
error other than `redis.Nil`, nil included, for a failure: it then asks the nil error for its
message and panics.  So a session is served again only once its key has expired: with a TTL of
zero, never.
-/

namespace Toolbox.Gin

/-- A key on a Redis server: its value and, for a key set with an expiry, the instant of the
server's clock, in milliseconds, after which it is gone. -/
abbrev RedisStore := GoMap (Bytes × Option Nat)

/-- Whether the key holds a value at the instant `now`: Redis drops a key once its clock is past
the expiry. -/
def RedisStore.live (store : RedisStore) (key : Bytes) (now : Nat) : Bool :=
  match store.lookup key with
  | some (_, expiry) => expiry.all (now ≤ ·)
  | none => false

/-- The calls `RedisSession` makes on its `*redis.Client`, against the server's data. -/
structure RedisClient where
  /-- `Client.Get(ctx, key).Result()`. -/
  get : RedisStore → Bytes → Bytes × GoError
  /-- `Client.Set(ctx, key, value, expiration).Err()`, the expiration a `time.Duration` in
  nanoseconds, with the data after it. -/
  set : RedisStore → Bytes → Bytes → Int → RedisStore × GoError

/-- The milliseconds go-redis asks for a positive expiration: `PX` of its whole milliseconds, one
at least (`formatMs`), or `EX` of its seconds when it is a whole number of them, the same time. -/
def expirationMillis (expiration : Int) : Nat := max 1 (expiration / 1000000).toNat

/-- A server that answers every call, its clock reading `getAt` at the `GET` and `setAt` at the
`SET`: `GET` gives a live key's value, else `redis.Nil`; `SET` stores the value with the expiry
the expiration asks for: `PX` for a positive one, the key's own for `KeepTTL` (-1), none for the
others. -/
def RedisClient.reliable (getAt setAt : Nat) : RedisClient where
  get store key :=
    match store.lookup key with
    | some (value, expiry) => if expiry.all (getAt ≤ ·) then (value, none) else ([], some .redisNil)
    | none => ([], some .redisNil)
  set store key value expiration :=
    let expiry :=
      if 0 < expiration then some (setAt + expirationMillis expiration)
      else if expiration = -1 then
        match store.lookup key with
        | some (_, expiry) => if expiry.all (setAt ≤ ·) then expiry else none
        | none => none
      else none
    (store.insert key (value, expiry), none)

/-- `RedisSessionOptions`, the client apart; `ttl` is `TTL`, a `time.Duration` in nanoseconds. -/
structure RedisSessionOptions where
  enableErrorCodeHeader : Bool
  enableErrorMessageHeader : Bool
  errorHandler : Option ErrorHandler
  sessionIDLookupHandler : Context → Context × Bytes × GoError
  ttl : Int

/-- The `middlewareOptions` methods of `RedisSessionOptions`. -/
def RedisSessionOptions.toMiddlewareOptions (o : RedisSessionOptions) : MiddlewareOptions :=
  ⟨lit "X-Redis-Session-Error-Code", o.enableErrorCodeHeader, o.enableErrorMessageHeader⟩

/-- A failure before `c.Next()`: the error headers, the log line that calls `err.Error()`, and
then abort with 500 or the `ErrorHandler`. -/
def RedisSessionOptions.fail (o : RedisSessionOptions) (next : Context → Context) (c : Context)
    (code : Bytes) (err : GoError) : Option Context :=
  (setErrorHeaders c o.toMiddlewareOptions code err).bind fun c =>
    (errorText err).map fun _ => onError o.errorHandler next 500 c code err

/-- A failure on a non-nil error does not panic. -/
theorem RedisSessionOptions.fail_isSome (o : RedisSessionOptions) (next : Context → Context)
    (c : Context) (code : Bytes) (e : ErrorValue) : (o.fail next c code (some e)).isSome := by
  obtain ⟨c', hc'⟩ :=
    Option.isSome_iff_exists.mp (setErrorHeaders_isSome c o.toMiddlewareOptions code e)
  simp [RedisSessionOptions.fail, hc', errorText]

/-- The session data the downstream handlers left in the context, `"{}"` unless a string. -/
def sessionData (c : Context) : Bytes :=
  match c.get keySessionData with
  | some (.string s) => s
  | _ => lit "{}"

/-- `RedisSession` on one request, against the server's data: the context and the data after
the request, or `none` for a panic. -/
def redisSession (o : RedisSessionOptions) (client : RedisClient) (next : Context → Context)
    (store : RedisStore) (c : Context) : Option (Context × RedisStore) :=
  let (c, id, err) := o.sessionIDLookupHandler c
  if err ≠ none then (o.fail next c (lit "get-session-id-failure") err).map (·, store)
  else
    let err := (client.get store id).2
    -- only `redis.Nil` goes on, with empty session data; a nil error is taken for a failure
    if err ≠ some .redisNil then (o.fail next c (lit "get-session-data-failure") err).map (·, store)
    else
      let c := next ((c.set keySessionID (.string id)).set keySessionData (.string (lit "{}")))
      match client.set store id (sessionData c) o.ttl with
      | (store, none) => some (c, store)
      | (store, some e) =>
        (setErrorHeaders c o.toMiddlewareOptions (lit "store-session-data-failure") (some e)).map
          fun c =>
            (match o.errorHandler with
              | none => c.abortWithStatus 500
              | some h => (h c (lit "store-session-data-failure") (some e)).1, store)

section Reliable

variable {getAt setAt now : Nat} {store : RedisStore} {key : Bytes}

theorem RedisStore.live_insert_self (store : RedisStore) (key : Bytes) (value : Bytes)
    (expiry : Option Nat) (now : Nat) :
    RedisStore.live (store.insert key (value, expiry)) key now = expiry.all (now ≤ ·) := by
  simp [RedisStore.live, AList.lookup_insert]

theorem RedisStore.live_insert_ne {key' : Bytes} (h : key' ≠ key) (x : Bytes × Option Nat)
    (now : Nat) :
    RedisStore.live (store.insert key x) key' now = RedisStore.live store key' now := by
  simp [RedisStore.live, AList.lookup_insert_ne h]

/-- A key gone at an instant stays gone. -/
theorem RedisStore.live_eq_false_of_le (h : RedisStore.live store key now = false) {later : Nat}
    (hle : now ≤ later) : RedisStore.live store key later = false := by
  unfold RedisStore.live at h ⊢
  cases hk : store.lookup key with
  | none => rfl
  | some x =>
    rcases x with ⟨_, _ | expiry⟩ <;>
      simp only [hk, Option.all_none, Option.all_some, decide_eq_false_iff_not, Nat.not_le,
        Bool.true_eq_false] at h ⊢
    omega

theorem reliable_get_snd (store : RedisStore) (key : Bytes) :
    ((RedisClient.reliable getAt setAt).get store key).2 =
      if RedisStore.live store key getAt then none else some .redisNil := by
  cases hk : store.lookup key with
  | none => simp [RedisClient.reliable, RedisStore.live, hk]
  | some x =>
    by_cases h : x.2.all (getAt ≤ ·) <;> simp [RedisClient.reliable, RedisStore.live, hk, h]

/-- A `SET` of a key gone at the instant of the `SET` gives it the expiry the expiration asks for,
`KeepTTL` having none to keep. -/
theorem reliable_set_of_live_eq_false (h : RedisStore.live store key setAt = false)
    (value : Bytes) (expiration : Int) :
    (RedisClient.reliable getAt setAt).set store key value expiration =
      (store.insert key (value,
        if 0 < expiration then some (setAt + expirationMillis expiration) else none), none) := by
  simp only [RedisClient.reliable]
  split_ifs with hpos hkeep
  · rfl
  · unfold RedisStore.live at h
    rcases hk : store.lookup key with _ | ⟨_, expiry⟩
    · rfl
    · simp only [hk] at h
      simp [h]
  · rfl

variable (o : RedisSessionOptions) (next : Context → Context) (c c' : Context) (id : Bytes)

/-- A request whose session is gone from the server gets empty session data and stores what the
downstream handlers leave, with the TTL's expiry from the `SET`. -/
theorem redisSession_of_live_eq_false (hid : o.sessionIDLookupHandler c = (c', id, none))
    (hget : RedisStore.live store id getAt = false)
    (hset : RedisStore.live store id setAt = false) :
    redisSession o (.reliable getAt setAt) next store c =
      some (next ((c'.set keySessionID (.string id)).set keySessionData (.string (lit "{}"))),
        store.insert id (sessionData
          (next ((c'.set keySessionID (.string id)).set keySessionData (.string (lit "{}")))),
          if 0 < o.ttl then some (setAt + expirationMillis o.ttl) else none)) := by
  simp [redisSession, hid, reliable_get_snd, hget, reliable_set_of_live_eq_false hset]

/-- A request whose session is live on the server panics: `GET` succeeds with a nil error, which
the middleware takes for a failure and asks for its message. -/
theorem redisSession_of_live (hid : o.sessionIDLookupHandler c = (c', id, none))
    (hlive : RedisStore.live store id getAt = true) :
    redisSession o (.reliable getAt setAt) next store c = none := by
  simp [redisSession, hid, reliable_get_snd, hlive, RedisSessionOptions.fail, errorText]

end Reliable

/-- Two requests of one session a second apart, with the default TTL of zero, against a server
that answers every call, with no `ErrorHandler` and nothing downstream: the first stores `"{}"`
without an expiry, and the second panics instead of reading it back. -/
theorem redisSession_second_request_panics :
    (redisSession ⟨false, false, none, fun c => (c, lit "s", none), 0⟩ (.reliable 0 0) id ∅
        (.ofHeaders ∅)).map Prod.snd = some ((∅ : RedisStore).insert (lit "s") (lit "{}", none)) ∧
      redisSession ⟨false, false, none, fun c => (c, lit "s", none), 0⟩ (.reliable 1000 1000) id
        ((∅ : RedisStore).insert (lit "s") (lit "{}", none)) (.ofHeaders ∅) = none :=
  ⟨rfl, rfl⟩

/-- A request whose id lookup fails leaves the server's data alone and does not panic. -/
theorem redisSession_of_lookup_error (o : RedisSessionOptions) (client : RedisClient)
    (next : Context → Context) (store : RedisStore) {c c' : Context} {id : Bytes} {e : ErrorValue}
    (hid : o.sessionIDLookupHandler c = (c', id, some e)) :
    ∃ c'', redisSession o client next store c = some (c'', store) := by
  obtain ⟨c'', hc''⟩ := Option.isSome_iff_exists.mp
    (o.fail_isSome next c' (lit "get-session-id-failure") e)
  exact ⟨c'', by simp [redisSession, hid, hc'']⟩

/-- A request of a run: its context, and the server's clock at its `GET` and at its `SET`. -/
structure TimedRequest where
  context : Context
  getAt : Nat
  setAt : Nat

/-- The server's clock goes forward over a run: each request's `GET` comes before its `SET`, which
comes before every later request's `GET`. -/
def Chronological : List TimedRequest → Prop
  | [] => True
  | r :: rs => r.getAt ≤ r.setAt ∧ (∀ r' ∈ rs, r.setAt ≤ r'.getAt) ∧ Chronological rs

/-- Consecutive requests through `RedisSession` against one server that answers every call: the
contexts they leave and the server's data after them, or `none` once one panics. -/
def redisSessionRun (o : RedisSessionOptions) (next : Context → Context) :
    RedisStore → List TimedRequest → Option (List Context × RedisStore)
  | store, [] => some ([], store)
  | store, r :: rs =>
    (redisSession o (.reliable r.getAt r.setAt) next store r.context).bind fun res =>
      (redisSessionRun o next res.2 rs).map fun rest => (res.1 :: rest.1, rest.2)

/-- The session id a request's lookup finds; `none` when the lookup fails. -/
def RedisSessionOptions.foundID (o : RedisSessionOptions) (c : Context) : Option Bytes :=
  match o.sessionIDLookupHandler c with
  | (_, id, none) => some id
  | (_, _, some _) => none

theorem sublist_pair_cons_iff {a b r : TimedRequest} {rs : List TimedRequest} :
    List.Sublist [a, b] (r :: rs) ↔ List.Sublist [a, b] rs ∨ (a = r ∧ b ∈ rs) := by
  simp [List.sublist_cons_iff, and_assoc]

/-- After a request of session `id` that stored its data with the TTL's expiry, a later request
finds session `id` gone exactly when it was gone before and the TTL is positive and has passed. -/
theorem live_after_set_eq_false_iff {o : RedisSessionOptions} {store : RedisStore} {id y : Bytes}
    {value : Bytes} {getAt setAt later : Nat} (hgone : RedisStore.live store id getAt = false)
    (hle : getAt ≤ later) :
    RedisStore.live (store.insert id (value,
        if 0 < o.ttl then some (setAt + expirationMillis o.ttl) else none)) y later = false ↔
      RedisStore.live store y later = false ∧
        (y = id → 0 < o.ttl ∧ setAt + expirationMillis o.ttl < later) := by
  by_cases hy : y = id
  · subst hy
    rw [RedisStore.live_insert_self, RedisStore.live_eq_false_of_le hgone hle]
    split_ifs with hpos <;> simp [hpos]
  · simp [RedisStore.live_insert_ne hy, hy]

/-- The condition a run puts on `r :: rs` from a store is `r`'s own one and the condition on `rs`
from the store `r` leaves, when a later request finds that store as the first one but for the
expiry `r` gives its own id. -/
theorem noLiveSession_cons_iff {o : RedisSessionOptions} {store store' : RedisStore}
    {r : TimedRequest} {rs : List TimedRequest}
    (hnow : ∀ id, o.foundID r.context = some id → RedisStore.live store id r.getAt = false)
    (hstep : ∀ r₂ ∈ rs, ∀ y, o.foundID r₂.context = some y →
      (RedisStore.live store' y r₂.getAt = false ↔ RedisStore.live store y r₂.getAt = false ∧
        (o.foundID r.context = some y → 0 < o.ttl ∧ r.setAt + expirationMillis o.ttl < r₂.getAt))) :
    ((∀ r₂ ∈ rs, ∀ id, o.foundID r₂.context = some id →
        RedisStore.live store' id r₂.getAt = false) ∧
      ∀ a b, List.Sublist [a, b] rs → ∀ id, o.foundID a.context = some id →
        o.foundID b.context = some id → 0 < o.ttl ∧ a.setAt + expirationMillis o.ttl < b.getAt) ↔
    (∀ r₂ ∈ r :: rs, ∀ id, o.foundID r₂.context = some id →
        RedisStore.live store id r₂.getAt = false) ∧
      ∀ a b, List.Sublist [a, b] (r :: rs) → ∀ id, o.foundID a.context = some id →
        o.foundID b.context = some id → 0 < o.ttl ∧ a.setAt + expirationMillis o.ttl < b.getAt := by
  constructor
  · rintro ⟨hlive, hpairs⟩
    refine ⟨fun r₂ hr₂ y hy => ?_, fun a b hab y ha hb => ?_⟩
    · rcases List.mem_cons.1 hr₂ with rfl | hr₂
      · exact hnow y hy
      · exact ((hstep r₂ hr₂ y hy).1 (hlive r₂ hr₂ y hy)).1
    · rcases sublist_pair_cons_iff.1 hab with hab | ⟨rfl, hb'⟩
      · exact hpairs a b hab y ha hb
      · exact ((hstep b hb' y hb).1 (hlive b hb' y hb)).2 ha
  · rintro ⟨hlive, hpairs⟩
    refine ⟨fun r₂ hr₂ y hy => (hstep r₂ hr₂ y hy).2
      ⟨hlive r₂ (List.mem_cons_of_mem _ hr₂) y hy, fun ha =>
        hpairs r r₂ (List.cons_sublist_cons.2 (List.singleton_sublist.2 hr₂)) y ha hy⟩,
      fun a b hab => hpairs a b (hab.trans (List.sublist_cons_self _ _))⟩

/-- A run of requests against a server whose clock goes forward gets through without a panic
exactly when no request finds its session live on the server: none of the ids the lookups find
is live before the run when its request reads it, and a request reusing an earlier request's id
comes after the TTL of that request's `SET` has passed, which takes a positive TTL. -/
theorem redisSessionRun_isSome_iff (o : RedisSessionOptions) (next : Context → Context) :
    ∀ (store : RedisStore) (reqs : List TimedRequest), Chronological reqs →
      ((redisSessionRun o next store reqs).isSome ↔
        (∀ r ∈ reqs, ∀ id, o.foundID r.context = some id →
          RedisStore.live store id r.getAt = false) ∧
        ∀ r r', List.Sublist [r, r'] reqs → ∀ id, o.foundID r.context = some id →
          o.foundID r'.context = some id → 0 < o.ttl ∧ r.setAt + expirationMillis o.ttl < r'.getAt)
  | store, [], _ => by simp [redisSessionRun]
  | store, r :: rs, ⟨hgs, hlater, hrs⟩ => by
    rcases hid : o.sessionIDLookupHandler r.context with ⟨c', id, _ | e⟩
    · -- the lookup finds `id`: the request panics if it is live, else stores it
      have hf : o.foundID r.context = some id := by simp [RedisSessionOptions.foundID, hid]
      cases hlive : RedisStore.live store id r.getAt with
      | true =>
        simp only [redisSessionRun, redisSession_of_live o next r.context c' id hid hlive,
          Option.none_bind, Option.isSome_none, Bool.false_eq_true, false_iff, not_and]
        exact fun h => absurd (h r (List.mem_cons_self _ _) id hf) (by simp [hlive])
      | false =>
        have hset := RedisStore.live_eq_false_of_le hlive hgs
        simp only [redisSessionRun, redisSession_of_live_eq_false o next r.context c' id hid hlive
          hset, Option.some_bind, Option.isSome_map', redisSessionRun_isSome_iff o next _ rs hrs]
        refine noLiveSession_cons_iff (fun y hy => ?_) fun r₂ hr₂ y _ => ?_
        · rw [hf] at hy; cases hy; exact hlive
        · rw [hf, Option.some.injEq, eq_comm (a := id)]
          exact live_after_set_eq_false_iff hlive (hgs.trans (hlater r₂ hr₂))
    · -- the lookup fails: the data is left alone
      have hf : o.foundID r.context = none := by simp [RedisSessionOptions.foundID, hid]
      obtain ⟨c'', h⟩ := redisSession_of_lookup_error o (.reliable r.getAt r.setAt) next store hid
      simp only [redisSessionRun, h, Option.some_bind, Option.isSome_map',
        redisSessionRun_isSome_iff o next store rs hrs]
      exact noLiveSession_cons_iff (by simp [hf]) (by simp [hf])

/-- Two requests of session `"s"` with a TTL of one second, the second two seconds after the
first: the first stores `"{}"` until 1000 ms on the server's clock, and the second finds it gone
and stores it again. -/
theorem redisSessionRun_reuse_after_ttl :
    Chronological [⟨.ofHeaders ∅, 0, 0⟩, ⟨.ofHeaders ∅, 2000, 2000⟩] ∧
      ((redisSessionRun ⟨false, false, none, fun c => (c, lit "s", none), 1000000000⟩ id ∅
          [⟨.ofHeaders ∅, 0, 0⟩, ⟨.ofHeaders ∅, 2000, 2000⟩]).isSome ↔
        (∀ r ∈ [(⟨.ofHeaders ∅, 0, 0⟩ : TimedRequest), ⟨.ofHeaders ∅, 2000, 2000⟩], ∀ id,
          RedisSessionOptions.foundID ⟨false, false, none, fun c => (c, lit "s", none), 1000000000⟩
            r.context = some id → RedisStore.live ∅ id r.getAt = false) ∧
        ∀ r r' : TimedRequest,
          List.Sublist [r, r'] [⟨.ofHeaders ∅, 0, 0⟩, ⟨.ofHeaders ∅, 2000, 2000⟩] → ∀ id,
          RedisSessionOptions.foundID ⟨false, false, none, fun c => (c, lit "s", none), 1000000000⟩
            r.context = some id →
          RedisSessionOptions.foundID ⟨false, false, none, fun c => (c, lit "s", none), 1000000000⟩
            r'.context = some id →
          0 < (1000000000 : Int) ∧ r.setAt + expirationMillis 1000000000 < r'.getAt) ∧
      (redisSessionRun ⟨false, false, none, fun c => (c, lit "s", none), 1000000000⟩ id ∅
          [⟨.ofHeaders ∅, 0, 0⟩, ⟨.ofHeaders ∅, 2000, 2000⟩]).isSome := by
  have hc : Chronological [⟨.ofHeaders ∅, 0, 0⟩, ⟨.ofHeaders ∅, 2000, 2000⟩] := by
    simp [Chronological]
  exact ⟨hc, redisSessionRun_isSome_iff _ id ∅ _ hc, rfl⟩

end Toolbox.Gin
