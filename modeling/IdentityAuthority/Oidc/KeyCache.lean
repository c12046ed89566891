import IdentityAuthority.Core.Facts
import IdentityAuthority.Core.Identifiers
import IdentityAuthority.Json.Codec
import IdentityAuthority.Transition.Replay

/-!
# The key cache of the Entra verifier

Calls of `verify` share a map from tenants to entries, and an entry is locked while its keys are
fetched. A call is a sequence of segments between its awaits, and it may be cancelled at each of them;
what `verify` does before and after it looks up its key awaits nothing.
-/

namespace IdentityAuthority

open Json

/-- The member of a name, if the value is an object that has it. -/
def memberOf (name : String) : Value → Option Value
  | .object members => Value.member members name
  | _ => none

/-- The text of a member. -/
def textOf (name : String) (value : Value) : Option String :=
  (memberOf name value).bind Value.readString

/-- What the keys of a deployment are read with. -/
structure EntraKeys where
  uuids : UuidFormat
  DecodingKey : Type
  fromJwk : Value → Option DecodingKey

/-- The expected tenant of a token, with what else is expected left out. -/
structure EntraTokenProfile where
  tenant : Uuid
deriving DecidableEq

namespace EntraKeys

variable (env : EntraKeys)

/-- `EntraTokenProfile::issuer`. -/
def issuer (p : EntraTokenProfile) : String :=
  "https://login.microsoftonline.com/" ++ env.uuids.text p.tenant ++ "/v2.0"

/-- Where the keys of a tenant are. -/
def endpoint (tenant : Uuid) : String :=
  "https://login.microsoftonline.com/" ++ env.uuids.text tenant ++ "/discovery/v2.0/keys"

/-- The key that a token names, among the keys of a set. -/
def select (p : EntraTokenProfile) (kid : String) (keys : List Value) :
    Except FederationError env.DecodingKey :=
  match keys.filter fun key => decide (textOf "kid" key = some kid) with
  | [value] =>
    if decide (textOf "kty" value ≠ some "RSA") ||
        ((memberOf "use" value).any fun v => decide (v.readString ≠ some "sig")) ||
        ((memberOf "alg" value).any fun v => decide (v.readString ≠ some "RS256")) ||
        ((memberOf "issuer" value).any fun v => decide (v.readString ≠ some (env.issuer p) ∧
          v.readString ≠ some "https://login.microsoftonline.com/\x7btenantid\x7d/v2.0")) then
      .error .claims
    else
      match env.fromJwk value with
      | none => .error .claims
      | some key => .ok key
  | _ => .error .claims

end EntraKeys

/-- What a request for keys is answered: nothing or no success, something too long or unreadable, or a
document. -/
inductive KeyAnswer
  | failed
  | unreadable
  | document (value : Value)

/-- The keys of an answer. -/
def KeyAnswer.keys : KeyAnswer → Except FederationError (List Value)
  | failed => .error .unavailable
  | unreadable => .error .claims
  | document value =>
    match memberOf "keys" value with
    | some (.array keys) =>
      if keys.isEmpty || decide (128 < keys.length) then .error .claims else .ok keys
    | _ => .error .claims

/-- Keys with the instant until which they are used. -/
structure Cached where
  validUntil : ℕ
  keys : List Value

/-- The entry of a tenant: what its lock protects, and the call that holds the lock. -/
structure KeyEntry where
  cached : Option Cached
  holder : Option ℕ

/-- How far a call is. While it fetches it holds the lock of its entry, and from `queued` on it holds
the entry itself, until it ends. -/
inductive CallPhase (env : EntraKeys)
  | waiting
  | queued (entry : ℕ)
  | fetching (entry : ℕ) (endpoint : String)
  | checked (keys : List Value) (result : Except FederationError env.DecodingKey)
  | failed (error : FederationError)
  | cancelled

/-- The entry that a call holds. -/
def CallPhase.entry {env : EntraKeys} : CallPhase env → Option ℕ
  | queued entry => some entry
  | fetching entry _ => some entry
  | _ => none

/-- A call of `verify`, for a profile and the key that its token names. -/
structure KeyCall (env : EntraKeys) where
  profile : EntraTokenProfile
  kid : String
  phase : CallPhase env

/-- The cache, its calls so far and the clock, in nanoseconds. -/
structure KeyCache (env : EntraKeys) where
  now : ℕ
  entries : List KeyEntry
  keys : List (Uuid × ℕ)
  calls : List (KeyCall env)

/-- What happens to a cache. -/
inductive CacheLabel
  | verify (p : EntraTokenProfile) (kid : String)
  | tick (duration : ℕ)
  | register (i : ℕ)
  | lock (i : ℕ)
  | answer (i : ℕ) (a : KeyAnswer)
  | cancel (i : ℕ)

/-- Sixty seconds. -/
def keyLifetime : ℕ := 60 * 10 ^ 9

namespace KeyCache

variable {env : EntraKeys}

/-- An empty cache. -/
def new (now : ℕ) : KeyCache env := { now, entries := [], keys := [], calls := [] }

/-- Keys are used before their instant only. -/
def unexpired (cache : KeyCache env) (entry : KeyEntry) : Bool :=
  entry.cached.any fun cached => cache.now < cached.validUntil

/-- `Arc::strong_count`: the map and the calls that hold an entry. -/
def strongCount (cache : KeyCache env) (x : ℕ) : ℕ :=
  cache.keys.countP (fun key => key.2 = x) + cache.calls.countP (fun call => call.phase.entry = some x)

/-- An entry stays in the map while somebody else holds it, or its keys are not expired. -/
def retained (cache : KeyCache env) (key : Uuid × ℕ) : Bool :=
  decide (1 < cache.strongCount key.2) ||
    (cache.entries[key.2]?).any fun entry => entry.holder.isSome || cache.unexpired entry

/-- The call with an index goes on to a phase. -/
def move (cache : KeyCache env) (i : ℕ) (call : KeyCall env) (phase : CallPhase env) : KeyCache env :=
  { cache with calls := cache.calls.set i { call with phase } }

/-- The entry with an index is replaced. -/
def put (cache : KeyCache env) (x : ℕ) (entry : KeyEntry) : KeyCache env :=
  { cache with entries := cache.entries.set x entry }

/-- The map without the entries that nobody needs. -/
def evict (cache : KeyCache env) : KeyCache env :=
  { cache with keys := cache.keys.filter cache.retained }

/-- The map with a new entry for a tenant. -/
def insert (cache : KeyCache env) (tenant : Uuid) : KeyCache env :=
  { cache with
    entries := cache.entries ++ [⟨none, none⟩]
    keys := cache.keys ++ [(tenant, cache.entries.length)] }

/-- The segment of `key` under the lock of the map. -/
def register (cache : KeyCache env) (i : ℕ) (call : KeyCall env) : KeyCache env :=
  let kept := cache.evict
  match kept.keys.lookup call.profile.tenant with
  | some x => kept.move i call (.queued x)
  | none =>
    if 128 ≤ kept.keys.length then kept.move i call (.failed .unavailable)
    else (kept.insert call.profile.tenant).move i call (.queued kept.entries.length)

/-- The segment after the lock of an entry was taken: its keys are used, or fetched. -/
def enter (cache : KeyCache env) (i : ℕ) (call : KeyCall env) (x : ℕ) (entry : KeyEntry) :
    KeyCache env :=
  match entry.cached with
  | some cached =>
    if cache.now < cached.validUntil then
      cache.move i call (.checked cached.keys (env.select call.profile call.kid cached.keys))
    else
      (cache.put x { entry with holder := some i }).move i call
        (.fetching x (env.endpoint call.profile.tenant))
  | none =>
    (cache.put x { entry with holder := some i }).move i call
      (.fetching x (env.endpoint call.profile.tenant))

/-- The segment after the request was answered. -/
def answer (cache : KeyCache env) (i : ℕ) (call : KeyCall env) (x : ℕ) (entry : KeyEntry)
    (a : KeyAnswer) : KeyCache env :=
  match a.keys with
  | .error e => (cache.put x { entry with holder := none }).move i call (.failed e)
  | .ok keys =>
    (cache.put x { cached := some ⟨cache.now + keyLifetime, keys⟩, holder := none }).move i call
      (.checked keys (env.select call.profile call.kid keys))

/-- One step. -/
def step (cache : KeyCache env) : CacheLabel → Option (KeyCache env)
  | .verify p kid => some { cache with calls := cache.calls ++ [⟨p, kid, .waiting⟩] }
  | .tick duration => some { cache with now := cache.now + duration }
  | .register i => do
    let call ← cache.calls[i]?
    match call.phase with
    | .waiting => some (cache.register i call)
    | _ => none
  | .lock i => do
    let call ← cache.calls[i]?
    match call.phase with
    | .queued x => do
      let entry ← cache.entries[x]?
      if entry.holder.isNone then some (cache.enter i call x entry) else none
    | _ => none
  | .answer i a => do
    let call ← cache.calls[i]?
    match call.phase with
    | .fetching x _ => do
      let entry ← cache.entries[x]?
      some (cache.answer i call x entry a)
    | _ => none
  | .cancel i => do
    let call ← cache.calls[i]?
    match call.phase with
    | .waiting => some (cache.move i call .cancelled)
    | .queued _ => some (cache.move i call .cancelled)
    | .fetching x _ => do
      let entry ← cache.entries[x]?
      some ((cache.put x { entry with holder := none }).move i call .cancelled)
    | _ => none

/-- The steps, as a relation. -/
abbrev CacheStep : KeyCache env → CacheLabel → KeyCache env → Prop := Transition.Fires step

end KeyCache

end IdentityAuthority
