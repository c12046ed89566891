import IdentityAuthority.Oidc.KeyCache

/-!
# The key cache is bounded, coalesced and exact

An entry that a call holds stays in the map under the tenant of the call, so all calls of a tenant that
hold an entry hold the same one, and its lock admits one request at a time. What an entry caches was
fetched from the endpoint of that tenant, at an instant that its expiry tells.
-/

namespace IdentityAuthority

open Json Transition

namespace KeyCache

variable {env : EntraKeys} {cache next : KeyCache env} {label : CacheLabel} {i j x y : ℕ}
  {call other : KeyCall env} {phase : CallPhase env} {entry entry' : KeyEntry} {tenant : Uuid}
  {url : String}

/-- What holds of every state that is reached. -/
structure Coherent (cache : KeyCache env) : Prop where
  /-- The map has one entry for a tenant. -/
  tenants : (cache.keys.map Prod.fst).Nodup
  /-- The map has one tenant for an entry. -/
  slots : (cache.keys.map Prod.snd).Nodup
  /-- The map has entries that exist. -/
  inside : ∀ key ∈ cache.keys, key.2 < cache.entries.length
  /-- An entry that a call holds is the one of its tenant in the map. -/
  leased : ∀ (i : ℕ) (call : KeyCall env) (x : ℕ), cache.calls[i]? = some call →
    call.phase.entry = some x → (call.profile.tenant, x) ∈ cache.keys
  /-- A call that fetches holds the lock of its entry, and asks the endpoint of its tenant. -/
  locked : ∀ (i : ℕ) (call : KeyCall env) (x : ℕ) (url : String), cache.calls[i]? = some call →
    call.phase = .fetching x url → url = env.endpoint call.profile.tenant ∧
      ∃ entry, cache.entries[x]? = some entry ∧ entry.holder = some i
  /-- Whoever holds the lock of an entry fetches for it. -/
  fetches : ∀ (x : ℕ) (entry : KeyEntry) (i : ℕ), cache.entries[x]? = some entry →
    entry.holder = some i → ∃ call url, cache.calls[i]? = some call ∧ call.phase = .fetching x url
  /-- The map is bounded. -/
  bounded : cache.keys.length ≤ 128

section Steps

theorem calls_move (hcall : cache.calls[i]? = some other) :
    (cache.move i call phase).calls[j]? =
      if i = j then some { call with phase } else cache.calls[j]? := by
  have hi := (List.getElem?_eq_some_iff.mp hcall).1
  simp only [move, List.getElem?_set, if_pos hi]

theorem calls_put_move (hcall : cache.calls[i]? = some other) :
    ((cache.put x entry).move i call phase).calls[j]? =
      if i = j then some { call with phase } else cache.calls[j]? :=
  calls_move hcall

theorem entries_put (entry' : KeyEntry) (hentry : cache.entries[x]? = some entry) :
    (cache.put x entry').entries[y]? = if x = y then some entry' else cache.entries[y]? := by
  have hx := (List.getElem?_eq_some_iff.mp hentry).1
  simp only [put, List.getElem?_set, if_pos hx]

/-- What a step does. -/
theorem step_cases (h : CacheStep cache label next) :
    (∃ p kid, label = .verify p kid ∧
      next = { cache with calls := cache.calls ++ [⟨p, kid, .waiting⟩] }) ∨
    (∃ duration, label = .tick duration ∧ next = { cache with now := cache.now + duration }) ∨
    (∃ i call, label = .register i ∧ cache.calls[i]? = some call ∧ call.phase = .waiting ∧
      next = cache.register i call) ∨
    (∃ i call x entry, label = .lock i ∧ cache.calls[i]? = some call ∧ call.phase = .queued x ∧
      cache.entries[x]? = some entry ∧ entry.holder = none ∧ next = cache.enter i call x entry) ∨
    (∃ i a call x url entry, label = .answer i a ∧ cache.calls[i]? = some call ∧
      call.phase = .fetching x url ∧ cache.entries[x]? = some entry ∧
      next = cache.answer i call x entry a) ∨
    (∃ i call, label = .cancel i ∧ cache.calls[i]? = some call ∧
      (∀ x url, call.phase ≠ .fetching x url) ∧ (∀ keys result, call.phase ≠ .checked keys result) ∧
      next = cache.move i call .cancelled) ∨
    (∃ i call x url entry, label = .cancel i ∧ cache.calls[i]? = some call ∧
      call.phase = .fetching x url ∧ cache.entries[x]? = some entry ∧
      next = (cache.put x { entry with holder := none }).move i call .cancelled) := by
  cases label with
  | verify p kid =>
    cases h
    exact .inl ⟨p, kid, rfl, rfl⟩
  | tick duration =>
    cases h
    exact .inr (.inl ⟨duration, rfl, rfl⟩)
  | register i =>
    obtain ⟨call, hcall, h⟩ := Option.bind_eq_some_iff.mp h
    split at h
    case h_1 hphase =>
      cases h
      exact .inr (.inr (.inl ⟨i, call, rfl, hcall, hphase, rfl⟩))
    case h_2 => cases h
  | lock i =>
    obtain ⟨call, hcall, h⟩ := Option.bind_eq_some_iff.mp h
    split at h
    case h_1 x hphase =>
      obtain ⟨entry, hentry, h⟩ := Option.bind_eq_some_iff.mp h
      split at h
      case isTrue hfree =>
        cases h
        exact .inr (.inr (.inr (.inl ⟨i, call, x, entry, rfl, hcall, hphase, hentry,
          Option.isNone_iff_eq_none.mp hfree, rfl⟩)))
      case isFalse => cases h
    case h_2 => cases h
  | answer i a =>
    obtain ⟨call, hcall, h⟩ := Option.bind_eq_some_iff.mp h
    split at h
    case h_1 x url hphase =>
      obtain ⟨entry, hentry, h⟩ := Option.bind_eq_some_iff.mp h
      cases h
      exact .inr (.inr (.inr (.inr (.inl ⟨i, a, call, x, url, entry, rfl, hcall, hphase, hentry,
        rfl⟩))))
    case h_2 => cases h
  | cancel i =>
    obtain ⟨call, hcall, h⟩ := Option.bind_eq_some_iff.mp h
    split at h
    case h_1 hphase =>
      cases h
      exact .inr (.inr (.inr (.inr (.inr (.inl ⟨i, call, rfl, hcall, by simp [hphase],
        by simp [hphase], rfl⟩)))))
    case h_2 x hphase =>
      cases h
      exact .inr (.inr (.inr (.inr (.inr (.inl ⟨i, call, rfl, hcall, by simp [hphase],
        by simp [hphase], rfl⟩)))))
    case h_3 x url hphase =>
      obtain ⟨entry, hentry, h⟩ := Option.bind_eq_some_iff.mp h
      cases h
      exact .inr (.inr (.inr (.inr (.inr (.inr ⟨i, call, x, url, entry, rfl, hcall, hphase, hentry,
        rfl⟩)))))
    case h_4 => cases h

/-- A call is given the entry of its tenant, refused, or given a new entry. -/
theorem register_cases (cache : KeyCache env) (i : ℕ) (call : KeyCall env) :
    (∃ x, (call.profile.tenant, x) ∈ cache.evict.keys ∧
      cache.register i call = cache.evict.move i call (.queued x)) ∨
    (cache.evict.keys.lookup call.profile.tenant = none ∧ 128 ≤ cache.evict.keys.length ∧
      cache.register i call = cache.evict.move i call (.failed .unavailable)) ∨
    (cache.evict.keys.lookup call.profile.tenant = none ∧ cache.evict.keys.length < 128 ∧
      cache.register i call = (cache.evict.insert call.profile.tenant).move i call
        (.queued cache.evict.entries.length)) := by
  unfold register
  cases hlookup : cache.evict.keys.lookup call.profile.tenant with
  | some x =>
    obtain ⟨earlier, later, hkeys, -⟩ := List.lookup_eq_some_iff.mp hlookup
    exact .inl ⟨x, hkeys ▸ List.mem_append_right earlier List.mem_cons_self, by simp only [hlookup]⟩
  | none =>
    by_cases hfull : 128 ≤ cache.evict.keys.length
    · refine .inr (.inl ⟨rfl, hfull, ?_⟩)
      simp only [hlookup, if_pos hfull]
    · refine .inr (.inr ⟨rfl, Nat.lt_of_not_le hfull, ?_⟩)
      simp only [hlookup, if_neg hfull]

/-- A call with a lock uses keys that are not expired, or fetches. -/
theorem enter_cases (cache : KeyCache env) (i : ℕ) (call : KeyCall env) (x : ℕ) (entry : KeyEntry) :
    (∃ cached, entry.cached = some cached ∧ cache.now < cached.validUntil ∧
      cache.enter i call x entry =
        cache.move i call (.checked cached.keys (env.select call.profile call.kid cached.keys))) ∨
    cache.enter i call x entry =
      (cache.put x { entry with holder := some i }).move i call
        (.fetching x (env.endpoint call.profile.tenant)) := by
  unfold enter
  split
  case h_1 cached hcached =>
    by_cases hfresh : cache.now < cached.validUntil
    · exact .inl ⟨cached, hcached, hfresh, if_pos hfresh⟩
    · exact .inr (if_neg hfresh)
  case h_2 => exact .inr rfl

/-- An answer has keys, which are cached and used, or the call fails. -/
theorem answer_cases (cache : KeyCache env) (i : ℕ) (call : KeyCall env) (x : ℕ) (entry : KeyEntry)
    (a : KeyAnswer) :
    (∃ e, cache.answer i call x entry a =
      (cache.put x { entry with holder := none }).move i call (.failed e)) ∨
    (∃ keys, a.keys = .ok keys ∧ cache.answer i call x entry a =
      (cache.put x { cached := some ⟨cache.now + keyLifetime, keys⟩, holder := none }).move i call
        (.checked keys (env.select call.profile call.kid keys))) := by
  unfold answer
  cases hkeys : a.keys with
  | error e => exact .inl ⟨e, rfl⟩
  | ok keys => exact .inr ⟨keys, rfl, rfl⟩

end Steps

section Coherence

theorem coherent_new (now : ℕ) : (new now : KeyCache env).Coherent := by
  constructor <;> simp [new]

/-- An entry that a call holds is retained. -/
theorem retained_of_held (hcall : cache.calls[i]? = some call) (hentry : call.phase.entry = some x)
    (hkey : (tenant, x) ∈ cache.keys) : cache.retained (tenant, x) = true := by
  have hmap : 0 < cache.keys.countP (fun key => key.2 = x) :=
    List.countP_pos_iff.mpr ⟨(tenant, x), hkey, by simp⟩
  have hcalls : 0 < cache.calls.countP (fun call => call.phase.entry = some x) :=
    List.countP_pos_iff.mpr ⟨call, List.mem_of_getElem? hcall, by simp [hentry]⟩
  have hcount : 1 < cache.strongCount x := by
    unfold strongCount
    omega
  simp [retained, hcount]

/-- Eviction takes no entry that a call holds. -/
theorem Coherent.evict (h : cache.Coherent) : cache.evict.Coherent := by
  have hsub : (cache.keys.filter cache.retained).Sublist cache.keys := List.filter_sublist
  constructor
  case tenants => exact h.tenants.sublist (hsub.map Prod.fst)
  case slots => exact h.slots.sublist (hsub.map Prod.snd)
  case inside => exact fun key hkey => h.inside key (hsub.subset hkey)
  case leased =>
    intro i call x hcall hentry
    have hkey := h.leased i call x hcall hentry
    exact List.mem_filter.mpr ⟨hkey, retained_of_held hcall hentry hkey⟩
  case locked => exact h.locked
  case fetches => exact h.fetches
  case bounded => exact le_trans hsub.length_le h.bounded

/-- A call that does not fetch goes on to another phase in which it does not fetch. -/
theorem Coherent.move (h : cache.Coherent) (hcall : cache.calls[i]? = some call)
    (hbefore : ∀ x url, call.phase ≠ .fetching x url) (hafter : ∀ x url, phase ≠ .fetching x url)
    (hentry : ∀ x, phase.entry = some x → (call.profile.tenant, x) ∈ cache.keys) :
    (cache.move i call phase).Coherent := by
  constructor
  case tenants => exact h.tenants
  case slots => exact h.slots
  case inside => exact h.inside
  case leased =>
    intro j other x hother hx
    rw [calls_move hcall] at hother
    split at hother
    · cases hother
      exact hentry x hx
    · exact h.leased j other x hother hx
  case locked =>
    intro j other x url hother hx
    rw [calls_move hcall] at hother
    split at hother
    · cases hother
      exact absurd hx (hafter x url)
    · exact h.locked j other x url hother hx
  case fetches =>
    intro x entry j hx hholder
    obtain ⟨other, url, hother, hphase⟩ := h.fetches x entry j hx hholder
    refine ⟨other, url, ?_, hphase⟩
    rw [calls_move hcall, if_neg]
    · exact hother
    · rintro rfl
      rw [hcall] at hother
      cases hother
      exact hbefore x url hphase
  case bounded => exact h.bounded

/-- A tenant without an entry is given a new one, while the map has room. -/
theorem Coherent.insert (h : cache.Coherent) (hnone : cache.keys.lookup tenant = none)
    (hroom : cache.keys.length < 128) : (cache.insert tenant).Coherent := by
  have hfresh : ∀ key ∈ cache.keys, key.1 ≠ tenant := by
    intro key hkey heq
    have hlookup := List.lookup_eq_none_iff.mp hnone key hkey
    simp [heq] at hlookup
  have hkeep : ∀ {x : ℕ} {entry : KeyEntry}, cache.entries[x]? = some entry →
      (cache.insert tenant).entries[x]? = some entry := by
    intro x entry hx
    simp only [KeyCache.insert]
    rw [List.getElem?_append_left (List.getElem?_eq_some_iff.mp hx).1, hx]
  constructor
  case tenants =>
    simp only [KeyCache.insert, List.map_append, List.map_singleton]
    apply h.tenants.append (List.nodup_singleton tenant)
    intro t ht ht'
    obtain rfl := List.mem_singleton.mp ht'
    obtain ⟨key, hkey, rfl⟩ := List.mem_map.mp ht
    exact hfresh key hkey rfl
  case slots =>
    simp only [KeyCache.insert, List.map_append, List.map_singleton]
    apply h.slots.append (List.nodup_singleton _)
    intro x hx hx'
    obtain rfl := List.mem_singleton.mp hx'
    obtain ⟨key, hkey, heq⟩ := List.mem_map.mp hx
    have hlt := h.inside key hkey
    omega
  case inside =>
    intro key hkey
    simp only [KeyCache.insert, List.length_append, List.length_singleton]
    rcases List.mem_append.mp hkey with hkey | hkey
    · have hlt := h.inside key hkey
      omega
    · rw [List.mem_singleton.mp hkey]
      exact Nat.lt_succ_self _
  case leased =>
    intro i call x hcall hentry
    exact List.mem_append_left _ (h.leased i call x hcall hentry)
  case locked =>
    intro i call x url hcall hphase
    obtain ⟨hurl, entry, hentry, hholder⟩ := h.locked i call x url hcall hphase
    exact ⟨hurl, entry, hkeep hentry, hholder⟩
  case fetches =>
    intro x entry i hentry hholder
    simp only [KeyCache.insert, List.getElem?_append] at hentry
    split at hentry
    · exact h.fetches x entry i hentry hholder
    · have hnew := List.mem_of_getElem? hentry
      rw [List.mem_singleton.mp hnew] at hholder
      cases hholder
  case bounded =>
    simp only [KeyCache.insert, List.length_append, List.length_singleton]
    omega

/-- A call takes the free lock of its entry. -/
theorem Coherent.take (h : cache.Coherent) (hcall : cache.calls[i]? = some call)
    (hphase : call.phase = .queued x) (hentry : cache.entries[x]? = some entry)
    (hfree : entry.holder = none) :
    ((cache.put x { entry with holder := some i }).move i call
      (.fetching x (env.endpoint call.profile.tenant))).Coherent := by
  have hother : ∀ (j : ℕ) (other : KeyCall env) (y : ℕ) (url : String),
      cache.calls[j]? = some other → other.phase = .fetching y url → x ≠ y := by
    rintro j other y url hother hfetching rfl
    obtain ⟨-, held, hheld, hholder⟩ := h.locked j other x url hother hfetching
    rw [hentry] at hheld
    cases hheld
    rw [hfree] at hholder
    cases hholder
  constructor
  case tenants => exact h.tenants
  case slots => exact h.slots
  case inside =>
    intro key hkey
    simp only [KeyCache.move, put, List.length_set]
    exact h.inside key hkey
  case leased =>
    intro j other y hcall' hy
    rw [calls_put_move hcall] at hcall'
    split at hcall'
    · cases hcall'
      cases hy
      exact h.leased i call x hcall (by rw [hphase]; rfl)
    · exact h.leased j other y hcall' hy
  case locked =>
    intro j other y url hcall' hfetching
    rw [calls_put_move hcall] at hcall'
    split at hcall'
    case isTrue hij =>
      subst hij
      cases hcall'
      cases hfetching
      refine ⟨rfl, { entry with holder := some i }, ?_, rfl⟩
      exact (entries_put _ hentry).trans (if_pos rfl)
    case isFalse =>
      obtain ⟨hurl, held, hheld, hholder⟩ := h.locked j other y url hcall' hfetching
      refine ⟨hurl, held, ?_, hholder⟩
      exact (entries_put _ hentry).trans ((if_neg (hother j other y url hcall' hfetching)).trans hheld)
  case fetches =>
    intro y held j hheld hholder
    have hheld' := (entries_put { entry with holder := some i } hentry).symm.trans hheld
    split at hheld'
    case isTrue hxy =>
      subst hxy
      cases hheld'
      cases hholder
      exact ⟨_, _, (calls_put_move hcall).trans (if_pos rfl), rfl⟩
    case isFalse =>
      obtain ⟨other, url, hcall', hfetching⟩ := h.fetches y held j hheld' hholder
      refine ⟨other, url, ?_, hfetching⟩
      rw [calls_put_move hcall, if_neg]
      · exact hcall'
      · rintro rfl
        rw [hcall] at hcall'
        cases hcall'
        rw [hphase] at hfetching
        cases hfetching
  case bounded => exact h.bounded

/-- A call that fetched gives the lock of its entry back and ends. -/
theorem Coherent.release (h : cache.Coherent) (hcall : cache.calls[i]? = some call)
    (hphase : call.phase = .fetching x url) (hentry : cache.entries[x]? = some entry)
    (hfree : entry'.holder = none) (hends : phase.entry = none) :
    ((cache.put x entry').move i call phase).Coherent := by
  have hmine : ∀ (j : ℕ) (other : KeyCall env) (y : ℕ) (url : String), i ≠ j →
      cache.calls[j]? = some other → other.phase = .fetching y url → x ≠ y := by
    rintro j other y url' hij hother hfetching rfl
    obtain ⟨-, held, hheld, hholder⟩ := h.locked j other x url' hother hfetching
    obtain ⟨-, held', hheld', hholder'⟩ := h.locked i call x url hcall hphase
    rw [hheld] at hheld'
    cases hheld'
    rw [hholder] at hholder'
    exact hij (Option.some.inj hholder').symm
  have hnot : ∀ y url, phase ≠ .fetching y url := by
    rintro y url rfl
    cases hends
  constructor
  case tenants => exact h.tenants
  case slots => exact h.slots
  case inside =>
    intro key hkey
    simp only [KeyCache.move, put, List.length_set]
    exact h.inside key hkey
  case leased =>
    intro j other y hcall' hy
    rw [calls_put_move hcall] at hcall'
    split at hcall'
    · cases hcall'
      rw [hends] at hy
      cases hy
    · exact h.leased j other y hcall' hy
  case locked =>
    intro j other y url hcall' hfetching
    rw [calls_put_move hcall] at hcall'
    split at hcall'
    case isTrue =>
      cases hcall'
      exact absurd hfetching (hnot y url)
    case isFalse hij =>
      obtain ⟨hurl, held, hheld, hholder⟩ := h.locked j other y url hcall' hfetching
      refine ⟨hurl, held, ?_, hholder⟩
      have hxy := hmine j other y url hij hcall' hfetching
      exact (entries_put _ hentry).trans ((if_neg hxy).trans hheld)
  case fetches =>
    intro y held j hheld hholder
    have hheld' := (entries_put entry' hentry).symm.trans hheld
    split at hheld'
    case isTrue hxy =>
      cases hheld'
      rw [hfree] at hholder
      cases hholder
    case isFalse hxy =>
      obtain ⟨other, url', hcall', hfetching⟩ := h.fetches y held j hheld' hholder
      refine ⟨other, url', ?_, hfetching⟩
      rw [calls_put_move hcall, if_neg]
      · exact hcall'
      · rintro rfl
        rw [hcall] at hcall'
        cases hcall'
        rw [hphase] at hfetching
        cases hfetching
        exact hxy rfl
  case bounded => exact h.bounded

/-- A call enters the map, or is refused. -/
theorem Coherent.register (h : cache.Coherent) (hcall : cache.calls[i]? = some call)
    (hphase : call.phase = .waiting) : (cache.register i call).Coherent := by
  have hbefore : ∀ x url, call.phase ≠ .fetching x url := by simp [hphase]
  obtain ⟨x, hkey, heq⟩ | ⟨-, -, heq⟩ | ⟨hnone, hroom, heq⟩ := register_cases cache i call
  · rw [heq]
    apply h.evict.move hcall hbefore
    · simp
    · intro y hy
      cases hy
      exact hkey
  · rw [heq]
    apply h.evict.move hcall hbefore
    · simp
    · intro y hy
      cases hy
  · rw [heq]
    apply (h.evict.insert hnone hroom).move hcall hbefore
    · simp
    · intro y hy
      cases hy
      exact List.mem_append_right _ (List.mem_singleton.mpr rfl)

/-- A call with the lock of its entry uses what is cached, or fetches. -/
theorem Coherent.enter (h : cache.Coherent) (hcall : cache.calls[i]? = some call)
    (hphase : call.phase = .queued x) (hentry : cache.entries[x]? = some entry)
    (hfree : entry.holder = none) : (cache.enter i call x entry).Coherent := by
  obtain ⟨cached, -, -, heq⟩ | heq := enter_cases cache i call x entry
  · rw [heq]
    apply h.move hcall
    · simp [hphase]
    · simp
    · intro y hy
      cases hy
  · rw [heq]
    exact h.take hcall hphase hentry hfree

/-- A call whose request is answered ends. -/
theorem Coherent.answer {a : KeyAnswer} (h : cache.Coherent) (hcall : cache.calls[i]? = some call)
    (hphase : call.phase = .fetching x url) (hentry : cache.entries[x]? = some entry) :
    (cache.answer i call x entry a).Coherent := by
  obtain ⟨e, heq⟩ | ⟨keys, -, heq⟩ := answer_cases cache i call x entry a
  · rw [heq]
    exact h.release hcall hphase hentry rfl rfl
  · rw [heq]
    exact h.release hcall hphase hentry rfl rfl

/-- Every step keeps the map coherent. -/
theorem Coherent.step (h : cache.Coherent) (hs : CacheStep cache label next) : next.Coherent := by
  obtain ⟨p, kid, -, rfl⟩ | ⟨duration, -, rfl⟩ | ⟨i, call, -, hcall, hphase, rfl⟩ |
    ⟨i, call, x, entry, -, hcall, hphase, hentry, hfree, rfl⟩ |
    ⟨i, a, call, x, url, entry, -, hcall, hphase, hentry, rfl⟩ | ⟨i, call, -, hcall, hnot, -, rfl⟩ |
    ⟨i, call, x, url, entry, -, hcall, hphase, hentry, rfl⟩ := step_cases hs
  · have hold : ∀ (j : ℕ) (other : KeyCall env),
        (cache.calls ++ [⟨p, kid, .waiting⟩])[j]? = some other →
          cache.calls[j]? = some other ∨ other.phase = .waiting := by
      intro j other hother
      rw [List.getElem?_append] at hother
      split at hother
      · exact .inl hother
      · have hnew := List.mem_singleton.mp (List.mem_of_getElem? hother)
        exact .inr (by rw [hnew])
    constructor
    case tenants => exact h.tenants
    case slots => exact h.slots
    case inside => exact h.inside
    case leased =>
      intro j other x hother hx
      rcases hold j other hother with hother | hphase
      · exact h.leased j other x hother hx
      · rw [hphase] at hx
        cases hx
    case locked =>
      intro j other x url hother hfetching
      rcases hold j other hother with hother | hphase
      · exact h.locked j other x url hother hfetching
      · rw [hphase] at hfetching
        cases hfetching
    case fetches =>
      intro x entry j hentry hholder
      obtain ⟨other, url, hother, hfetching⟩ := h.fetches x entry j hentry hholder
      refine ⟨other, url, ?_, hfetching⟩
      rw [List.getElem?_append_left (List.getElem?_eq_some_iff.mp hother).1, hother]
    case bounded => exact h.bounded
  · exact ⟨h.tenants, h.slots, h.inside, h.leased, h.locked, h.fetches, h.bounded⟩
  · exact h.register hcall hphase
  · exact h.enter hcall hphase hentry hfree
  · exact h.answer hcall hphase hentry
  · apply h.move hcall hnot
    · simp
    · intro y hy
      cases hy
  · exact h.release hcall hphase hentry rfl rfl

end Coherence

end KeyCache

open KeyCache

section Keys

variable {env : EntraKeys}

/-- The event is the arrival of keys from an endpoint. -/
def Fetches (e : Event (KeyCache env) CacheLabel) (url : String) (keys : List Value) : Prop :=
  ∃ i a call x, e.label = .answer i a ∧ e.before.calls[i]? = some call ∧
    call.phase = .fetching x url ∧ a.keys = .ok keys

/-- The event lets a call that held an entry end as it is. -/
def Ends (e : Event (KeyCache env) CacheLabel) (i : ℕ) (call : KeyCall env) : Prop :=
  e.after.calls[i]? = some call ∧
    ∃ held x, e.before.calls[i]? = some held ∧ held.phase.entry = some x

/-- Everything that is cached under a tenant arrived from the endpoint of the tenant, sixty seconds
before it expires. -/
def Stocked (trace : List (Event (KeyCache env) CacheLabel)) (cache : KeyCache env) : Prop :=
  ∀ key ∈ cache.keys, ∀ entry cached, cache.entries[key.2]? = some entry →
    entry.cached = some cached →
      ∃ e ∈ trace, Fetches e (env.endpoint key.1) cached.keys ∧
        cached.validUntil = e.before.now + keyLifetime ∧ e.before.now ≤ cache.now

/-- A call was checked against keys that had arrived from the endpoint of its tenant, sixty seconds
before at most. -/
def Verified (trace : List (Event (KeyCache env) CacheLabel)) (i : ℕ) (call : KeyCall env)
    (keys : List Value) : Prop :=
  ∃ earlier f later, trace = earlier ++ f :: later ∧ Ends f i call ∧
    ∃ e ∈ earlier ++ [f], Fetches e (env.endpoint call.profile.tenant) keys ∧
      e.before.now ≤ f.before.now ∧ f.before.now ≤ e.before.now + keyLifetime

/-- What holds of the events of a run and of the state it reaches. -/
structure KeyHistory (trace : List (Event (KeyCache env) CacheLabel)) (cache : KeyCache env) :
    Prop where
  coherent : cache.Coherent
  stocked : Stocked trace cache
  checked : ∀ (i : ℕ) (call : KeyCall env) keys result, cache.calls[i]? = some call →
    call.phase = .checked keys result →
      result = env.select call.profile call.kid keys ∧ Verified trace i call keys

variable {trace : List (Event (KeyCache env) CacheLabel)} {cache next : KeyCache env}
  {label : CacheLabel} {i x : ℕ} {call : KeyCall env} {phase : CallPhase env}
  {entry entry' : KeyEntry} {e : Event (KeyCache env) CacheLabel} {keys : List Value}

theorem Verified.append (h : Verified trace i call keys) : Verified (trace ++ [e]) i call keys := by
  obtain ⟨earlier, f, later, rfl, hends, hfetched⟩ := h
  exact ⟨earlier, f, later ++ [e], by simp, hends, hfetched⟩

theorem Stocked.append (h : Stocked trace cache) : Stocked (trace ++ [e]) cache := by
  intro key hkey entry cached hentry hcached
  obtain ⟨e', he', hfetched⟩ := h key hkey entry cached hentry hcached
  exact ⟨e', List.mem_append_left _ he', hfetched⟩

/-- Fewer keys in the map, at a later time. -/
theorem Stocked.mono (h : Stocked trace cache) (hkeys : ∀ key ∈ next.keys, key ∈ cache.keys)
    (hentries : next.entries = cache.entries) (hnow : cache.now ≤ next.now) :
    Stocked trace next := by
  intro key hkey entry cached hentry hcached
  rw [hentries] at hentry
  obtain ⟨e, he, hfetched, huntil, hbefore⟩ := h key (hkeys key hkey) entry cached hentry hcached
  exact ⟨e, he, hfetched, huntil, le_trans hbefore hnow⟩

/-- A new entry caches nothing. -/
theorem Stocked.insert {tenant : Uuid} (h : Stocked trace cache) :
    Stocked trace (cache.insert tenant) := by
  intro key hkey entry cached hentry hcached
  simp only [KeyCache.insert, List.getElem?_append] at hentry
  split at hentry
  case isTrue hinside =>
    rcases List.mem_append.mp hkey with hkey | hkey
    · exact h key hkey entry cached hentry hcached
    · rw [List.mem_singleton.mp hkey] at hinside
      exact absurd hinside (Nat.lt_irrefl _)
  case isFalse =>
    rw [List.mem_singleton.mp (List.mem_of_getElem? hentry)] at hcached
    cases hcached

/-- Only the lock of an entry changes. -/
theorem Stocked.put (h : Stocked trace cache) (hentry : cache.entries[x]? = some entry)
    (hsame : entry'.cached = entry.cached) : Stocked trace (cache.put x entry') := by
  intro key hkey held cached hheld hcached
  rw [entries_put _ hentry] at hheld
  split at hheld
  case isTrue hx =>
    subst hx
    cases hheld
    exact h key hkey entry cached hentry (hsame ▸ hcached)
  case isFalse => exact h key hkey held cached hheld hcached

/-- What arrived is cached under the tenant whose call fetched it. -/
theorem Stocked.answered (h : Stocked trace cache) (hcoherent : cache.Coherent)
    (hcall : cache.calls[i]? = some call) (hheld : call.phase.entry = some x)
    (hentry : cache.entries[x]? = some entry) (he : e ∈ trace)
    (hfetched : Fetches e (env.endpoint call.profile.tenant) keys) (hnow : e.before.now = cache.now) :
    Stocked trace (cache.put x { cached := some ⟨cache.now + keyLifetime, keys⟩, holder := none }) := by
  intro key hkey held cached hget hcached
  rw [entries_put _ hentry] at hget
  split at hget
  case isTrue hx =>
    subst hx
    cases hget
    cases hcached
    -- The entry is in the map once, under the tenant of the call.
    have hmine := hcoherent.leased i call key.2 hcall hheld
    have hkey' : key = (call.profile.tenant, key.2) :=
      List.inj_on_of_nodup_map hcoherent.slots hkey hmine rfl
    have htenant : key.1 = call.profile.tenant := congrArg Prod.fst hkey'
    rw [htenant]
    exact ⟨e, he, hfetched, by rw [hnow], le_of_eq hnow⟩
  case isFalse => exact h key hkey held cached hget hcached

/-- What a move to another phase leaves of the calls that were checked. -/
theorem KeyHistory.checked_move (h : KeyHistory trace cache) {other : KeyCall env}
    {keys : List Value} {result : Except FederationError env.DecodingKey} {j : ℕ}
    (hcall : cache.calls[i]? = some call) (hunchecked : ∀ keys result, phase ≠ .checked keys result)
    (hother : (cache.move i call phase).calls[j]? = some other)
    (hphase : other.phase = .checked keys result) :
    result = env.select other.profile other.kid keys ∧ Verified trace j other keys := by
  rw [calls_move hcall] at hother
  split at hother
  · cases hother
    exact absurd hphase (hunchecked keys result)
  · exact h.checked j other keys result hother hphase

/-- A call that goes on without being checked. -/
theorem KeyHistory.move (h : KeyHistory trace cache) (hcoherent : next.Coherent)
    (hstocked : Stocked trace next) (hcall : cache.calls[i]? = some call)
    (hunchecked : ∀ keys result, phase ≠ .checked keys result)
    (hcalls : next.calls = (cache.move i call phase).calls) : KeyHistory (trace ++ [e]) next := by
  constructor
  case coherent => exact hcoherent
  case stocked => exact hstocked.append
  case checked =>
    intro j other keys result hother hphase
    rw [hcalls] at hother
    obtain ⟨hresult, hverified⟩ := h.checked_move hcall hunchecked hother hphase
    exact ⟨hresult, hverified.append⟩

/-- A call that is checked against keys that arrived in time. -/
theorem KeyHistory.check (h : KeyHistory trace cache) (hcoherent : next.Coherent)
    (hstocked : Stocked (trace ++ [⟨cache, label, next⟩]) next)
    (hcall : cache.calls[i]? = some call) (hheld : call.phase.entry = some x)
    (hcalls : next.calls =
      (cache.move i call (.checked keys (env.select call.profile call.kid keys))).calls)
    (hfetched : ∃ e ∈ trace ++ [⟨cache, label, next⟩],
      Fetches e (env.endpoint call.profile.tenant) keys ∧ e.before.now ≤ cache.now ∧
        cache.now ≤ e.before.now + keyLifetime) :
    KeyHistory (trace ++ [⟨cache, label, next⟩]) next := by
  constructor
  case coherent => exact hcoherent
  case stocked => exact hstocked
  case checked =>
    intro j other keys' result hother hphase
    have hget := hother
    rw [hcalls, calls_move hcall] at hother
    split at hother
    case isTrue hij =>
      subst hij
      cases hother
      cases hphase
      refine ⟨rfl, trace, ⟨cache, label, next⟩, [], rfl, ?_, hfetched⟩
      exact ⟨hget, call, x, hcall, hheld⟩
    case isFalse =>
      obtain ⟨hresult, hverified⟩ := h.checked j other keys' result hother hphase
      exact ⟨hresult, hverified.append⟩

/-- Every step keeps the history. -/
theorem KeyHistory.step (h : KeyHistory trace cache) (hs : CacheStep cache label next) :
    KeyHistory (trace ++ [⟨cache, label, next⟩]) next := by
  have hcoherent := h.coherent.step hs
  obtain ⟨p, kid, -, rfl⟩ | ⟨duration, -, rfl⟩ | ⟨i, call, -, hcall, hphase, rfl⟩ |
    ⟨i, call, x, entry, -, hcall, hphase, hentry, hfree, rfl⟩ |
    ⟨i, a, call, x, url, entry, rfl, hcall, hphase, hentry, rfl⟩ |
    ⟨i, call, -, hcall, hnot, -, rfl⟩ |
    ⟨i, call, x, url, entry, -, hcall, hphase, hentry, rfl⟩ := step_cases hs
  · constructor
    case coherent => exact hcoherent
    case stocked => exact (h.stocked.mono (fun _ => id) rfl le_rfl).append
    case checked =>
      intro j other keys result hother hchecked
      rw [List.getElem?_append] at hother
      split at hother
      · obtain ⟨hresult, hverified⟩ := h.checked j other keys result hother hchecked
        exact ⟨hresult, hverified.append⟩
      · rw [List.mem_singleton.mp (List.mem_of_getElem? hother)] at hchecked
        cases hchecked
  · have hlater : Stocked trace { cache with now := cache.now + duration } :=
      h.stocked.mono (fun _ => id) rfl (Nat.le_add_right _ _)
    constructor
    case coherent => exact hcoherent
    case stocked => exact hlater.append
    case checked =>
      intro j other keys result hother hchecked
      obtain ⟨hresult, hverified⟩ := h.checked j other keys result hother hchecked
      exact ⟨hresult, hverified.append⟩
  · have hevicted : Stocked trace cache.evict :=
      h.stocked.mono (fun _ hkey => (List.mem_filter.mp hkey).1) rfl le_rfl
    obtain ⟨x, -, heq⟩ | ⟨-, -, heq⟩ | ⟨-, -, heq⟩ := register_cases cache i call
    · rw [heq] at hcoherent ⊢
      exact h.move hcoherent hevicted hcall (by simp) rfl
    · rw [heq] at hcoherent ⊢
      exact h.move hcoherent hevicted hcall (by simp) rfl
    · rw [heq] at hcoherent ⊢
      exact h.move hcoherent hevicted.insert hcall (by simp) rfl
  · have hheld : call.phase.entry = some x := by rw [hphase]; rfl
    obtain ⟨cached, hcached, hfresh, heq⟩ | heq := enter_cases cache i call x entry
    · rw [heq] at hcoherent ⊢
      have hkey := h.coherent.leased i call x hcall hheld
      obtain ⟨e, he, hfetched, huntil, hbefore⟩ := h.stocked _ hkey entry cached hentry hcached
      apply h.check hcoherent h.stocked.append hcall hheld rfl
      exact ⟨e, List.mem_append_left _ he, hfetched, hbefore, by omega⟩
    · rw [heq] at hcoherent ⊢
      have htaken : Stocked trace (cache.put x { entry with holder := some i }) :=
        h.stocked.put hentry rfl
      exact h.move hcoherent htaken hcall (by simp) rfl
  · have hheld : call.phase.entry = some x := by rw [hphase]; rfl
    have hurl := (h.coherent.locked i call x url hcall hphase).1
    obtain ⟨e, heq⟩ | ⟨keys, hkeys, heq⟩ := answer_cases cache i call x entry a
    · rw [heq] at hcoherent ⊢
      exact h.move hcoherent (h.stocked.put hentry rfl) hcall (by simp) rfl
    · rw [heq] at hcoherent ⊢
      have hfetched : ∀ next, Fetches ⟨cache, .answer i a, next⟩
          (env.endpoint call.profile.tenant) keys := by
        intro next
        exact ⟨i, a, call, x, rfl, hcall, hurl ▸ hphase, hkeys⟩
      apply h.check hcoherent
      · exact h.stocked.append.answered h.coherent hcall hheld hentry
          (List.mem_append_right _ List.mem_cons_self) (hfetched _) rfl
      · exact hcall
      · exact hheld
      · rfl
      · exact ⟨_, List.mem_append_right _ List.mem_cons_self, hfetched _, le_rfl,
          Nat.le_add_right _ _⟩
  · exact h.move hcoherent h.stocked hcall (by simp) rfl
  · exact h.move hcoherent (h.stocked.put hentry rfl) hcall (by simp) rfl

/-- What is retained is held by a call, or not expired. -/
theorem held_or_unexpired (h : cache.Coherent) {key : Uuid × ℕ}
    (hretained : cache.retained key = true) :
    (∃ call ∈ cache.calls, call.phase.entry = some key.2) ∨
      ∃ entry, cache.entries[key.2]? = some entry ∧ cache.unexpired entry = true := by
  rcases Bool.or_eq_true _ _ ▸ hretained with hcount | hentry
  · rw [decide_eq_true_eq, strongCount] at hcount
    have hmap : cache.keys.countP (fun other => other.2 = key.2) ≤ 1 := by
      have hslots := List.nodup_iff_count_le_one.mp h.slots key.2
      rwa [List.count, List.countP_map] at hslots
    have hcalls : 0 < cache.calls.countP (fun call => call.phase.entry = some key.2) := by omega
    obtain ⟨call, hcall, hheld⟩ := List.countP_pos_iff.mp hcalls
    exact .inl ⟨call, hcall, by simpa using hheld⟩
  · obtain ⟨entry, hentry, hneeded⟩ := (Option.any_eq_true _ _).mp hentry
    rcases Bool.or_eq_true _ _ ▸ hneeded with hholder | hunexpired
    · obtain ⟨i, hholder⟩ := Option.isSome_iff_exists.mp hholder
      obtain ⟨call, url, hcall, hfetching⟩ := h.fetches key.2 entry i hentry hholder
      exact .inl ⟨call, List.mem_of_getElem? hcall, by rw [hfetching]; rfl⟩
    · exact .inr ⟨entry, hentry, hunexpired⟩

/-- The entry of a tenant is needed: a call holds it, or its keys are not expired. -/
def Needed (cache : KeyCache env) (tenant : Uuid) : Prop :=
  ∃ x, (tenant, x) ∈ cache.keys ∧
    ((∃ call ∈ cache.calls, call.phase.entry = some x) ∨
      ∃ entry, cache.entries[x]? = some entry ∧ cache.unexpired entry = true)

/-- A call is refused by a map that is full of needed entries of other tenants. -/
theorem full_of_refused (h : cache.Coherent) (hcall : cache.calls[i]? = some call) {other : KeyCall env}
    {error : FederationError} (hother : (cache.register i call).calls[i]? = some other)
    (hfailed : other.phase = .failed error) :
    ∃ tenants : List Uuid, 128 ≤ tenants.length ∧ tenants.Nodup ∧ call.profile.tenant ∉ tenants ∧
      ∀ tenant ∈ tenants, Needed cache tenant := by
  have hqueued : ∀ (kept : KeyCache env) x, kept.calls = cache.calls →
      cache.register i call ≠ kept.move i call (.queued x) := by
    intro kept x hkept heq
    rw [heq, calls_move (hkept ▸ hcall), if_pos rfl] at hother
    cases hother
    cases hfailed
  obtain ⟨x, -, heq⟩ | ⟨hnone, hfull, -⟩ | ⟨-, -, heq⟩ := register_cases cache i call
  · exact absurd heq (hqueued _ x rfl)
  · refine ⟨cache.evict.keys.map Prod.fst, ?_, h.evict.tenants, ?_, ?_⟩
    · rwa [List.length_map]
    · intro hmem
      obtain ⟨key, hkey, heq⟩ := List.mem_map.mp hmem
      have hlookup := List.lookup_eq_none_iff.mp hnone key hkey
      simp [heq] at hlookup
    · intro tenant htenant
      obtain ⟨key, hkey, rfl⟩ := List.mem_map.mp htenant
      obtain ⟨hmem, hretained⟩ := List.mem_filter.mp hkey
      exact ⟨key.2, hmem, held_or_unexpired h hretained⟩
  · exact absurd heq (hqueued _ _ rfl)

/-- What every run of a key cache keeps to. -/
structure BoundedAndCoalesced (trace : List (Event (KeyCache env) CacheLabel))
    (cache : KeyCache env) : Prop where
  /-- The map has at most 128 entries. -/
  bounded : cache.keys.length ≤ 128
  /-- For one tenant at most one request is under way. -/
  coalesced : ∀ (i j : ℕ) (call other : KeyCall env) x y url url',
    cache.calls[i]? = some call → call.phase = .fetching x url →
      cache.calls[j]? = some other → other.phase = .fetching y url' →
        call.profile.tenant = other.profile.tenant → i = j
  /-- An entry that a call holds is the only one of its tenant in the map. -/
  leased : ∀ (i : ℕ) (call : KeyCall env) x, cache.calls[i]? = some call →
    call.phase.entry = some x →
      ∀ y, (call.profile.tenant, y) ∈ cache.keys ↔ y = x
  /-- A call is checked against keys that arrived from the endpoint of its tenant, at most sixty
  seconds before. -/
  exact : ∀ (i : ℕ) (call : KeyCall env) keys result, cache.calls[i]? = some call →
    call.phase = .checked keys result →
      result = env.select call.profile call.kid keys ∧ Verified trace i call keys
  /-- A call is refused while 128 other tenants have needed entries only. -/
  capacity : ∀ e ∈ trace, ∀ (i : ℕ) (call other : KeyCall env) error, e.label = .register i →
    e.before.calls[i]? = some call → e.after.calls[i]? = some other →
      other.phase = .failed error →
        ∃ tenants : List Uuid, 128 ≤ tenants.length ∧ tenants.Nodup ∧
          call.profile.tenant ∉ tenants ∧ ∀ tenant ∈ tenants, Needed e.before tenant

theorem history_of_run {now : ℕ} (h : Run CacheStep (new now) trace cache) :
    KeyHistory trace cache := by
  apply h.history (H := KeyHistory)
  · constructor
    case coherent => exact coherent_new now
    case stocked =>
      intro key hkey
      cases hkey
    case checked =>
      intro i call keys result hcall
      cases hcall
  · intro trace cache label next _ hhistory hs
    exact hhistory.step hs

/-- Every run of a key cache is bounded, coalesced and exact. -/
theorem key_cache (env : EntraKeys) (now : ℕ) (trace : List (Event (KeyCache env) CacheLabel))
    (cache : KeyCache env) (h : Run CacheStep (new now) trace cache) : BoundedAndCoalesced trace cache := by
  have hhistory := history_of_run h
  have hcoherent := hhistory.coherent
  have hsame : ∀ {tenant : Uuid} {x y : ℕ}, (tenant, x) ∈ cache.keys → (tenant, y) ∈ cache.keys →
      x = y := by
    intro tenant x y hx hy
    exact congrArg Prod.snd (List.inj_on_of_nodup_map hcoherent.tenants hx hy rfl)
  constructor
  case bounded => exact hcoherent.bounded
  case coalesced =>
    intro i j call other x y url url' hcall hfetching hother hfetching' htenant
    have hx := hcoherent.leased i call x hcall (by rw [hfetching]; rfl)
    have hy := hcoherent.leased j other y hother (by rw [hfetching']; rfl)
    rw [htenant] at hx
    obtain rfl := hsame hx hy
    obtain ⟨-, entry, hentry, hholder⟩ := hcoherent.locked i call x url hcall hfetching
    obtain ⟨-, entry', hentry', hholder'⟩ := hcoherent.locked j other x url' hother hfetching'
    rw [hentry] at hentry'
    cases hentry'
    rw [hholder] at hholder'
    exact Option.some.inj hholder'
  case leased =>
    intro i call x hcall hheld y
    have hx := hcoherent.leased i call x hcall hheld
    constructor
    · intro hy
      exact hsame hy hx
    · rintro rfl
      exact hx
  case exact => exact hhistory.checked
  case capacity =>
    intro e he i call other error hlabel hcall hother hfailed
    obtain ⟨hbefore, hs⟩ := h.forall_event (coherent_new now)
      (fun _ _ _ hinv hs => hinv.step hs) e he
    rw [hlabel] at hs
    obtain ⟨_, _, hverify, -⟩ | ⟨_, htick, -⟩ | ⟨i', call', hadmit, hcall', -, hafter⟩ |
      ⟨_, _, _, _, hlock, -⟩ | ⟨_, _, _, _, _, _, hanswer, -⟩ | ⟨_, _, hcancel, -⟩ |
      ⟨_, _, _, _, _, hcancel, -⟩ := step_cases hs
    · cases hverify
    · cases htick
    · cases hadmit
      rw [hcall] at hcall'
      cases hcall'
      rw [hafter] at hother
      exact full_of_refused hbefore hcall hother hfailed
    · cases hlock
    · cases hanswer
    · cases hcancel
    · cases hcancel

/-- Keys whose moduli are their texts. -/
def moduli : EntraKeys := ⟨.hyphenated, String, textOf "n"⟩

/-- Two calls for a tenant: one fetches, the other one finds its keys half a minute later. -/
def sharedKeys : List CacheLabel :=
  let key : Value := .object [("kid", .string "k"), ("kty", .string "RSA"), ("n", .string "m")]
  [.verify ⟨.newV4 0⟩ "k", .verify ⟨.newV4 0⟩ "k", .register 0, .register 1, .lock 0,
    .answer 0 (.document (.object [("keys", .array [key])])), .tick (30 * 10 ^ 9), .lock 1]

/-- Both find the key, and the run keeps to its bounds. -/
theorem sharedKeys_coalesced : ∃ (trace : List (Event (KeyCache moduli) CacheLabel))
    (cache : KeyCache moduli), cache.calls.length = 2 ∧ cache.keys.length = 1 ∧
      BoundedAndCoalesced trace cache := by
  obtain ⟨trace, hrun⟩ := Run.of_labels sharedKeys
    (rfl : sharedKeys.foldlM step (new 0 : KeyCache moduli) = some _)
  exact ⟨trace, _, rfl, rfl, key_cache moduli 0 trace _ hrun⟩

end Keys

end IdentityAuthority
