import IdentityAuthority.Operations.Ceremonies
import IdentityAuthority.Safety.Descent

/-!
# Ceremonies are settled once, by what they were begun with

A ceremony is verified outside, between the transaction that begins it and the one that settles it.
What holds in between rests on the epochs and versions that both read: every registration, removal
and activation moves them on, so of the ceremonies begun at one of them none outlives it.
-/

namespace IdentityAuthority

open Relational Transition

variable {env : Env} {w w' : Tenant} {s₀ s s' : System env} {label : Label env}
  {trace : List (Event (System env) (Label env))} {e : Event (System env) (Label env)}
  {this : WebauthnAuthority} {actor : AuthenticatedSession} {id : Uuid} {key : AccountKey}

section Moves

/-- What a step does to the stored ceremonies, credentials and accounts. -/
inductive StoreMove (env : Env) (held : List (Held env)) (w w' : Tenant) : Prop
  | unchanged : w'.state.webauthnAccounts = w.state.webauthnAccounts →
      w'.state.webauthnCredentials = w.state.webauthnCredentials →
      w'.state.webauthnCeremonies = w.state.webauthnCeremonies → StoreMove env held w w'
  | read {key account} :
      AccountRead key account w.state.webauthnAccounts w'.state.webauthnAccounts →
      w'.state.webauthnCredentials = w.state.webauthnCredentials →
      w'.state.webauthnCeremonies = w.state.webauthnCeremonies → StoreMove env held w w'
  | begun {this actor row account} : CeremonyBegun env this actor row account w w' →
      StoreMove env held w w'
  | registered {this actor id snapshot recover credential row account} :
      .ceremony this actor id snapshot ∈ held →
      RegistrationFinished env this actor id snapshot recover credential row account w w' →
      StoreMove env held w w'
  | authenticated {this actor id snapshot selected issued row account} :
      AuthenticationFinished env this actor id snapshot selected issued row account w w' →
      StoreMove env held w w'
  | cancelled {this actor id row account} : CeremonySettled env this actor id row account w w' →
      w'.state.webauthnCredentials = w.state.webauthnCredentials →
      AccountRead actor.key account w.state.webauthnAccounts w'.state.webauthnAccounts →
      StoreMove env held w w'
  | removed {actor id handle} : CredentialRemoved env actor id handle w w' → StoreMove env held w w'
  | activated {party previous} : RpActivated env party previous w w' → StoreMove env held w w'

theorem Step.storeMove (h : Step env s label s') : StoreMove env s.held s.world s'.world := by
  cases h with
  | elapse hstate _ => exact .unchanged (by rw [hstate]) (by rw [hstate]) (by rw [hstate])
  | @commit commit w' hadmissible hruns =>
    have hframe : .webauthn ∉ commit.areas → StoreMove env s.held s.world w' := by
      intro hno
      have hsame := (Commit.effects hruns).frame
        (fun db => (db.webauthnRp, db.webauthnAccounts, db.webauthnCredentials, db.webauthnCeremonies))
        fun _ _ _ ha heffect => heffect.webauthn_eq fun heq => hno (heq ▸ ha)
      simp only [Prod.mk.injEq] at hsame
      exact .unchanged hsame.2.1 hsame.2.2.1 hsame.2.2.2
    cases commit with
    | connectWebauthn =>
      obtain ⟨t, ht⟩ := run_connectWebauthn hruns
      exact .unchanged (by simp only [ht]) (by simp only [ht]) (by simp only [ht])
    | beginRegistration =>
      obtain ⟨row, account, hbegun, -⟩ := run_beginRegistration hruns
      exact .begun hbegun
    | beginAuthentication =>
      obtain ⟨row, account, hbegun, -⟩ := run_authenticate_begun hruns
      exact .begun hbegun
    | snapshotCeremony =>
      obtain ⟨row, t, -, -, -, -, -, ht, account, hread⟩ := run_snapshotCeremony hruns
      exact .read (by simpa only [ht] using hread) (by simp only [ht]) (by simp only [ht])
    | finishRegistration =>
      obtain ⟨recover, row, account, hfinished⟩ := run_finishRegistration hruns
      exact .registered hadmissible hfinished
    | finishAuthentication =>
      obtain ⟨selected, issued, row, account, hfinished, -⟩ := run_finishAuthentication hruns
      exact .authenticated hfinished
    | removeCredential => exact .removed (run_removeCredential hruns)
    | cancelCeremony =>
      obtain ⟨row, account, hsettled, hcredentials, hread⟩ := run_cancelCeremony hruns
      exact .cancelled hsettled hcredentials hread
    | activateWebauthnRp =>
      obtain ⟨previous, hactivated⟩ := run_activateWebauthnRp hruns
      exact .activated hactivated
    | _ => exact hframe (by simp [Commit.areas, commitAreas])

end Moves

section Follows

/-- An account moves on from epoch to epoch, and stays enrolled. -/
structure WebauthnAccountRow.Later (row next : WebauthnAccountRow) : Prop where
  epoch : row.epoch ≤ next.epoch
  enrolled : row.enrolled = true → next.enrolled = true

theorem WebauthnAccountRow.Later.refl (row : WebauthnAccountRow) : row.Later row := ⟨le_rfl, id⟩

theorem WebauthnAccountRow.Later.trans {a b c : WebauthnAccountRow} (h : a.Later b) (h' : b.Later c) :
    a.Later c := ⟨h.epoch.trans h'.epoch, fun ha => h'.enrolled (h.enrolled ha)⟩

/-- The store of one world comes from that of an earlier one: accounts and credentials stay, and a
ceremony that is gone never comes back. -/
structure StoreFollows (env : Env) (w w' : Tenant) : Prop where
  advances : w.Advances w'
  accounts : w.state.webauthnAccounts.Evolves WebauthnAccountRow.Later w'.state.webauthnAccounts
  credentials :
    w.state.webauthnCredentials.Evolves WebauthnCredentialRow.Later w'.state.webauthnCredentials
  ceremonies : Table.Descends (· = ·) (freshUuid env) w.drawn w'.drawn w.state.webauthnCeremonies
    w'.state.webauthnCeremonies

theorem StoreFollows.refl (w : Tenant) : StoreFollows env w w :=
  ⟨.refl w, .refl .refl, .refl .refl, .refl fun _ => rfl⟩

theorem StoreFollows.trans {w₁ w₂ w₃ : Tenant} (h : StoreFollows env w₁ w₂)
    (h' : StoreFollows env w₂ w₃) : StoreFollows env w₁ w₃ where
  advances := h.advances.trans h'.advances
  accounts := h.accounts.trans (fun _ _ _ hab hbc => hab.trans hbc) h'.accounts
  credentials := h.credentials.trans (fun _ _ _ hab hbc => hab.trans hbc) h'.credentials
  ceremonies := (h.ceremonies.mono le_rfl h'.advances.drawn).trans (fun _ _ _ => Eq.trans)
    (h'.ceremonies.mono h.advances.drawn le_rfl)

theorem AccountRead.evolves {account : WebauthnAccountRow} {t t' : Table WebauthnAccountRow}
    (h : AccountRead key account t t') : t.Evolves WebauthnAccountRow.Later t' := by
  intro k row hrow
  by_cases hk : k = key
  · subst hk
    obtain rfl := h.kept row hrow
    exact ⟨row, h.found, .refl row⟩
  · exact ⟨row, by rw [h.others k hk, hrow], .refl row⟩

theorem AccountAdvanced.evolves {enrols : Bool} {t t' : Table WebauthnAccountRow}
    (h : AccountAdvanced key enrols t t') : t.Evolves WebauthnAccountRow.Later t' := by
  intro k row hrow
  by_cases hk : k = key
  · subst hk
    refine ⟨_, h.moved row hrow, ?_, fun henrolled => ?_⟩
    · simp only
      omega
    · simp [henrolled]
  · exact ⟨row, by rw [h.others k hk, hrow], .refl row⟩

theorem AuthenticatorUpdated.evolves {selected : CredentialSnapshot}
    {t t' : Table WebauthnCredentialRow} (h : AuthenticatorUpdated key selected t t') :
    t.Evolves WebauthnCredentialRow.Later t' := by
  intro k row hrow
  obtain ⟨found, hfound, -, -, -, hunrevoked, hupdated⟩ := h.found
  by_cases hk : k = selected.id
  · subst hk
    obtain rfl := Option.some_injective _ (hrow.symm.trans hfound)
    refine ⟨_, hupdated, rfl, le_rfl, ?_, fun hrevoked => ?_⟩
    · simp only
      omega
    · rw [hunrevoked] at hrevoked
      cases hrevoked
  · exact ⟨row, by rw [h.others k hk, hrow], .refl row⟩

theorem CeremoniesRemoved.descends {t t' : Table WebauthnCeremonyRow} {i j : ℕ}
    (h : CeremoniesRemoved t t') : Table.Descends (· = ·) (freshUuid env) i j t t' :=
  fun k row hrow => .inl ⟨row, h k row hrow, rfl⟩

theorem CeremonyBegun.descends {row : WebauthnCeremonyRow} {account : WebauthnAccountRow}
    (h : CeremonyBegun env this actor row account w w') :
    Table.Descends (· = ·) (freshUuid env) w.drawn w'.drawn w.state.webauthnCeremonies
      w'.state.webauthnCeremonies := by
  intro k r hr
  rcases h.others k r hr with rfl | hold
  · obtain ⟨i, hi, hlo, hhi⟩ := h.fresh
    have hkey : r.id = k := Table.key_of_find? hr
    exact .inr ⟨i, hkey.symm.trans hi, hlo, hhi⟩
  · exact .inl ⟨r, hold, rfl⟩

theorem RegistrationFinished.evolves {snapshot : CeremonySnapshot} {recover : Bool} {credential : Uuid}
    {row : WebauthnCeremonyRow} {account : WebauthnAccountRow}
    (h : RegistrationFinished env this actor id snapshot recover credential row account w w') :
    w.state.webauthnCredentials.Evolves WebauthnCredentialRow.Later w'.state.webauthnCredentials := by
  obtain ⟨t, new, hrevoked, hkept, hinsert, -⟩ := h.credentials
  have hinserted : t.Evolves WebauthnCredentialRow.Later w'.state.webauthnCredentials :=
    .of_insert .refl hinsert
  cases recover with
  | true =>
    exact (hrevoked rfl).evolves.trans (fun _ _ _ hab hbc => hab.trans hbc) hinserted
  | false =>
    obtain rfl := hkept rfl
    exact hinserted

theorem StoreMove.follows {held : List (Held env)} (h : StoreMove env held w w')
    (hadvances : w.Advances w') : StoreFollows env w w' := by
  have hcredentials : w'.state.webauthnCredentials = w.state.webauthnCredentials →
      w.state.webauthnCredentials.Evolves WebauthnCredentialRow.Later w'.state.webauthnCredentials := by
    intro hsame
    rw [hsame]
    exact .refl .refl
  cases h with
  | unchanged haccounts hsame hceremonies =>
    refine ⟨hadvances, ?_, hcredentials hsame, ?_⟩
    · rw [haccounts]
      exact .refl .refl
    · rw [hceremonies]
      exact .refl fun _ => rfl
  | read hread hsame hceremonies =>
    refine ⟨hadvances, hread.evolves, hcredentials hsame, ?_⟩
    rw [hceremonies]
    exact .refl fun _ => rfl
  | begun hbegun =>
    exact ⟨hadvances, hbegun.account.evolves, hcredentials hbegun.credentials, hbegun.descends⟩
  | registered _ hfinished =>
    obtain ⟨t, hread, hadvanced⟩ := hfinished.account
    exact ⟨hadvances, hread.evolves.trans (fun _ _ _ hab hbc => hab.trans hbc) hadvanced.evolves,
      hfinished.evolves, hfinished.settled.others.descends⟩
  | authenticated hfinished =>
    exact ⟨hadvances, hfinished.account.evolves, hfinished.updated.evolves,
      hfinished.settled.others.descends⟩
  | cancelled hsettled hsame hread =>
    exact ⟨hadvances, hread.evolves, hcredentials hsame, hsettled.others.descends⟩
  | removed hremoved =>
    refine ⟨hadvances, hremoved.account.evolves, hremoved.credentials.evolves, ?_⟩
    rw [hremoved.kept.1]
    exact .refl fun _ => rfl
  | activated hactivated =>
    refine ⟨hadvances, ?_, hactivated.credentials.evolves, hactivated.ceremonies.descends⟩
    rw [hactivated.kept]
    exact .refl .refl

theorem Step.storeFollows (h : Step env s label s') : StoreFollows env s.world s'.world :=
  h.storeMove.follows h.advances

theorem storeFollows_of_run (hrun : Run (Step env) s trace s') : StoreFollows env s.world s'.world :=
  hrun.history (H := fun _ s' => StoreFollows env s.world s'.world) (.refl _)
    fun _ _ _ _ _ h hstep => h.trans hstep.storeFollows

end Follows

section Invariant

/-- The registration adds to the credentials of its account. -/
def Ceremony.Adds : Ceremony → Prop
  | .register _ _ recover _ _ _ => recover = false
  | .authenticate _ _ _ => False

/-- What holds of a stored ceremony: it was begun at an epoch of its account, and while that is the
current one there is room for the credential it may add. -/
structure CeremonySound (env : Env) (w : Tenant) (k : Uuid) (row : WebauthnCeremonyRow) : Prop where
  drawn : ∃ i < w.drawn, k = freshUuid env i
  epoch : ∃ account, w.state.webauthnAccounts.find? row.principal = some account ∧
    row.credentialEpoch ≤ account.epoch
  room : ∀ account, w.state.webauthnAccounts.find? row.principal = some account →
    row.credentialEpoch = account.epoch → row.state.Adds → ∀ party : RelyingParty,
      row.rpConfig = party.fingerprint env →
        w.state.usableCount row.principal party.rp row.rpConfig < 16

/-- What holds of the store in every state reached. -/
structure StoreSound (env : Env) (w : Tenant) : Prop where
  ceremonies : ∀ k row, w.state.webauthnCeremonies.find? k = some row → CeremonySound env w k row
  capped : ∀ key rp config, w.state.usableCount key rp config ≤ 16

/-- What a call holds of a ceremony is what is stored of it, as long as it is. -/
def HeldSound (env : Env) (w : Tenant) (held : List (Held env)) : Prop :=
  ∀ this actor id snapshot, .ceremony this actor id snapshot ∈ held →
    (∃ i < w.drawn, id = freshUuid env i) ∧
      ∀ row, w.state.webauthnCeremonies.find? id = some row → snapshot.ceremony = row.state

theorem StoreFollows.heldSound {held : List (Held env)} (h : StoreFollows env w w')
    (hheld : HeldSound env w held) : HeldSound env w' held := by
  intro this actor id snapshot hmem
  obtain ⟨⟨i, hi, rfl⟩, hsame⟩ := hheld this actor id snapshot hmem
  refine ⟨⟨i, lt_of_lt_of_le hi h.advances.drawn, rfl⟩, fun row hrow => ?_⟩
  obtain ⟨row', hrow', rfl⟩ := h.ceremonies.before (freshUuid_injective env) hi hrow
  exact hsame row' hrow'

/-- The fingerprint of a configuration names its relying party. -/
theorem RelyingParty.rp_eq_of_fingerprint {party other : RelyingParty}
    (h : party.fingerprint env = other.fingerprint env) : party.rp = other.rp := by
  have htext := congrArg String.toList (env.sha256.text_injective h)
  simp only [String.toList_append, List.append_assoc] at htext
  have hline : "\n".toList = ['\n'] := by decide
  rw [hline, List.singleton_append, List.singleton_append] at htext
  have hfirst := congrArg (List.takeWhile (fun c => decide (c ≠ '\n'))) htext
  have hkeep : ∀ {rp : String} {rest : List Char}, '\n' ∉ rp.toList →
      (rp.toList ++ '\n' :: rest).takeWhile (fun c => decide (c ≠ '\n')) = rp.toList := by
    intro rp rest hrp
    rw [List.takeWhile_append_of_pos, List.takeWhile_cons_of_neg (by simp), List.append_nil]
    intro c hc
    rw [decide_eq_true_eq]
    rintro rfl
    exact hrp hc
  rw [hkeep party.rp_line, hkeep other.rp_line] at hfirst
  exact String.toList_inj.mp hfirst

/-- A ceremony stays sound where accounts move forward, and its account gains no credential. -/
theorem CeremonySound.kept {k : Uuid} {row : WebauthnCeremonyRow} (h : CeremonySound env w k row)
    (hadvances : w.Advances w')
    (haccounts : w.state.webauthnAccounts.Evolves WebauthnAccountRow.Later w'.state.webauthnAccounts)
    (hcount : ∀ rp config, w'.state.usableCount row.principal rp config ≤
      w.state.usableCount row.principal rp config) : CeremonySound env w' k row := by
  obtain ⟨i, hi, hk⟩ := h.drawn
  obtain ⟨account, haccount, hepoch⟩ := h.epoch
  obtain ⟨next, hnext, hlater⟩ := haccounts _ _ haccount
  refine ⟨⟨i, lt_of_lt_of_le hi hadvances.drawn, hk⟩, ⟨next, hnext, hepoch.trans hlater.epoch⟩, ?_⟩
  intro found hfound hsame hadds party hparty
  obtain rfl := Option.some_injective _ (hnext.symm.trans hfound)
  have hcurrent : row.credentialEpoch = account.epoch :=
    le_antisymm hepoch (hsame ▸ hlater.epoch)
  exact lt_of_le_of_lt (hcount _ _) (h.room account haccount hcurrent hadds party hparty)

/-- The store stays sound where ceremonies are only removed and credentials only lost. -/
theorem StoreSound.shrinks (h : StoreSound env w) (hfollows : StoreFollows env w w')
    (hceremonies : CeremoniesRemoved w.state.webauthnCeremonies w'.state.webauthnCeremonies)
    (hcount : ∀ key rp config, w'.state.usableCount key rp config ≤ w.state.usableCount key rp config) :
    StoreSound env w' := by
  refine ⟨fun k row hrow => ?_, fun key rp config => (hcount key rp config).trans (h.capped key rp config)⟩
  exact (h.ceremonies k row (hceremonies k row hrow)).kept hfollows.advances hfollows.accounts
    (hcount row.principal)

theorem StoreSound.begun {row : WebauthnCeremonyRow} {account : WebauthnAccountRow}
    (h : StoreSound env w) (hfollows : StoreFollows env w w')
    (hbegun : CeremonyBegun env this actor row account w w') : StoreSound env w' := by
  have hcount : ∀ key rp config,
      w'.state.usableCount key rp config = w.state.usableCount key rp config := by
    intro key rp config
    rw [Db.usableCount, hbegun.credentials, Db.usableCount]
  refine ⟨fun k r hr => ?_, fun key rp config => (hcount key rp config).le.trans (h.capped key rp config)⟩
  rcases hbegun.others k r hr with rfl | hold
  · have hkey : r.id = k := Table.key_of_find? hr
    have hfound : w'.state.webauthnAccounts.find? r.principal = some account := by
      rw [hbegun.principal]
      exact hbegun.account.found
    obtain ⟨i, hi, -, hhi⟩ := hbegun.fresh
    refine ⟨⟨i, hhi, hkey.symm.trans hi⟩, ⟨account, hfound, hbegun.epoch.le⟩, ?_⟩
    intro _ _ _ hadds party hparty
    have hfits := hbegun.fits
    rw [hcount, hbegun.principal]
    cases hstate : r.state with
    | register state label recover source hostRecovery time =>
      rw [hstate] at hfits hadds
      rw [RelyingParty.rp_eq_of_fingerprint (hparty.symm.trans hbegun.config), hbegun.config]
      exact hfits hadds
    | authenticate state context keys =>
      rw [hstate] at hadds
      exact hadds.elim
  · exact (h.ceremonies k r hold).kept hfollows.advances hfollows.accounts
      fun rp config => (hcount r.principal rp config).le

section Registered

variable {snapshot : CeremonySnapshot} {recover : Bool} {credential : Uuid}
  {row : WebauthnCeremonyRow} {account : WebauthnAccountRow}

/-- A registration leaves the credentials of other accounts as they are. -/
theorem RegistrationFinished.count_of_ne
    (h : RegistrationFinished env this actor id snapshot recover credential row account w w')
    (hne : key ≠ actor.key) (rp : String) (config : Digest) :
    w'.state.usableCount key rp config = w.state.usableCount key rp config := by
  obtain ⟨t, new, hrevoked, hkept, hinsert, -, howner, -⟩ := h.credentials
  have hnew : new.usable key rp config = false := by
    simp [WebauthnCredentialRow.usable, howner, hne.symm]
  rw [Db.usableCount, Table.count_insert hinsert, hnew, if_neg (by simp), Nat.add_zero, Db.usableCount]
  cases recover with
  | true => exact (hrevoked rfl).count_of_ne hne rp config
  | false => rw [hkept rfl]

/-- A registration adds one credential under the configuration it was begun with, where there was room
for it. -/
theorem RegistrationFinished.capped
    (h : RegistrationFinished env this actor id snapshot recover credential row account w w')
    (hsound : StoreSound env w) (hroom : recover = false →
      w.state.usableCount actor.key this.party.rp (this.config env) < 16) (rp : String)
    (config : Digest) : w'.state.usableCount actor.key rp config ≤ 16 := by
  obtain ⟨t, new, hrevoked, hkept, hinsert, -, -, hrp, hconfig, -⟩ := h.credentials
  rw [Db.usableCount, Table.count_insert hinsert]
  cases recover with
  | true =>
    rw [(hrevoked rfl).count_eq_zero]
    split <;> omega
  | false =>
    obtain rfl := hkept rfl
    have hcapped := hsound.capped actor.key rp config
    rw [Db.usableCount] at hcapped
    split
    · rename_i husable
      simp only [WebauthnCredentialRow.usable, decide_eq_true_eq, hrp, hconfig] at husable
      obtain ⟨-, rfl, rfl, -⟩ := husable
      have hless := hroom rfl
      rw [Db.usableCount] at hless
      omega
    · omega

theorem StoreSound.registered (hsound : StoreSound env w) (hfollows : StoreFollows env w w')
    (hsame : snapshot.ceremony = row.state)
    (h : RegistrationFinished env this actor id snapshot recover credential row account w w') :
    StoreSound env w' := by
  obtain ⟨loaded, t, hrechecked, -, -, hbelongs⟩ := h.settled.belongs
  have hprincipal : row.principal = actor.key := hbelongs.principal.trans hrechecked.key
  obtain ⟨accounts, hread, hadvanced⟩ := h.account
  have hroom : recover = false →
      w.state.usableCount actor.key this.party.rp (this.config env) < 16 := by
    intro hadds
    have hrow := hsound.ceremonies id row h.settled.found
    obtain ⟨stored, hstored, -⟩ := hrow.epoch
    have hkept := hread.kept stored (by rw [← hprincipal]; exact hstored)
    have hepoch : row.credentialEpoch = stored.epoch := by
      rw [hkept]
      exact hbelongs.credentialEpoch
    have hregister : row.state.Adds := by
      obtain ⟨state, label, source, hostRecovery, time, hasked⟩ := h.asked
      rw [← hsame, hasked]
      exact hadds
    have hless := hrow.room stored hstored hepoch hregister this.party hbelongs.rpConfig
    rw [hprincipal, hbelongs.rpConfig] at hless
    exact hless
  refine ⟨fun k r hr => ?_, fun key rp config => ?_⟩
  · have hold := hsound.ceremonies k r (h.settled.others k r hr)
    by_cases hown : r.principal = actor.key
    · obtain ⟨i, hi, hk⟩ := hold.drawn
      obtain ⟨stored, hstored, hepoch⟩ := hold.epoch
      rw [hown] at hstored
      obtain rfl := hread.kept stored hstored
      have hmoved := hadvanced.moved stored hread.found
      rw [← hown] at hmoved
      refine ⟨⟨i, lt_of_lt_of_le hi hfollows.advances.drawn, hk⟩, ⟨_, hmoved, ?_⟩, ?_⟩
      · simp only
        omega
      · intro found hfound hcurrent
        obtain rfl := Option.some_injective _ (hmoved.symm.trans hfound)
        simp only at hcurrent
        omega
    · exact hold.kept hfollows.advances hfollows.accounts
        fun rp config => (h.count_of_ne hown rp config).le
  · by_cases hown : key = actor.key
    · subst hown
      exact h.capped hsound hroom rp config
    · rw [h.count_of_ne hown]
      exact hsound.capped key rp config

end Registered

theorem StoreMove.sound {held : List (Held env)} (h : StoreMove env held w w')
    (hfollows : StoreFollows env w w') (hheld : HeldSound env w held) (hsound : StoreSound env w) :
    StoreSound env w' := by
  have hcount : w'.state.webauthnCredentials = w.state.webauthnCredentials → ∀ key rp config,
      w'.state.usableCount key rp config ≤ w.state.usableCount key rp config := by
    intro hsame key rp config
    rw [Db.usableCount, hsame, Db.usableCount]
  have hkept : w'.state.webauthnCeremonies = w.state.webauthnCeremonies →
      CeremoniesRemoved w.state.webauthnCeremonies w'.state.webauthnCeremonies := by
    intro hsame k row hrow
    rw [← hsame]
    exact hrow
  cases h with
  | unchanged _ hsame hceremonies => exact hsound.shrinks hfollows (hkept hceremonies) (hcount hsame)
  | read _ hsame hceremonies => exact hsound.shrinks hfollows (hkept hceremonies) (hcount hsame)
  | begun hbegun => exact hsound.begun hfollows hbegun
  | registered hmem hfinished =>
    exact hsound.registered hfollows ((hheld _ _ _ _ hmem).2 _ hfinished.settled.found) hfinished
  | authenticated hfinished =>
    exact hsound.shrinks hfollows hfinished.settled.others
      fun key rp config => (hfinished.updated.count key rp config).le
  | cancelled hsettled hsame _ => exact hsound.shrinks hfollows hsettled.others (hcount hsame)
  | removed hremoved =>
    exact hsound.shrinks hfollows (hkept hremoved.kept.1) hremoved.credentials.count_le
  | activated hactivated =>
    exact hsound.shrinks hfollows hactivated.ceremonies hactivated.credentials.count_le

end Invariant

section Events

/-- An event finishes a registration, and its credential. -/
def FinishesRegistration (e : Event (System env) (Label env)) (this : WebauthnAuthority)
    (actor : AuthenticatedSession) (id : Uuid) (snapshot : CeremonySnapshot) (credential : Uuid) : Prop :=
  ∃ response, e.label = .commit (.finishRegistration this actor id snapshot response credential)

/-- An event finishes an authentication, with a grant. -/
def FinishesAuthentication (e : Event (System env) (Label env)) (this : WebauthnAuthority)
    (actor : AuthenticatedSession) (id : Uuid) (snapshot : CeremonySnapshot) (grant : StepUpGrant) :
    Prop :=
  ∃ response, e.label = .commit (.finishAuthentication this actor id snapshot response grant)

/-- An event settles a ceremony: it finishes or cancels it. -/
def SettlesCeremony (e : Event (System env) (Label env)) (id : Uuid) : Prop :=
  ∃ this actor, (∃ snapshot credential, FinishesRegistration e this actor id snapshot credential) ∨
    (∃ snapshot grant, FinishesAuthentication e this actor id snapshot grant) ∨
    e.label = .commit (.cancelCeremony this actor id)

/-- An event begins a ceremony: a registration that is granted, or an authentication. -/
def BeginsCeremony (e : Event (System env) (Label env)) (row : WebauthnCeremonyRow) : Prop :=
  ∃ this actor account, CeremonyBegun env this actor row account e.before.world e.after.world ∧
    ((∃ label recover authorization result state source hostRecovery time,
        e.label = .commit (.beginRegistration this actor label recover authorization result) ∧
        row.state = .register state label recover source hostRecovery time ∧
        RegistrationGranted env actor account recover e.before.world e.after.world authorization source
          hostRecovery) ∨
      ∃ context result state keys,
        e.label = .commit (.beginAuthentication this actor context result) ∧
        row.state = .authenticate state context keys)

/-- An event ends a ceremony: it settles it, it moves the account of it on to another credential epoch,
or it activates another configuration in place of the one it was begun under. -/
def EndsCeremony (e : Event (System env) (Label env)) (row : WebauthnCeremonyRow) : Prop :=
  SettlesCeremony e row.id ∨
    (∃ this actor id snapshot credential, FinishesRegistration e this actor id snapshot credential ∧
      actor.key = row.principal) ∨
    (∃ this actor id grant, e.label = .commit (.removeCredential this actor id grant) ∧
      actor.key = row.principal) ∨
    ∃ party expected next previous, e.label = .commit (.activateWebauthnRp party expected next) ∧
      e.before.world.state.webauthnRp.find? party.rp = some previous ∧
      previous.fingerprint = row.rpConfig

/-- An event moves a credential on from a version. -/
def MovesCredential (e : Event (System env) (Label env)) (credential : Uuid) (version : ℤ) : Prop :=
  ∃ row next, e.before.world.state.webauthnCredentials.find? credential = some row ∧
    e.after.world.state.webauthnCredentials.find? credential = some next ∧
    row.version = version ∧ next.version ≠ version

theorem Step.settles_ceremony (h : Step env s label s') (hsettles : SettlesCeremony ⟨s, label, s'⟩ id) :
    ∃ this actor row account, CeremonySettled env this actor id row account s.world s'.world := by
  obtain ⟨this, actor, ⟨snapshot, credential, response, rfl⟩ | ⟨snapshot, grant, response, rfl⟩ | rfl⟩ :=
    hsettles
  · cases h with
    | commit hadmissible hruns =>
      obtain ⟨recover, row, account, hfinished⟩ := run_finishRegistration hruns
      exact ⟨this, actor, row, account, hfinished.settled⟩
  · cases h with
    | commit hadmissible hruns =>
      obtain ⟨selected, issued, row, account, hfinished, -⟩ := run_finishAuthentication hruns
      exact ⟨this, actor, row, account, hfinished.settled⟩
  · cases h with
    | commit hadmissible hruns =>
      obtain ⟨row, account, hsettled, -⟩ := run_cancelCeremony hruns
      exact ⟨this, actor, row, account, hsettled⟩

/-- What a step stores of ceremonies was stored before, or is begun by it. -/
theorem Step.ceremonies_begun (h : Step env s label s') {k : Uuid} {row : WebauthnCeremonyRow}
    (hrow : s'.world.state.webauthnCeremonies.find? k = some row) :
    s.world.state.webauthnCeremonies.find? k = some row ∨ BeginsCeremony ⟨s, label, s'⟩ row := by
  cases h with
  | elapse hstate _ =>
    rw [hstate] at hrow
    exact .inl hrow
  | @commit commit w' hadmissible hruns =>
    have hframe : .webauthn ∉ commit.areas →
        w'.state.webauthnCeremonies = s.world.state.webauthnCeremonies := fun hno =>
      (Commit.effects hruns).frame Db.webauthnCeremonies fun _ _ _ ha heffect => by
        have hsame := heffect.webauthn_eq fun heq => hno (heq ▸ ha)
        simp only [Prod.mk.injEq] at hsame
        exact hsame.2.2.2
    cases commit with
    | connectWebauthn =>
      obtain ⟨t, ht⟩ := run_connectWebauthn hruns
      rw [ht] at hrow
      exact .inl hrow
    | beginRegistration this actor title recover authorization result =>
      obtain ⟨begun, account, hbegun, -, state, source, hostRecovery, time, hstate, hgranted⟩ :=
        run_beginRegistration hruns
      rcases hbegun.others k row hrow with rfl | hold
      · exact .inr ⟨this, actor, account, hbegun, .inl ⟨_, _, _, _, _, _, _, _, rfl, hstate, hgranted⟩⟩
      · exact .inl hold
    | beginAuthentication this actor context result =>
      obtain ⟨begun, account, hbegun, -, state, keys, hstate⟩ := run_authenticate_begun hruns
      rcases hbegun.others k row hrow with rfl | hold
      · exact .inr ⟨this, actor, account, hbegun, .inr ⟨_, _, _, _, rfl, hstate⟩⟩
      · exact .inl hold
    | snapshotCeremony =>
      obtain ⟨read, t, -, -, -, -, -, ht, -⟩ := run_snapshotCeremony hruns
      rw [ht] at hrow
      exact .inl hrow
    | finishRegistration =>
      obtain ⟨recover, settled, account, hfinished⟩ := run_finishRegistration hruns
      exact .inl (hfinished.settled.others k row hrow)
    | finishAuthentication =>
      obtain ⟨selected, issued, settled, account, hfinished, -⟩ := run_finishAuthentication hruns
      exact .inl (hfinished.settled.others k row hrow)
    | removeCredential =>
      rw [(run_removeCredential hruns).kept.1] at hrow
      exact .inl hrow
    | cancelCeremony =>
      obtain ⟨settled, account, hsettled, -⟩ := run_cancelCeremony hruns
      exact .inl (hsettled.others k row hrow)
    | activateWebauthnRp =>
      obtain ⟨previous, hactivated⟩ := run_activateWebauthnRp hruns
      exact .inl (hactivated.ceremonies k row hrow)
    | _ =>
      rw [hframe (by simp [Commit.areas, commitAreas])] at hrow
      exact .inl hrow

/-- What calls in flight hold of ceremonies, they read where it was stored. -/
theorem Step.ceremony_held (h : Step env s label s') {snapshot : CeremonySnapshot}
    (hheld : .ceremony this actor id snapshot ∈ s'.held) :
    .ceremony this actor id snapshot ∈ s.held ∨
      ∃ row, s.world.state.webauthnCeremonies.find? id = some row ∧
        s'.world.state.webauthnCeremonies = s.world.state.webauthnCeremonies ∧
        snapshot.ceremony = row.state := by
  cases h with
  | elapse hstate _ => exact .inl hheld
  | @commit commit w' hadmissible hruns =>
    rcases List.mem_append.mp hheld with hgiven | hold
    · cases commit with
      | snapshotCeremony this' actor' id' snapshot' =>
        simp only [Commit.gives, List.mem_singleton, Held.ceremony.injEq] at hgiven
        obtain ⟨rfl, rfl, rfl, rfl⟩ := hgiven
        obtain ⟨row, t, hrow, -, -, hsame, -, ht, -⟩ := run_snapshotCeremony hruns
        exact .inr ⟨row, hrow, by simp only [ht], hsame⟩
      | claimPassword login source lease result => cases result <;> simp [Commit.gives] at hgiven
      | readPassword login result => cases result <;> simp [Commit.gives] at hgiven
      | settlePassword login claim outcome result => cases result <;> simp [Commit.gives] at hgiven
      | _ => simp [Commit.gives] at hgiven
    · exact .inl hold

/-- A registration enrols its account, and moves it on to the next epoch. -/
theorem Step.registers (h : Step env s label s') {snapshot : CeremonySnapshot} {credential : Uuid}
    (hfinishes : FinishesRegistration ⟨s, label, s'⟩ this actor id snapshot credential) :
    ∃ recover row account,
      RegistrationFinished env this actor id snapshot recover credential row account s.world s'.world := by
  obtain ⟨response, rfl⟩ := hfinishes
  cases h with
  | commit hadmissible hruns => exact run_finishRegistration hruns

theorem RegistrationFinished.enrols {snapshot : CeremonySnapshot} {recover : Bool} {credential : Uuid}
    {row : WebauthnCeremonyRow} {account : WebauthnAccountRow}
    (h : RegistrationFinished env this actor id snapshot recover credential row account w w') :
    w'.state.webauthnAccounts.find? actor.key =
      some { account with enrolled := true, epoch := account.epoch + 1 } := by
  obtain ⟨t, hread, hadvanced⟩ := h.account
  rw [hadvanced.moved account hread.found, Bool.or_true]

end Events

section Histories

/-- What the events of a run say of the ceremonies that are stored and held, and of the accounts. -/
structure CeremonyHistory (trace : List (Event (System env) (Label env))) (s : System env) : Prop where
  sound : StoreSound env s.world
  held : HeldSound env s.world s.held
  begun : ∀ k row, s.world.state.webauthnCeremonies.find? k = some row →
    ∃ e ∈ trace, BeginsCeremony e row
  settled : ∀ e ∈ trace, ∀ id, SettlesCeremony e id →
    (∃ i < s.world.drawn, id = freshUuid env i) ∧ s.world.state.webauthnCeremonies.find? id = none
  enrolled : ∀ e ∈ trace, ∀ this actor id snapshot credential,
    FinishesRegistration e this actor id snapshot credential →
      ∃ account, s.world.state.webauthnAccounts.find? actor.key = some account ∧
        account.enrolled = true
  moved : ∀ e ∈ trace, ∀ credential version, MovesCredential e credential version →
    ∃ row, s.world.state.webauthnCredentials.find? credential = some row ∧ version < row.version
  once : trace.Pairwise fun e f => ∀ id, SettlesCeremony e id → ¬ SettlesCeremony f id
  exclusive : trace.Pairwise fun e f => ∀ credential version, MovesCredential e credential version →
    ¬ MovesCredential f credential version

theorem CeremonyHistory.step (h : CeremonyHistory trace s) (hstep : Step env s label s') :
    CeremonyHistory (trace ++ [⟨s, label, s'⟩]) s' := by
  have hfollows := hstep.storeFollows
  have hsound := hstep.storeMove.sound hfollows h.held h.sound
  refine ⟨hsound, ?_, ?_, ?_, ?_, ?_, ?_, ?_⟩
  · intro this actor id snapshot hheld
    rcases hstep.ceremony_held hheld with hold | ⟨row, hrow, hsame, hceremony⟩
    · exact hfollows.heldSound h.held this actor id snapshot hold
    · have hrow' : s'.world.state.webauthnCeremonies.find? id = some row := by rw [hsame, hrow]
      refine ⟨(hsound.ceremonies id row hrow').drawn, fun other hother => ?_⟩
      obtain rfl := Option.some_injective _ (hrow'.symm.trans hother)
      exact hceremony
  · intro k row hrow
    rcases hstep.ceremonies_begun hrow with hold | hbegins
    · obtain ⟨e, he, hbegun⟩ := h.begun k row hold
      exact ⟨e, List.mem_append_left _ he, hbegun⟩
    · exact ⟨_, by simp, hbegins⟩
  · intro e he id hsettles
    rcases List.mem_append.mp he with he | he
    · obtain ⟨⟨i, hi, rfl⟩, hgone⟩ := h.settled e he id hsettles
      exact ⟨⟨i, lt_of_lt_of_le hi hfollows.advances.drawn, rfl⟩,
        hfollows.ceremonies.gone (freshUuid_injective env) hi hgone⟩
    · obtain rfl := List.mem_singleton.mp he
      obtain ⟨this, actor, row, account, hsettled⟩ := hstep.settles_ceremony hsettles
      obtain ⟨i, hi, hid⟩ := (h.sound.ceremonies id row hsettled.found).drawn
      exact ⟨⟨i, lt_of_lt_of_le hi hfollows.advances.drawn, hid⟩, hsettled.gone⟩
  · intro e he this actor id snapshot credential hfinishes
    rcases List.mem_append.mp he with he | he
    · obtain ⟨account, haccount, henrolled⟩ := h.enrolled e he this actor id snapshot credential hfinishes
      obtain ⟨next, hnext, hlater⟩ := hfollows.accounts _ _ haccount
      exact ⟨next, hnext, hlater.enrolled henrolled⟩
    · obtain rfl := List.mem_singleton.mp he
      obtain ⟨recover, row, account, hfinished⟩ := hstep.registers hfinishes
      exact ⟨_, hfinished.enrols, rfl⟩
  · intro e he credential version hmoves
    rcases List.mem_append.mp he with he | he
    · obtain ⟨row, hrow, hversion⟩ := h.moved e he credential version hmoves
      obtain ⟨next, hnext, hlater⟩ := hfollows.credentials _ _ hrow
      exact ⟨next, hnext, hversion.trans_le hlater.version⟩
    · obtain rfl := List.mem_singleton.mp he
      obtain ⟨row, next, hrow, hnext, rfl, hne⟩ := hmoves
      obtain ⟨next', hnext', hlater⟩ := hfollows.credentials _ _ hrow
      obtain rfl := Option.some_injective _ (hnext.symm.trans hnext')
      exact ⟨next, hnext, lt_of_le_of_ne hlater.version (Ne.symm hne)⟩
  · refine List.pairwise_append.mpr ⟨h.once, List.pairwise_singleton _ _, ?_⟩
    intro e he f hf id hsettles hsettles'
    obtain rfl := List.mem_singleton.mp hf
    obtain ⟨this, actor, row, account, hsettled⟩ := hstep.settles_ceremony hsettles'
    have hfound := hsettled.found
    rw [(h.settled e he id hsettles).2] at hfound
    cases hfound
  · refine List.pairwise_append.mpr ⟨h.exclusive, List.pairwise_singleton _ _, ?_⟩
    intro e he f hf credential version hmoves hmoves'
    obtain rfl := List.mem_singleton.mp hf
    obtain ⟨row, hrow, hversion⟩ := h.moved e he credential version hmoves
    obtain ⟨row', next, hrow', -, rfl, -⟩ := hmoves'
    obtain rfl := Option.some_injective _ (hrow.symm.trans hrow')
    omega

theorem ceremonyHistory_of_run (hstart : s₀.Provisioned) (hrun : Run (Step env) s₀ trace s) :
    CeremonyHistory trace s := by
  refine hrun.history (H := CeremonyHistory) ?_ fun _ _ _ _ _ h hstep => h.step hstep
  have hnone : ∀ k, s₀.world.state.webauthnCeremonies.find? k = none := by
    intro k
    rw [hstart.1]
    rfl
  refine ⟨⟨fun k row hrow => ?_, fun key rp config => ?_⟩, ?_, ?_, by simp, by simp, by simp, .nil, .nil⟩
  · rw [hnone k] at hrow
    cases hrow
  · rw [hstart.1]
    exact Nat.zero_le _
  · intro this actor id snapshot hheld
    rw [hstart.2] at hheld
    cases hheld
  · intro k row hrow
    rw [hnone k] at hrow
    cases hrow

/-- A ceremony that was begun is there until something ends it: as long as it can be settled, nothing
did. -/
theorem not_endsCeremony {row : WebauthnCeremonyRow}
    {account : WebauthnAccountRow} {i : ℕ} (hstep : Step env s label s')
    (hsound : StoreSound env s.world) (hid : row.id = freshUuid env i)
    (hi : i < s.world.drawn) (hfollows : StoreFollows env s'.world w)
    (hfound : w.state.webauthnCeremonies.find? row.id = some row)
    (haccount : ∀ stored, w.state.webauthnAccounts.find? row.principal = some stored → stored = account)
    (hepoch : row.credentialEpoch = account.epoch) : ¬ EndsCeremony ⟨s, label, s'⟩ row := by
  have hdrawn : i < s'.world.drawn := lt_of_lt_of_le hi hstep.advances.drawn
  rw [hid] at hfound
  obtain ⟨row', hafter, hsame⟩ := hfollows.ceremonies.before (freshUuid_injective env) hdrawn hfound
  obtain ⟨row'', hbefore, hsame'⟩ :=
    hstep.storeFollows.ceremonies.before (freshUuid_injective env) hi hafter
  obtain rfl : row' = row := hsame
  obtain rfl : row'' = row' := hsame'
  obtain ⟨stored, hstored, hstoredEpoch⟩ := (hsound.ceremonies _ _ hbefore).epoch
  -- An account that moved on once is past the epoch of the ceremony for good.
  have hmoved : ∀ next, s'.world.state.webauthnAccounts.find? row''.principal = some next →
      ¬ stored.epoch < next.epoch := by
    intro next hnext hless
    obtain ⟨last, hlast, hlater⟩ := hfollows.accounts _ _ hnext
    obtain rfl := haccount last hlast
    have hgrown := hlater.epoch
    omega
  rintro (hsettles | ⟨this, actor, id, snapshot, credential, hfinishes, hkey⟩ |
    ⟨this, actor, id, grant, rfl, hkey⟩ | ⟨party, expected, next, previous, rfl, hprevious, hconfig⟩)
  · obtain ⟨this, actor, other, found, hsettled⟩ := hstep.settles_ceremony hsettles
    have hgone := hsettled.gone
    rw [hid, hafter] at hgone
    cases hgone
  · obtain ⟨recover, other, found, hfinished⟩ := hstep.registers hfinishes
    obtain ⟨t, hread, -⟩ := hfinished.account
    have henrols := hfinished.enrols
    rw [hkey] at henrols hread
    obtain rfl := hread.kept stored hstored
    refine hmoved _ henrols ?_
    simp only
    omega
  · cases hstep with
    | commit hadmissible hruns =>
      have hremoved := (run_removeCredential hruns).account.moved stored (by rw [hkey]; exact hstored)
      rw [hkey] at hremoved
      refine hmoved _ hremoved ?_
      simp only
      omega
  · cases hstep with
    | commit hadmissible hruns =>
      obtain ⟨previous', hactivated⟩ := run_activateWebauthnRp hruns
      obtain rfl := Option.some_injective _ (hprevious.symm.trans hactivated.found)
      exact hactivated.gone _ _ hafter hconfig.symm

/-- What holds of a ceremony that one event began and another settled. -/
structure CeremonyMet (b e : Event (System env) (Label env)) (id : Uuid) (row : WebauthnCeremonyRow) :
    Prop where
  named : row.id = id
  begun : BeginsCeremony b row
  /-- It was settled for the live session, at the credential epoch and under the configuration that it
  was begun with. -/
  settled : ∃ this actor account,
    CeremonySettled env this actor id row account e.before.world e.after.world
  /-- A registration adds what it was begun for. -/
  registration : ∀ this actor snapshot credential,
    FinishesRegistration e this actor id snapshot credential → snapshot.ceremony = row.state ∧
      ∃ recover account, RegistrationFinished env this actor id snapshot recover credential row account
        e.before.world e.after.world
  /-- An authentication moves on one of the credentials it was begun with, from the version that the
  credential had then. -/
  authentication : ∀ this actor snapshot grant,
    FinishesAuthentication e this actor id snapshot grant → snapshot.ceremony = row.state ∧
      ∃ selected issued account stored,
        AuthenticationFinished env this actor id snapshot selected issued row account e.before.world
          e.after.world ∧ issued.tokenHash = env.sha256.secret grant.secret ∧
        b.before.world.state.webauthnCredentials.find? selected.id = some stored ∧
        stored.version = selected.version ∧ stored.epoch = selected.epoch ∧
        MovesCredential e selected.id selected.version

/-- What holds of the ceremonies and the credentials of a run, and of the state it reached. -/
structure CeremoniesSafe (trace : List (Event (System env) (Label env))) (s : System env) : Prop where
  /-- A ceremony is settled at most once. -/
  once : trace.Pairwise fun e f => ∀ id, SettlesCeremony e id → ¬ SettlesCeremony f id
  /-- What is settled was begun in the run, and nothing ended it in between. -/
  met : ∀ earlier e later, trace = earlier ++ e :: later → ∀ id, SettlesCeremony e id →
    ∃ before b between row, earlier = before ++ b :: between ∧ CeremonyMet b e id row ∧
      ∀ m ∈ between, ¬ EndsCeremony m row
  /-- No account can use more than 16 credentials with one configuration. -/
  capped : ∀ key rp config, s.world.state.usableCount key rp config ≤ 16
  /-- No update of an authenticator state is lost: a credential moves on from a version once. -/
  exclusive : trace.Pairwise fun e f => ∀ credential version, MovesCredential e credential version →
    ¬ MovesCredential f credential version
  /-- A revoked credential stays as it was revoked. -/
  revoked : ∀ e ∈ trace, ∀ k row, e.after.world.state.webauthnCredentials.find? k = some row →
    row.revoked = true → s.world.state.webauthnCredentials.find? k = some row
  /-- Once an account enrolled, a registration is begun by a consumed grant or by the host. -/
  enrolled : ∀ earlier r mid e later, trace = earlier ++ r :: (mid ++ e :: later) →
    ∀ this actor id snapshot credential this' actor' id' snapshot' credential',
      FinishesRegistration r this actor id snapshot credential →
      FinishesRegistration e this' actor' id' snapshot' credential' → actor'.key = actor.key →
      ∃ b ∈ mid, ∃ row, BeginsCeremony b row ∧ row.id = id' ∧
        ∀ party starter label recover authorization result,
          b.label = .commit (.beginRegistration party starter label recover authorization result) →
            authorization ≠ .first

/-- What is settled was begun in the run by an event that nothing undid in between. -/
theorem ceremony_met (hstart : s₀.Provisioned) (hearlier : Run (Step env) s₀ trace s)
    (hstep : Step env s label s') (hsettles : SettlesCeremony ⟨s, label, s'⟩ id) :
    ∃ before b between row, trace = before ++ b :: between ∧ CeremonyMet b ⟨s, label, s'⟩ id row ∧
      ∀ m ∈ between, ¬ EndsCeremony m row := by
  have hhistory := ceremonyHistory_of_run hstart hearlier
  obtain ⟨this, actor, row, account, hsettled⟩ := hstep.settles_ceremony hsettles
  have hfound := hsettled.found
  have hid : row.id = id := Table.key_of_find? hfound
  obtain ⟨b, hb, hbegins⟩ := hhistory.begun id row hfound
  obtain ⟨before, between, rfl⟩ := List.append_of_mem hb
  have hsame : ∀ other, s.world.state.webauthnCeremonies.find? id = some other → other = row := by
    intro other hother
    exact Option.some_injective _ (hother.symm.trans hfound)
  refine ⟨before, b, between, row, rfl, ⟨hid, hbegins, ⟨this, actor, account, hsettled⟩, ?_, ?_⟩, ?_⟩
  · rintro this' actor' snapshot credential ⟨response, rfl⟩
    cases hstep with
    | commit hadmissible hruns =>
      obtain ⟨recover, other, account', hfinished⟩ := run_finishRegistration hruns
      obtain rfl := hsame _ hfinished.settled.found
      exact ⟨(hhistory.held _ _ _ _ hadmissible).2 _ hfound, recover, account', hfinished⟩
  · rintro this' actor' snapshot grant ⟨response, rfl⟩
    cases hstep with
    | commit hadmissible hruns =>
      obtain ⟨selected, issued, other, account', hfinished, hhash⟩ := run_finishAuthentication hruns
      obtain rfl := hsame _ hfinished.settled.found
      have hceremony := (hhistory.held _ _ _ _ hadmissible).2 _ hfound
      obtain ⟨state, context, keys, hasked, ⟨key, hkey, hkeyId, hkeyVersion, hkeyEpoch⟩, -⟩ :=
        hfinished.asked
      obtain ⟨began, starter, enrolled, hbegun, -⟩ := hbegins
      have hfits := hbegun.fits
      rw [← hceremony, hasked] at hfits
      obtain ⟨stored, hstored, -, hshot⟩ := hfits key hkey
      rw [hshot] at hkeyId hkeyVersion hkeyEpoch hstored
      obtain ⟨current, hcurrent, -, hversion, -, -, hupdated⟩ := hfinished.updated.found
      refine ⟨hceremony, selected, issued, account', stored, hfinished, hhash, hkeyId ▸ hstored,
        hkeyVersion, hkeyEpoch, current, _, hcurrent, hupdated, hversion, ?_⟩
      simp only
      omega
  · intro m hm
    obtain ⟨first, second, rfl⟩ := List.append_of_mem hm
    obtain ⟨hbefore, hbegan, hafter⟩ := Run.split hearlier
    obtain ⟨hfirst, hmid, hrest⟩ := Run.split hafter
    have hrun : Run (Step env) s₀ (before ++ b :: first) m.before := by
      have hjoined := (hbefore.step hbegan).append hfirst
      simpa using hjoined
    obtain ⟨began, starter, enrolled, hbegun, -⟩ := hbegins
    obtain ⟨i, hi, -, hdrawn⟩ := hbegun.fresh
    obtain ⟨loaded, t, hrechecked, -, -, hbelongs⟩ := hsettled.belongs
    obtain ⟨accounts, hread⟩ := hsettled.read
    refine not_endsCeremony hmid (ceremonyHistory_of_run hstart hrun).sound hi
      (lt_of_lt_of_le hdrawn (storeFollows_of_run hfirst).advances.drawn) (storeFollows_of_run hrest)
      (by rw [hid]; exact hfound) (fun stored hstored => ?_) hbelongs.credentialEpoch
    rw [hbelongs.principal, hrechecked.key] at hstored
    exact hread.kept stored hstored

/-- An account that enrolled begins no registration on a recent authentication alone. -/
theorem BeginsCeremony.not_first {row : WebauthnCeremonyRow} {stored : WebauthnAccountRow}
    (h : BeginsCeremony e row)
    (hstored : e.before.world.state.webauthnAccounts.find? row.principal = some stored)
    (henrolled : stored.enrolled = true) {title : String} {recover : Bool}
    {authorization : RegistrationAuthorization} {result : WebauthnChallenge}
    (hlabel : e.label = .commit (.beginRegistration this actor title recover authorization result)) :
    authorization ≠ .first := by
  obtain ⟨party, starter, account, hbegun, ⟨_, _, _, _, _, _, _, _, hlabel', -, hgranted⟩ |
    ⟨_, _, _, _, hlabel', -⟩⟩ := h
  · rw [hlabel'] at hlabel
    cases hlabel
    rintro rfl
    rw [hbegun.principal] at hstored
    obtain rfl := hbegun.account.kept stored hstored
    cases hgranted with
    | first hno _ =>
      rw [henrolled] at hno
      cases hno
  · rw [hlabel'] at hlabel
    cases hlabel

/-- Beginning a ceremony finishes none. -/
theorem BeginsCeremony.not_finishesRegistration {row : WebauthnCeremonyRow}
    {snapshot : CeremonySnapshot} {credential : Uuid} (h : BeginsCeremony e row)
    (hfinishes : FinishesRegistration e this actor id snapshot credential) : False := by
  obtain ⟨response, hlabel⟩ := hfinishes
  obtain ⟨_, _, _, -, ⟨_, _, _, _, _, _, _, _, hlabel', -⟩ | ⟨_, _, _, _, hlabel', -⟩⟩ := h
  · rw [hlabel] at hlabel'
    cases hlabel'
  · rw [hlabel] at hlabel'
    cases hlabel'

/-- Of two places in a list, one comes first. -/
theorem placed {α : Type} {earlier mid before between : List α} {r b : α}
    (h : earlier ++ r :: mid = before ++ b :: between) :
    (∃ first, before = earlier ++ r :: first ∧ mid = first ++ b :: between) ∨ r = b ∨ r ∈ between := by
  rcases List.append_eq_append_iff.mp h with ⟨first, hbefore, hrest⟩ | ⟨first, -, hrest⟩
  · cases first with
    | nil => exact .inr (.inl (List.cons.inj hrest).1)
    | cons x first =>
      obtain ⟨rfl, hmid⟩ := List.cons.inj hrest
      exact .inl ⟨first, hbefore, hmid⟩
  · cases first with
    | nil => exact .inr (.inl (List.cons.inj hrest).1.symm)
    | cons x first =>
      obtain ⟨rfl, hbetween⟩ := List.cons.inj hrest
      exact .inr (.inr (by rw [hbetween]; simp))

/-- Ceremonies are settled once, by what they were begun with: in every run, whatever calls
interleave. -/
theorem ceremonies_safe (hstart : s₀.Provisioned) (hrun : Run (Step env) s₀ trace s) :
    CeremoniesSafe trace s := by
  have hhistory := ceremonyHistory_of_run hstart hrun
  refine ⟨hhistory.once, ?_, hhistory.sound.capped, hhistory.exclusive, ?_, ?_⟩
  · intro earlier e later htrace id hsettles
    obtain ⟨hearlier, hstep, -⟩ := Run.split (htrace ▸ hrun)
    exact ceremony_met hstart hearlier hstep hsettles
  · intro e he k row hrow hrevoked
    obtain ⟨earlier, later, rfl⟩ := List.append_of_mem he
    obtain ⟨-, -, hlater⟩ := Run.split hrun
    obtain ⟨next, hnext, hkept⟩ := (storeFollows_of_run hlater).credentials _ _ hrow
    rw [hnext, hkept.revoked hrevoked]
  · intro earlier r mid e later htrace this actor id snapshot credential this' actor' id' snapshot'
      credential' hfirst hsecond hkey
    have htrace' : trace = (earlier ++ r :: mid) ++ e :: later := by
      rw [htrace, List.append_assoc, List.cons_append]
    obtain ⟨hearlier, hstep, -⟩ := Run.split (htrace' ▸ hrun)
    have hsettles : SettlesCeremony e id' := ⟨this', actor', .inl ⟨snapshot', credential', hsecond⟩⟩
    obtain ⟨before, b, between, row, hsplit, hmet, hquiet⟩ := ceremony_met hstart hearlier hstep hsettles
    obtain ⟨-, recover, account, hfinished⟩ := hmet.registration _ _ _ _ hsecond
    obtain ⟨loaded, t, hrechecked, -, -, hbelongs⟩ := hfinished.settled.belongs
    have hprincipal : row.principal = actor.key :=
      (hbelongs.principal.trans hrechecked.key).trans hkey
    have hends : EndsCeremony r row :=
      .inr (.inl ⟨this, actor, id, snapshot, credential, hfirst, hprincipal.symm⟩)
    -- The ceremony was begun after the first registration, which would have ended it.
    obtain ⟨first, hbefore, hmid⟩ : ∃ first, before = earlier ++ r :: first ∧
        mid = first ++ b :: between := by
      rcases placed hsplit with hafter | rfl | hbetween
      · exact hafter
      · exact (hmet.begun.not_finishesRegistration hfirst).elim
      · exact absurd hends (hquiet r hbetween)
    rw [hsplit] at hearlier
    obtain ⟨hbegun, -, -⟩ := Run.split hearlier
    obtain ⟨stored, hstored, henrolled⟩ := (ceremonyHistory_of_run hstart hbegun).enrolled r
      (by rw [hbefore]; simp) _ _ _ _ _ hfirst
    rw [← hprincipal] at hstored
    refine ⟨b, by rw [hmid]; simp, row, hmet.begun, hmet.named, ?_⟩
    intro party starter label recover' authorization result hlabel
    exact hmet.begun.not_first hstored henrolled hlabel

/-- Ada, signed in, registers an authenticator, and answers an operation with it. -/
def firstStepUp (env : Env) (key : AccountKey) (login hash : String) (party : RelyingParty)
    (context : StepUpContext) : Action ConsumedStepUp := do
  let issued ← firstLogin env key login hash
  let actor ← authenticateSession env (env.sha256.secret issued.secret) .cookie false
  let this ← connectWebauthn env party
  let registration ← beginRegistration env this actor "key" false .first
  let snapshot ← snapshotCeremony env this actor registration.id
  let _ ← finishRegistration env this actor registration.id snapshot 1
  let challenge ← beginAuthentication env this actor context
  let answered ← snapshotCeremony env this actor challenge.id
  let grant ← finishAuthentication env this actor challenge.id answered 1
  consumeStepUpOn env actor context grant.secret

/-- The step-up is a run of the authority; it ends by consuming the grant of an authentication. -/
theorem run_firstStepUp {login hash : String} {party : RelyingParty} {context : StepUpContext}
    {taken : ConsumedStepUp} (h : (firstStepUp env key login hash party context).run w =
      .ok (taken, w')) :
    ∃ earlier f e held, Run (Step env) ⟨w, []⟩ (earlier ++ [f, e]) ⟨w', held⟩ ∧
      (∃ this actor id snapshot grant, FinishesAuthentication f this actor id snapshot grant) ∧
      ∃ actor handle, e.label = .commit (.consumeStepUp actor context handle taken) := by
  simp only [firstStepUp, Tx.run_bind] at h
  obtain ⟨issued, _, hfirst, actor, _, hactor, this, _, hconnect, registration, _, hregister, snapshot, _,
    hsnapshot, credential, _, hfinish, challenge, _, hchallenge, answered, _, hanswered, grant, _, hgrant,
    hconsume⟩ := h
  obtain ⟨trace, held, hrun⟩ := run_firstLogin hfirst
  have hrun := commit_step (.authenticate _ .cookie false actor) hrun trivial hactor
  have hrun := commit_step (.connectWebauthn party this) hrun trivial hconnect
  have hrun := commit_step (.beginRegistration this actor "key" false .first registration) hrun trivial
    hregister
  have hrun := commit_step (.snapshotCeremony this actor registration.id snapshot) hrun trivial hsnapshot
  have hrun := commit_step (.finishRegistration this actor registration.id snapshot 1 credential) hrun
    (by simp [Commit.gives, Commit.Admissible]) hfinish
  have hrun := commit_step (.beginAuthentication this actor context challenge) hrun trivial hchallenge
  have hrun := commit_step (.snapshotCeremony this actor challenge.id answered) hrun trivial hanswered
  have hrun := commit_step (.finishAuthentication this actor challenge.id answered 1 grant) hrun
    (by simp [Commit.gives, Commit.Admissible]) hgrant
  have hrun := commit_step (.consumeStepUp actor context grant.secret taken) hrun trivial hconsume
  rw [List.append_assoc] at hrun
  exact ⟨_, _, _, _, hrun, ⟨this, actor, challenge.id, answered, grant, 1, rfl⟩, actor, grant.secret, rfl⟩

/-- The first step-up of `ada`. -/
@[irreducible] def steppedUp : Except Failure (ConsumedStepUp × Tenant) :=
  (firstStepUp .transparent ⟨Uuid.newV4 0⟩ "ada" "hash" ⟨"rp", "https://rp", by decide⟩
    ⟨"pay", ⟨0⟩⟩).run newTenant

theorem steppedUp_isSome : steppedUp.toOption.isSome = true := by decide +kernel

/-- The ceremonies of the first step-up of `ada` are safe; one was finished in it. -/
theorem firstStepUp_safe : ∃ trace s, @CeremoniesSafe .transparent trace s ∧
    ∃ f ∈ trace, ∃ this actor id snapshot grant, FinishesAuthentication f this actor id snapshot grant := by
  obtain ⟨⟨taken, w⟩, hsome⟩ := Option.isSome_iff_exists.mp steppedUp_isSome
  have hrun := eq_ok_of_toOption hsome
  unfold steppedUp at hrun
  obtain ⟨earlier, f, e, held, hrun, hfinishes, -⟩ := run_firstStepUp hrun
  exact ⟨_, _, ceremonies_safe ⟨rfl, rfl⟩ hrun, f, by simp, hfinishes⟩

end Histories

end IdentityAuthority
