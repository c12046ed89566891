import IdentityAuthority.Audit.Events
import IdentityAuthority.Operations.Providers

/-!
# Settlement

A write runs an operation and appends the records of its events in one transaction of the storage
runtime, which reports how the transaction ended. The reason an operation fails for travels beside
that report, and takes its place only where the report is a confirmed rollback.
-/

namespace IdentityAuthority

section Vocabulary

/-- The kinds of failures of the storage runtime. -/
inductive StorageFailure
  | transient
  | permanent
  | conflict
  | ownershipLost
  | invariant
  | deadlineElapsed
deriving DecidableEq, Repr

/-- Why an operation fails inside its transaction. -/
inductive MutationError
  | invalidInput
  | cursorInvalidated
  | storage (failure : StorageFailure)
  | rule (error : AccountRuleError)
  | revisionConflict
  | operationConflict
  | federation (error : FederationError)
deriving DecidableEq, Repr

/-- What the caller of a write learns of a failure. -/
inductive CallError
  | invalidInput
  | cursorInvalidated
  | revisionConflict
  | operationConflict
  | ruleRejected (error : AccountRuleError)
  | federation (error : FederationError)
  | rejected
  | notStarted (failure : StorageFailure)
  | rolledBack (failure : StorageFailure)
  | rollbackFailed (failure : StorageFailure)
  | commitUnknown (failure : StorageFailure)
  | fenced
deriving DecidableEq, Repr

/-- The reasons of the domain; all else is about the storage, or unexplained. -/
def CallError.isReason : CallError → Bool
  | invalidInput | cursorInvalidated | revisionConflict | operationConflict | ruleRejected _
  | federation _ => true
  | _ => false

/-- The reason an operation failed for, if it is one of the domain (`sql_failure`). -/
def MutationError.reason : MutationError → Option CallError
  | invalidInput => some .invalidInput
  | cursorInvalidated => some .cursorInvalidated
  | revisionConflict => some .revisionConflict
  | operationConflict => some .operationConflict
  | storage _ => none
  | rule e => some (.ruleRejected e)
  | federation e => some (.federation e)

/-- The failure an operation gives its transaction (`sql_failure`). -/
def MutationError.failure : MutationError → StorageFailure
  | storage e => e
  | _ => .conflict

/-- What the runtime reports of a transaction. -/
inductive TxReport (α : Type)
  | notStarted (failure : StorageFailure)
  | committed (value : α)
  | rolledBack (failure : StorageFailure)
  | rollbackFailed (failure : StorageFailure)
  | commitUnknown (failure : StorageFailure)
  | fenced
deriving DecidableEq, Repr

/-- What a report is for the caller (`fold`). -/
def TxReport.fold {α : Type} : TxReport α → Except CallError α
  | committed value => .ok value
  | notStarted e => .error (.notStarted e)
  | rolledBack e => .error (if e = .conflict then .rejected else .rolledBack e)
  | rollbackFailed e => .error (.rollbackFailed e)
  | commitUnknown e => .error (.commitUnknown e)
  | fenced => .error .fenced

/-- The reports that leave open what is stored. -/
def TxReport.uncertain {α : Type} : TxReport α → Bool
  | rollbackFailed _ | commitUnknown _ | fenced => true
  | _ => false

/-- A reason takes the place of an unexplained refusal, and of nothing else (`domain_result`). -/
def domainResult {α : Type} (result : Except CallError α) (reason : Option CallError) :
    Except CallError α :=
  match result, reason with
  | .error .rejected, some reason => .error reason
  | result, _ => result

end Vocabulary

section Runtime

variable {σ α : Type}

/-- A transaction of the runtime: from a stored state it fails or gives a value and the state to
store, and it may leave a reason in the slot beside it. -/
abbrev Closure (σ α : Type) : Type := σ → Option CallError × Except StorageFailure (α × σ)

/-- How the runtime may end a transaction (`local_tx`): with what is in the slot, what it reports,
and what is stored. It may give a transaction up before or after the closure ended, for reasons of
its own, but it commits nothing that the closure did not finish. -/
inductive LocalTx (closure : Closure σ α) (s : σ) :
    Option CallError → TxReport α → σ → Prop
  | notStarted (e : StorageFailure) : LocalTx closure s none (.notStarted e) s
  | committed {slot : Option CallError} {a : α} {s' : σ} (h : closure s = (slot, .ok (a, s'))) :
    LocalTx closure s slot (.committed a) s'
  | rolledBack {slot : Option CallError} (e : StorageFailure)
    (h : slot = none ∨ slot = (closure s).1) : LocalTx closure s slot (.rolledBack e) s
  | lost {slot : Option CallError} {report : TxReport α} (huncertain : report.uncertain = true)
    (h : slot = none ∨ slot = (closure s).1) : LocalTx closure s slot report s
  | kept {slot : Option CallError} {report : TxReport α} {a : α} {s' : σ}
    (huncertain : report.uncertain = true) (h : closure s = (slot, .ok (a, s'))) :
    LocalTx closure s slot report s'

end Runtime

section Settlement

variable {σ A α : Type}

/-- What is stored: the state of the component, and the audit. -/
structure Durable (σ A : Type) where
  business : σ
  audit : A

/-- The audit as the component calls it: its lock, and a batch it appends as a whole. -/
structure AuditStore (A : Type) where
  plain : Bool
  lockHead : A → Option StorageFailure
  prepares : AuditRecord → Bool
  append : List AuditRecord → A → Except StorageFailure A
  recorded : A → List AuditRecord
  append_recorded : ∀ {records audit audit'}, append records audit = .ok audit' →
    recorded audit' = recorded audit ++ records

/-- What a write is composed with: the instance and the tenants it serves, the audit and its
format, the time the records are written at and the identifiers they get. -/
structure Writer (σ A : Type) where
  instanceId : Uuid
  tenants : Uuid → Bool
  store : AuditStore A
  format : AuditFormat
  authorityId : σ → Except StorageFailure Uuid
  timepoint : σ → Option ℤ
  eventId : ℕ → Uuid

/-- An operation: a value and its events, with the state it leaves, or why it fails. -/
abbrev Operation (σ α : Type) : Type := σ → Except MutationError ((α × List SecurityEvent) × σ)

/-- The records of the events, each under its identifier. -/
def Writer.records (writer : Writer σ A) (tenant : Uuid) (now : ℤ) (events : List SecurityEvent) :
    Option (List AuditRecord) :=
  (events.zipIdx).mapM fun (event, n) => do
    let record ← mapEvent writer.format writer.instanceId tenant (writer.eventId n) now event
    if writer.store.prepares record then some record else none

/-- Appends the records of the events (`append_events`). -/
def appendEvents (writer : Writer σ A) (tenant : Uuid) (events : List SecurityEvent)
    (s : Durable σ A) : Except StorageFailure (Durable σ A) :=
  if maxMutationEvents < events.length then .error .invariant
  else if events = [] then .ok s
  else
    match writer.timepoint s.business with
    | none => .error .invariant
    | some now =>
      match writer.records tenant now events with
      | none => .error .invariant
      | some records => do
        let audit ← writer.store.append records s.audit
        .ok { s with audit }

/-- The head of the audit is locked before the operation, unless the audit is a plain one. -/
def Writer.lockAudit (writer : Writer σ A) (s : Durable σ A) : Option StorageFailure :=
  if writer.store.plain then none else writer.store.lockHead s.audit

/-- The stored instance is the one the component runs as. -/
def Writer.verifyInstance (writer : Writer σ A) (s : Durable σ A) : Option StorageFailure :=
  match writer.authorityId s.business with
  | .error e => some e
  | .ok actual => if actual = writer.instanceId then none else some .conflict

/-- The transaction of a write: the operation, then the records of its events. -/
def settleClosure (writer : Writer σ A) (tenant : Uuid) (requireEvent : Bool)
    (operation : Operation σ α) : Closure (Durable σ A) α := fun s =>
  match writer.verifyInstance s with
  | some e => (none, .error e)
  | none =>
    match writer.lockAudit s with
    | some e => (none, .error e)
    | none =>
      match operation s.business with
      | .error e => (e.reason, .error e.failure)
      | .ok ((a, events), business) =>
        if (requireEvent = true ∧ events = []) ∨ maxMutationEvents < events.length then
          (none, .error .invariant)
        else
          match appendEvents writer tenant events { s with business } with
          | .error e => (none, .error e)
          | .ok s' => (none, .ok (a, s'))

/-- What a write answers, from the state it starts at: at once where the tenant is not served or
the time is over, or else what the runtime reports, with the reason beside it. -/
inductive Answers (writer : Writer σ A) (tenant : Uuid) (requireEvent : Bool) (timeout : ℕ)
    (operation : Operation σ α) (s : Durable σ A) :
    Option (TxReport α) → Except CallError α → Durable σ A → Prop
  | unserved (h : writer.tenants tenant = false) :
    Answers writer tenant requireEvent timeout operation s none
      (domainResult (.error .rejected) none) s
  | elapsed (h : writer.tenants tenant = true) (htimeout : timeout = 0) :
    Answers writer tenant requireEvent timeout operation s none
      (domainResult (.error (.notStarted .deadlineElapsed)) none) s
  | ran {slot : Option CallError} {report : TxReport α} {s' : Durable σ A}
    (h : writer.tenants tenant = true) (htimeout : timeout ≠ 0)
    (htx : LocalTx (settleClosure writer tenant requireEvent operation) s slot report s') :
    Answers writer tenant requireEvent timeout operation s (some report)
      (domainResult report.fold slot) s'

/-- What an operation did is stored together with the records of all its events. -/
structure Together (writer : Writer σ A) (tenant : Uuid) (requireEvent : Bool)
    (operation : Operation σ α) (s : Durable σ A) (a : α) (s' : Durable σ A) : Prop where
  stored : ∃ events records, operation s.business = .ok ((a, events), s'.business) ∧
    (requireEvent = true → events ≠ []) ∧ events.length ≤ maxMutationEvents ∧
    List.Forall₂ (fun event record => ∃ id now,
      mapEvent writer.format writer.instanceId tenant id now event = some record) events records ∧
    writer.store.recorded s'.audit = writer.store.recorded s.audit ++ records

/-- The events of an operation cannot be recorded: one is missing, they are too many, or one of
them gives no record. -/
inductive Unreportable (writer : Writer σ A) (tenant : Uuid) (requireEvent : Bool)
    (business : σ) : List SecurityEvent → Prop
  | missing (h : requireEvent = true) : Unreportable writer tenant requireEvent business []
  | tooMany {events : List SecurityEvent} (h : maxMutationEvents < events.length) :
    Unreportable writer tenant requireEvent business events
  | unmapped {events : List SecurityEvent} (hsome : events ≠ [])
    (h : ∀ now, writer.timepoint business = some now → writer.records tenant now events = none) :
    Unreportable writer tenant requireEvent business events

/-- What the answer of a write says about what is stored. -/
structure SettlementTruthful (writer : Writer σ A) (tenant : Uuid) (requireEvent : Bool)
    (operation : Operation σ α) (s : Durable σ A) (report : Option (TxReport α))
    (result : Except CallError α) (s' : Durable σ A) : Prop where
  /-- A value means that all of it is stored. -/
  success : ∀ a, result = .ok a →
    report = some (.committed a) ∧ Together writer tenant requireEvent operation s a s'
  /-- All of it is stored or nothing. -/
  atomic : s' = s ∨ ∃ a, Together writer tenant requireEvent operation s a s'
  /-- An error means that nothing is stored, unless the runtime is uncertain. -/
  failure : ∀ e, result = .error e → (∀ r, report = some r → r.uncertain = false) → s' = s
  /-- A reason is the one this operation failed for, and its rollback is confirmed. -/
  reason : ∀ e, result = .error e → e.isReason = true → s' = s ∧
    (∃ m, operation s.business = .error m ∧ m.reason = some e) ∧
      ∃ f, report = some (.rolledBack f)
  /-- An uncertain report reaches the caller. -/
  uncertain : ∀ r, report = some r → r.uncertain = true →
    result = r.fold ∧ ∃ e, r.fold = .error e ∧ e.isReason = false
  /-- Events that cannot be recorded store nothing. -/
  unreportable : ∀ a events business, operation s.business = .ok ((a, events), business) →
    Unreportable writer tenant requireEvent business events → s' = s ∧ ∀ a', result ≠ .ok a'

variable {writer : Writer σ A} {tenant : Uuid} {requireEvent : Bool} {timeout : ℕ}
  {operation : Operation σ α} {s s' : Durable σ A} {events : List SecurityEvent} {a : α}

/-- Records are made of all events, or of none. -/
theorem records_eq_some {now : ℤ} {records : List AuditRecord}
    (h : writer.records tenant now events = some records) :
    List.Forall₂ (fun event record => ∃ id now,
      mapEvent writer.format writer.instanceId tenant id now event = some record) events records := by
  have hall : ∀ (events : List SecurityEvent) (n : ℕ) (records : List AuditRecord),
      ((events.zipIdx n).mapM fun (event, n) => do
        let record ← mapEvent writer.format writer.instanceId tenant (writer.eventId n) now event
        if writer.store.prepares record then some record else none) = some records →
      List.Forall₂ (fun event record => ∃ id now,
        mapEvent writer.format writer.instanceId tenant id now event = some record)
        events records := by
    intro events
    induction events with
    | nil =>
      intro n records h
      obtain rfl : records = [] := by simpa using h.symm
      exact .nil
    | cons event events ih =>
      intro n records h
      simp only [List.zipIdx_cons, List.mapM_cons, Option.bind_eq_bind, Option.bind_eq_some_iff,
        Option.pure_def] at h
      obtain ⟨record, ⟨mapped, hmapped, hprepared⟩, rest, hrest, hrecords⟩ := h
      split at hprepared
      · obtain rfl := Option.some.inj hprepared
        obtain rfl := Option.some.inj hrecords
        exact .cons ⟨_, _, hmapped⟩ (ih (n + 1) rest hrest)
      · cases hprepared
  exact hall events 0 records h

/-- Appending events stores their records, and nothing else. -/
theorem appendEvents_eq_ok (h : appendEvents writer tenant events s = .ok s') :
    s'.business = s.business ∧ events.length ≤ maxMutationEvents ∧
      (events = [] ∨ ∃ now, writer.timepoint s.business = some now ∧
        writer.records tenant now events ≠ none) ∧
      ∃ records, List.Forall₂ (fun event record => ∃ id now,
          mapEvent writer.format writer.instanceId tenant id now event = some record)
          events records ∧
        writer.store.recorded s'.audit = writer.store.recorded s.audit ++ records := by
  unfold appendEvents at h
  split at h
  · cases h
  next hlength =>
    have hbound : events.length ≤ maxMutationEvents := by omega
    split at h
    next hnil =>
      obtain rfl := Except.ok.inj h
      subst hnil
      exact ⟨rfl, hbound, .inl rfl, [], .nil, by simp⟩
    next hsome =>
      cases htime : writer.timepoint s.business with
      | none => simp [htime] at h
      | some now =>
        simp only [htime] at h
        cases hrecords : writer.records tenant now events with
        | none => simp [hrecords] at h
        | some records =>
          simp only [hrecords] at h
          cases happend : writer.store.append records s.audit with
          | error e =>
            rw [happend] at h
            cases h
          | ok audit =>
            rw [happend] at h
            obtain rfl := Except.ok.inj h
            refine ⟨rfl, hbound, .inr ⟨now, rfl, by simp [hrecords]⟩, records,
              records_eq_some hrecords, ?_⟩
            exact writer.store.append_recorded happend

/-- A transaction that ends well has done all of it, and left no reason. -/
theorem settleClosure_eq_ok {slot : Option CallError}
    (h : settleClosure writer tenant requireEvent operation s = (slot, .ok (a, s'))) :
    slot = none ∧ Together writer tenant requireEvent operation s a s' ∧
      ∀ a events business, operation s.business = .ok ((a, events), business) →
        ¬ Unreportable writer tenant requireEvent business events := by
  unfold settleClosure at h
  split at h
  · simp at h
  · split at h
    · simp at h
    · split at h
      · simp at h
      next a₁ events business hoperation =>
        split at h
        · simp at h
        next hreportable =>
          split at h
          · simp at h
          next s₁ happend =>
            simp only [Prod.mk.injEq, Except.ok.injEq] at h
            obtain ⟨rfl, rfl, rfl⟩ := h
            obtain ⟨hbusiness, hbound, hmapped, records, hrecords, hrecorded⟩ :=
              appendEvents_eq_ok happend
            simp only at hbusiness hrecorded hmapped
            subst hbusiness
            have hevent : requireEvent = true → events ≠ [] :=
              fun hrequired hnil => hreportable (.inl ⟨hrequired, hnil⟩)
            refine ⟨rfl, ⟨events, records, hoperation, hevent, hbound, hrecords, hrecorded⟩, ?_⟩
            intro a₂ events₂ business₂ hsame hbad
            rw [hoperation, Except.ok.injEq, Prod.mk.injEq, Prod.mk.injEq] at hsame
            obtain ⟨⟨rfl, rfl⟩, rfl⟩ := hsame
            cases hbad with
            | missing hrequired => exact hevent hrequired rfl
            | tooMany hmany => omega
            | unmapped hsome hnone =>
              rcases hmapped with hnil | ⟨now, htime, hsome'⟩
              · exact hsome hnil
              · exact hsome' (hnone now htime)

/-- What a transaction leaves in the slot is the reason its operation failed for. -/
theorem settleClosure_slot {e : CallError}
    (h : (settleClosure writer tenant requireEvent operation s).1 = some e) :
    ∃ m, operation s.business = .error m ∧ m.reason = some e := by
  unfold settleClosure at h
  split at h
  · cases h
  · split at h
    · cases h
    · split at h
      next m hoperation => exact ⟨m, hoperation, h⟩
      · split at h
        · cases h
        · split at h
          · cases h
          · cases h

/-- A reason beside a report changes an unexplained refusal only. -/
theorem domainResult_eq_ok {result : Except CallError α} {reason : Option CallError} :
    domainResult result reason = .ok a ↔ result = .ok a := by
  unfold domainResult
  split
  · simp
  · rfl

/-- An answer with a reason had it beside a refusal. -/
theorem domainResult_reason {report : TxReport α} {slot : Option CallError} {e : CallError}
    (h : domainResult report.fold slot = .error e) (he : e.isReason = true) :
    slot = some e ∧ ∃ f, report = .rolledBack f := by
  cases report with
  | committed a =>
    simp only [TxReport.fold, domainResult] at h
    cases h
  | rolledBack f =>
    by_cases hconflict : f = .conflict
    · subst hconflict
      cases slot with
      | none =>
        obtain rfl : CallError.rejected = e := Except.error.inj h
        cases he
      | some reason =>
        obtain rfl : reason = e := Except.error.inj h
        exact ⟨rfl, _, rfl⟩
    · simp only [TxReport.fold, if_neg hconflict, domainResult] at h
      obtain rfl := Except.error.inj h
      cases he
  | _ =>
    simp only [TxReport.fold, domainResult] at h
    obtain rfl := Except.error.inj h
    cases he

/-- An uncertain report is what the caller gets, whatever is beside it. -/
theorem domainResult_uncertain {report : TxReport α} (h : report.uncertain = true)
    (slot : Option CallError) :
    domainResult report.fold slot = report.fold ∧
      ∃ e, report.fold = .error e ∧ e.isReason = false := by
  cases report with
  | rollbackFailed f => exact ⟨rfl, _, rfl, rfl⟩
  | commitUnknown f => exact ⟨rfl, _, rfl, rfl⟩
  | fenced => exact ⟨rfl, _, rfl, rfl⟩
  | _ => cases h

/-- A report of a value is a report of a commit. -/
theorem TxReport.fold_eq_ok {report : TxReport α} : report.fold = .ok a ↔ report = .committed a := by
  cases report <;> simp [TxReport.fold]

/-- A transaction stores nothing, or all that its closure did. -/
theorem LocalTx.stored {closure : Closure σ α} {s s' : σ} {slot : Option CallError}
    {report : TxReport α} (h : LocalTx closure s slot report s') :
    s' = s ∨ ∃ a, closure s = (slot, .ok (a, s')) := by
  cases h with
  | committed h => exact .inr ⟨_, h⟩
  | kept _ h => exact .inr ⟨_, h⟩
  | _ => exact .inl rfl

/-- What is in the slot comes from the closure. -/
theorem LocalTx.slot {closure : Closure σ α} {s s' : σ} {slot : Option CallError}
    {report : TxReport α} (h : LocalTx closure s slot report s') :
    slot = none ∨ slot = (closure s).1 := by
  cases h with
  | notStarted => exact .inl rfl
  | committed h => exact .inr (by rw [h])
  | rolledBack _ h => exact h
  | lost _ h => exact h
  | kept _ h => exact .inr (by rw [h])

/-- A commit is reported of a closure that ended with the value. -/
theorem LocalTx.of_committed {closure : Closure σ α} {s s' : σ} {slot : Option CallError} {a : α}
    (h : LocalTx closure s slot (.committed a) s') : closure s = (slot, .ok (a, s')) := by
  cases h with
  | committed h => exact h
  | lost huncertain => cases huncertain
  | kept huncertain => cases huncertain

/-- A certain report of anything else is about a transaction that left nothing. -/
theorem LocalTx.unchanged {closure : Closure σ α} {s s' : σ} {slot : Option CallError}
    {report : TxReport α} (h : LocalTx closure s slot report s') (hcertain : report.uncertain = false)
    (hreport : ∀ a, report ≠ .committed a) : s' = s := by
  cases h with
  | committed => exact absurd rfl (hreport _)
  | kept huncertain =>
    rw [hcertain] at huncertain
    cases huncertain
  | _ => rfl

/-- What a transaction of a write reports and leaves. -/
theorem LocalTx.truthful {slot : Option CallError} {report : TxReport α}
    (h : LocalTx (settleClosure writer tenant requireEvent operation) s slot report s') :
    SettlementTruthful writer tenant requireEvent operation s (some report)
      (domainResult report.fold slot) s' where
  success a hok := by
    have hreport := TxReport.fold_eq_ok.mp (domainResult_eq_ok.mp hok)
    subst hreport
    exact ⟨rfl, (settleClosure_eq_ok h.of_committed).2.1⟩
  atomic := by
    rcases h.stored with rfl | ⟨a, hclosure⟩
    · exact .inl rfl
    · exact .inr ⟨a, (settleClosure_eq_ok hclosure).2.1⟩
  failure e herror hcertain := by
    refine h.unchanged (hcertain report rfl) fun a hreport => ?_
    subst hreport
    simp only [TxReport.fold, domainResult] at herror
    cases herror
  reason e herror he := by
    obtain ⟨hslot, f, rfl⟩ := domainResult_reason herror he
    refine ⟨h.unchanged rfl (by simp), ?_, f, rfl⟩
    rcases h.slot with hnone | hclosure
    · rw [hslot] at hnone
      cases hnone
    · exact settleClosure_slot (hclosure ▸ hslot)
  uncertain r hreport huncertain := by
    obtain rfl := Option.some.inj hreport
    exact domainResult_uncertain huncertain slot
  unreportable a events business hoperation hbad := by
    constructor
    · rcases h.stored with rfl | ⟨a', hclosure⟩
      · rfl
      · exact absurd hbad ((settleClosure_eq_ok hclosure).2.2 a events business hoperation)
    · intro a' hok
      have hreport := TxReport.fold_eq_ok.mp (domainResult_eq_ok.mp hok)
      subst hreport
      exact (settleClosure_eq_ok h.of_committed).2.2 a events business hoperation hbad

/-- A write that the runtime is not asked for leaves everything as it is, and gives no reason. -/
theorem SettlementTruthful.of_refusal {e : CallError} (he : e.isReason = false) :
    SettlementTruthful writer tenant requireEvent operation s none (.error e) s where
  success _ hok := by cases hok
  atomic := .inl rfl
  failure _ _ _ := rfl
  reason e' herror he' := by
    obtain rfl := Except.error.inj herror
    rw [he] at he'
    cases he'
  uncertain _ hreport := by cases hreport
  unreportable _ _ _ _ _ := ⟨rfl, by simp⟩

/-- What every write of an operation answers is true of what it left. -/
def WriteTruthful (writer : Writer σ A) (tenant : Uuid) (requireEvent : Bool) (timeout : ℕ)
    (operation : Operation σ α) : Prop :=
  ∀ s report result s', Answers writer tenant requireEvent timeout operation s report result s' →
    SettlementTruthful writer tenant requireEvent operation s report result s'

/-- Settlement is atomic and truthful. -/
theorem settlement_truthful (writer : Writer σ A) (tenant : Uuid) (requireEvent : Bool)
    (timeout : ℕ) (operation : Operation σ α) :
    WriteTruthful writer tenant requireEvent timeout operation := by
  intro s report result s' h
  cases h with
  | unserved => exact .of_refusal rfl
  | elapsed => exact .of_refusal rfl
  | ran _ _ htx => exact htx.truthful

end Settlement

end IdentityAuthority
