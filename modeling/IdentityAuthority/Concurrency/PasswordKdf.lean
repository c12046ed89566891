import Mathlib.Tactic
import IdentityAuthority.Transition.Replay

/-!
# Password computations

All clones of a `PasswordKdf` share a semaphore, a gate and a task tracker. A computation is admitted
in one critical section and ends in a blocking closure that nobody waits for any more, once its waiter
is cancelled.
-/

namespace IdentityAuthority

/-- Why a password computation fails. -/
inductive PasswordError
  | invalid
  | busy
  | unavailable
deriving DecidableEq, Repr

/-- How the work of a closure ends. -/
inductive WorkEnd
  | returned (result : Except PasswordError Unit)
  | panicked
deriving DecidableEq

/-- How far a closure is. When its work has ended, by a panic too, it drops its guards in the reverse
order of their declaration: first the token, then the permit. -/
inductive Phase
  | queued
  | running
  | worked (workEnd : WorkEnd)
  | untracked (workEnd : WorkEnd)
  | released (workEnd : WorkEnd)
deriving DecidableEq

/-- Whoever called `compute` for a closure. -/
inductive Waiter
  | awaiting
  | cancelled
  | answered (result : Except PasswordError Unit)
deriving DecidableEq

/-- A closure that was admitted, with its waiter. -/
structure BlockingClosure where
  phase : Phase
  waiter : Waiter
deriving DecidableEq

/-- What happens to a closure and to its waiter. -/
inductive Act
  | start
  | finish (workEnd : WorkEnd)
  | untrack
  | release
  | cancel
  | answer
deriving DecidableEq

namespace BlockingClosure

/-- The work is under way. -/
def running (closure : BlockingClosure) : Bool := decide (closure.phase = .running)

/-- The work has ended. -/
def ended (closure : BlockingClosure) : Bool :=
  match closure.phase with
  | .queued | .running => false
  | _ => true

/-- The closure holds a token of the tracker. -/
def tracked (closure : BlockingClosure) : Bool :=
  match closure.phase with
  | .queued | .running | .worked _ => true
  | _ => false

/-- The closure holds a permit of the semaphore. -/
def holds (closure : BlockingClosure) : Bool :=
  match closure.phase with
  | .released _ => false
  | _ => true

/-- What a caller is answered: a panic is reported as unavailability. -/
def answer : WorkEnd → Except PasswordError Unit
  | .returned result => result
  | .panicked => .error .unavailable

/-- What the closure or its waiter may do. -/
def act (closure : BlockingClosure) : Act → Option BlockingClosure
  | .start =>
    match closure.phase with
    | .queued => some { closure with phase := .running }
    | _ => none
  | .finish workEnd =>
    match closure.phase with
    | .running => some { closure with phase := .worked workEnd }
    | _ => none
  | .untrack =>
    match closure.phase with
    | .worked workEnd => some { closure with phase := .untracked workEnd }
    | _ => none
  | .release =>
    match closure.phase with
    | .untracked workEnd => some { closure with phase := .released workEnd }
    | _ => none
  | .cancel =>
    match closure.waiter with
    | .awaiting => some { closure with waiter := .cancelled }
    | _ => none
  | .answer =>
    match closure.waiter, closure.phase with
    | .awaiting, .released workEnd => some { closure with waiter := .answered (answer workEnd) }
    | _, _ => none

end BlockingClosure

/-- How far a call of `wait_closed` is. -/
inductive Wait
  | pending
  | notified
  | returned
deriving DecidableEq

/-- What the clones share, with the closures and the calls of `wait_closed` so far. -/
structure PasswordKdf where
  admission : Bool
  closed : Bool
  tokens : ℕ
  available : ℕ
  closures : List BlockingClosure
  waits : List Wait

/-- What happens to a `PasswordKdf`. -/
inductive KdfLabel
  | compute
  | act (i : ℕ) (act : Act)
  | close
  | wait
  | notify (w : ℕ)
  | wake (w : ℕ)
deriving DecidableEq

namespace PasswordKdf

/-- `MAX_CONCURRENCY`. -/
def maxConcurrency : ℕ := 4

/-- `PasswordKdf::new`. -/
def new : PasswordKdf :=
  { admission := true, closed := false, tokens := 0, available := maxConcurrency, closures := [],
    waits := [] }

/-- `compute`, until it awaits its closure. -/
def compute (kdf : PasswordKdf) : Except PasswordError PasswordKdf :=
  if kdf.admission = false then .error .unavailable
  else if kdf.available = 0 then .error .busy
  else
    .ok { kdf with
      available := kdf.available - 1
      tokens := kdf.tokens + 1
      closures := kdf.closures ++ [⟨.queued, .awaiting⟩] }

/-- `close`. -/
def close (kdf : PasswordKdf) : PasswordKdf := { kdf with admission := false, closed := true }

/-- One closure, or its waiter, goes on; the guards that it drops are given back. -/
def act (kdf : PasswordKdf) (i : ℕ) (a : Act) : Option PasswordKdf := do
  let closure ← kdf.closures[i]?
  let next ← closure.act a
  some { kdf with
    tokens := if a = .untrack then kdf.tokens - 1 else kdf.tokens
    available := if a = .release then kdf.available + 1 else kdf.available
    closures := kdf.closures.set i next }

/-- One step. A pending `wait_closed` is notified when the tracker is closed and empty. -/
def step (kdf : PasswordKdf) : KdfLabel → Option PasswordKdf
  | .compute =>
    match kdf.compute with
    | .ok next => some next
    | .error _ => some kdf
  | .act i a => kdf.act i a
  | .close => some kdf.close
  | .wait => some { kdf with waits := kdf.waits ++ [.pending] }
  | .notify w =>
    if kdf.waits[w]? = some .pending ∧ kdf.closed = true ∧ kdf.tokens = 0 then
      some { kdf with waits := kdf.waits.set w .notified }
    else none
  | .wake w =>
    if kdf.waits[w]? = some .notified then some { kdf with waits := kdf.waits.set w .returned }
    else none

/-- The steps, as a relation. -/
abbrev KdfStep : PasswordKdf → KdfLabel → PasswordKdf → Prop := Transition.Fires step

/-- The runs of a new `PasswordKdf`: any interleaving of calls of its clones, of cancellations, of the
work and of the drain. -/
abbrev Runs (trace : List (Transition.Event PasswordKdf KdfLabel)) (kdf : PasswordKdf) : Prop :=
  Transition.Run KdfStep new trace kdf

end PasswordKdf

end IdentityAuthority
