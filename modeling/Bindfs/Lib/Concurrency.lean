import Mathlib.Data.Finset.Basic
import Mathlib.Logic.Function.Basic

/-!
# Runs of a step relation, and a readers-writer lock

`Run` takes a state through a list of actions; `Run.invariant` is induction over it, for runs
whose actions all are of some kind.

`RwLock` is a readers-writer lock that is correct by construction: it has either one writer or
some readers. `Agrees` ties the lock to the sections its threads are in, whatever the threads
do otherwise.
-/
namespace Bindfs.Lib.Concurrency

/-! ## Runs -/

section
variable {σ α : Type}

/-- The states that a list of actions leads to. -/
inductive Run (step : σ → α → σ → Prop) : σ → List α → σ → Prop
  | done (state : σ) : Run step state [] state
  | next {state middle final : σ} {action : α} {rest : List α} :
      step state action middle → Run step middle rest final → Run step state (action :: rest) final

theorem Run.invariant {step : σ → α → σ → Prop} (allowed : α → Prop) (inv : σ → Prop)
    {initial final : σ} {actions : List α} (ran : Run step initial actions final)
    (all : ∀ action ∈ actions, allowed action) (start : inv initial)
    (preserved : ∀ state action next, allowed action → inv state → step state action next → inv next) :
    inv final := by
  induction ran with
  | done => exact start
  | next stepped _ ih =>
    apply ih fun other member => all other (by simp [member])
    exact preserved _ _ _ (all _ (by simp)) start stepped

end

/-! ## The lock -/

inductive RwLock (ι : Type) where
  | readers (holders : Finset ι)
  | writer (holder : ι)

section
variable {ι : Type}

def RwLock.free : RwLock ι := .readers ∅

def RwLock.WrittenBy (lock : RwLock ι) (thread : ι) : Prop := lock = .writer thread

def RwLock.ReadBy (lock : RwLock ι) (thread : ι) : Prop :=
  ∃ holders, lock = .readers holders ∧ thread ∈ holders

theorem RwLock.WrittenBy.eq {lock : RwLock ι} {thread other : ι} (written : lock.WrittenBy thread)
    (written' : lock.WrittenBy other) : thread = other := by
  cases written.symm.trans written'
  rfl

theorem RwLock.WrittenBy.not_readBy {lock : RwLock ι} {thread other : ι} (written : lock.WrittenBy thread) :
    ¬ lock.ReadBy other := by
  rintro ⟨holders, reading, -⟩
  cases written.symm.trans reading

/-! ## Threads that keep to the lock -/

/-- The part of its program a thread is in. -/
inductive Section where
  | outside | reading | writing
  deriving DecidableEq

/-- The threads in a section are exactly those that hold the lock for it. -/
structure Agrees (lock : RwLock ι) (sections : ι → Section) : Prop where
  writing : ∀ thread, sections thread = .writing ↔ lock.WrittenBy thread
  reading : ∀ thread, sections thread = .reading ↔ lock.ReadBy thread

variable {lock : RwLock ι} {sections : ι → Section} {thread : ι}

theorem agrees_free (outside : ∀ thread, sections thread = .outside) :
    Agrees (RwLock.free : RwLock ι) sections where
  writing thread := by simp [outside, RwLock.WrittenBy, RwLock.free]
  reading thread := by simp [outside, RwLock.ReadBy, RwLock.free]

/-- A writer is alone. -/
theorem Agrees.alone (agrees : Agrees lock sections) (writes : sections thread = .writing) {other : ι}
    (inside : sections other ≠ .outside) : other = thread := by
  have written := (agrees.writing thread).mp writes
  cases found : sections other with
  | outside => exact absurd found inside
  | reading => exact absurd ((agrees.reading other).mp found) written.not_readBy
  | writing => exact ((agrees.writing other).mp found).eq written

/-! ## Locking and unlocking -/

variable [DecidableEq ι] {next : RwLock ι}

/-- Granted when nobody holds the lock. -/
def RwLock.lockWrite : RwLock ι → ι → Option (RwLock ι)
  | .readers holders, thread => if holders = ∅ then some (.writer thread) else none
  | .writer _, _ => none

/-- Granted when there is no writer. -/
def RwLock.lockRead : RwLock ι → ι → Option (RwLock ι)
  | .readers holders, thread => some (.readers (insert thread holders))
  | .writer _, _ => none

def RwLock.unlock : RwLock ι → ι → RwLock ι
  | .readers holders, thread => .readers (holders.erase thread)
  | .writer _, _ => .free

theorem Agrees.lockWrite (agrees : Agrees lock sections) (granted : lock.lockWrite thread = some next) :
    Agrees next (Function.update sections thread .writing) := by
  cases lock with
  | writer holder => cases granted
  | readers holders =>
    simp only [RwLock.lockWrite] at granted
    split at granted
    · rename_i unused
      cases granted
      subst unused
      have none_writes : ∀ other, sections other ≠ .writing := by
        intro other writes
        cases (agrees.writing other).mp writes
      have none_reads : ∀ other, sections other ≠ .reading := by
        intro other reads
        obtain ⟨holders, same, member⟩ := (agrees.reading other).mp reads
        cases same
        simp at member
      refine ⟨fun other => ?_, fun other => ?_⟩
      · by_cases self : other = thread
        · simp [self, RwLock.WrittenBy]
        · simp [self, Ne.symm self, none_writes other, RwLock.WrittenBy]
      · by_cases self : other = thread
        · simp [self, RwLock.ReadBy]
        · simp [self, none_reads other, RwLock.ReadBy]
    · cases granted

theorem Agrees.lockRead (agrees : Agrees lock sections) (granted : lock.lockRead thread = some next) :
    Agrees next (Function.update sections thread .reading) := by
  cases lock with
  | writer holder => cases granted
  | readers holders =>
    cases granted
    have none_writes : ∀ other, sections other ≠ .writing := by
      intro other writes
      cases (agrees.writing other).mp writes
    have reads : ∀ other, sections other = .reading ↔ other ∈ holders := by
      intro other
      rw [agrees.reading other]
      simp [RwLock.ReadBy]
    refine ⟨fun other => ?_, fun other => ?_⟩
    · by_cases self : other = thread
      · simp [self, RwLock.WrittenBy]
      · simp [self, none_writes other, RwLock.WrittenBy]
    · by_cases self : other = thread
      · simp [self, RwLock.ReadBy]
      · simp [self, reads other, RwLock.ReadBy]

theorem Agrees.unlock (agrees : Agrees lock sections) (inside : sections thread ≠ .outside) :
    Agrees (lock.unlock thread) (Function.update sections thread .outside) := by
  cases lock with
  | writer holder =>
    have writes : ∀ other, sections other = .writing ↔ holder = other := by
      intro other
      rw [agrees.writing other]
      simp [RwLock.WrittenBy]
    have none_reads : ∀ other, sections other ≠ .reading := by
      intro other reads
      obtain ⟨holders, same, -⟩ := (agrees.reading other).mp reads
      cases same
    have owner : holder = thread := by
      rw [← writes]
      cases found : sections thread with
      | outside => exact absurd found inside
      | reading => exact absurd found (none_reads thread)
      | writing => rfl
    subst owner
    refine ⟨fun other => ?_, fun other => ?_⟩
    · by_cases self : other = holder
      · simp [self, RwLock.unlock, RwLock.WrittenBy, RwLock.free]
      · simp [self, writes other, Ne.symm self, RwLock.unlock, RwLock.WrittenBy, RwLock.free]
    · by_cases self : other = holder
      · simp [self, RwLock.unlock, RwLock.ReadBy, RwLock.free]
      · simp [self, none_reads other, RwLock.unlock, RwLock.ReadBy, RwLock.free]
  | readers holders =>
    have none_writes : ∀ other, sections other ≠ .writing := by
      intro other writes
      cases (agrees.writing other).mp writes
    have reads : ∀ other, sections other = .reading ↔ other ∈ holders := by
      intro other
      rw [agrees.reading other]
      simp [RwLock.ReadBy]
    refine ⟨fun other => ?_, fun other => ?_⟩
    · by_cases self : other = thread
      · simp [self, RwLock.unlock, RwLock.WrittenBy]
      · simp [self, none_writes other, RwLock.unlock, RwLock.WrittenBy]
    · by_cases self : other = thread
      · simp [self, RwLock.unlock, RwLock.ReadBy]
      · simp [self, reads other, RwLock.unlock, RwLock.ReadBy]

end

end Bindfs.Lib.Concurrency
