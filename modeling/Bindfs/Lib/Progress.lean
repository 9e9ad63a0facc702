import Mathlib.Algebra.BigOperators.Group.Finset.Basic
import Mathlib.Algebra.Order.BigOperators.Group.Finset
import Mathlib.Tactic.Abel
import Bindfs.Lib.Concurrency

/-!
# Work that comes to an end

Threads get work by calls and do it in steps of their own, while the environment interferes. If
a call brings at most so much work, a step of work takes some away and nothing else brings any,
a run makes no more steps of work than its calls have brought (`Run.work_le`). If in addition
work that is left can always be continued, it can be brought to an end (`Run.completes`).

The work of a system is the sum over its threads (`total`); what a step does to one thread is an
equation between two sums (`total_update`).
-/
namespace Bindfs.Lib.Concurrency

section
variable {σ α : Type} {step : σ → α → σ → Prop} {left : σ → Nat}

/-- All the work done and left was there at the start or was brought by a call. -/
theorem Run.work_le {works calls : α → Bool} {most : Nat}
    (worked : ∀ s action s', step s action s' →
      left s' + (works action).toNat ≤ left s + most * (calls action).toNat)
    {s s' : σ} {actions : List α} (ran : Run step s actions s') :
    left s' + actions.countP works ≤ left s + most * actions.countP calls := by
  induction ran with
  | done s => simp
  | @next s middle s' action rest stepped _ ih =>
    have delta := worked s action middle stepped
    rw [List.countP_cons, List.countP_cons, Nat.mul_add]
    cases working : works action <;> cases calling : calls action <;>
      simp only [working, calling, Bool.toNat_true, Bool.toNat_false, Bool.false_eq_true, if_true, if_false]
        at delta ⊢ <;>
      omega

/-- What every step adds to by its action alone. -/
theorem Run.accrued {M : Type} [AddMonoid M] {amount : σ → M} {adds : α → M}
    (added : ∀ s action s', step s action s' → amount s' = amount s + adds action)
    {s s' : σ} {actions : List α} (ran : Run step s actions s') :
    amount s' = amount s + (actions.map adds).sum := by
  induction ran with
  | done s => simp
  | next stepped _ ih => rw [ih, added _ _ _ stepped, List.map_cons, List.sum_cons, add_assoc]

theorem sum_toNat_eq_countP (chosen : α → Bool) (actions : List α) :
    (actions.map fun action => (chosen action).toNat).sum = actions.countP chosen := by
  induction actions with
  | nil => rfl
  | cons action rest ih =>
    rw [List.map_cons, List.sum_cons, ih, List.countP_cons, Nat.add_comm]
    cases chosen action <;> rfl

theorem Run.counted {amount : σ → Nat} {chosen : α → Bool}
    (added : ∀ s action s', step s action s' → amount s' = amount s + (chosen action).toNat)
    {s s' : σ} {actions : List α} (ran : Run step s actions s') :
    amount s' = amount s + actions.countP chosen := by
  rw [ran.accrued added, sum_toNat_eq_countP]

theorem Run.append {s middle s' : σ} {first second : List α} (before : Run step s first middle)
    (after : Run step middle second s') : Run step s (first ++ second) s' := by
  induction before with
  | done => exact after
  | next stepped _ ih => exact .next stepped (ih after)

/-- Work that can always be continued can be brought to an end. -/
theorem Run.completes (inv : σ → Prop) (allowed : α → Prop)
    (continues : ∀ s, inv s → 0 < left s → ∃ actions s', Run step s actions s' ∧
      (∀ action ∈ actions, allowed action) ∧ inv s' ∧ left s' < left s) {s : σ} (start : inv s) :
    ∃ actions s', Run step s actions s' ∧ (∀ action ∈ actions, allowed action) ∧ inv s' ∧ left s' = 0 := by
  induction work : left s using Nat.strong_induction_on generalizing s with
  | _ amount ih =>
    rcases Nat.eq_zero_or_pos amount with none | some
    · exact ⟨[], s, .done s, nofun, start, work.trans none⟩
    · obtain ⟨first, middle, ran, fine, inv', less⟩ := continues s start (by omega)
      obtain ⟨second, s', ran', fine', inv'', ended⟩ := ih (left middle) (by omega) inv' rfl
      refine ⟨first ++ second, s', ran.append ran', ?_, inv'', ended⟩
      intro action member
      rcases List.mem_append.mp member with early | late
      · exact fine action early
      · exact fine' action late

end

/-! ## Sums over threads -/

section
variable {ι τ M : Type} [Fintype ι] [AddCommMonoid M]

def total (weight : τ → M) (threads : ι → τ) : M := ∑ thread, weight (threads thread)

theorem total_update [DecidableEq ι] (weight : τ → M) (threads : ι → τ) (thread : ι) (next : τ) :
    total weight (Function.update threads thread next) + weight (threads thread) =
      total weight threads + weight next := by
  have others : ∑ other ∈ Finset.univ.erase thread, weight (Function.update threads thread next other) =
      ∑ other ∈ Finset.univ.erase thread, weight (threads other) := by
    apply Finset.sum_congr rfl
    intro other member
    rw [Function.update_of_ne (Finset.ne_of_mem_erase member)]
  have after := Finset.add_sum_erase Finset.univ (fun other => weight (Function.update threads thread next other))
    (Finset.mem_univ thread)
  have before := Finset.add_sum_erase Finset.univ (fun other => weight (threads other)) (Finset.mem_univ thread)
  rw [Function.update_self, others] at after
  rw [total, total, ← after, ← before, add_right_comm, add_comm (weight next), add_right_comm]

/-- What goes over from a thread to an account, or is added to both, is not lost. -/
theorem add_total_update {M : Type} [AddCancelCommMonoid M] [DecidableEq ι] (weight : τ → M) (threads : ι → τ)
    {thread : ι} {next : τ} {account account' added : M}
    (moved : account' + weight next = account + weight (threads thread) + added) :
    account' + total weight (Function.update threads thread next) = account + total weight threads + added := by
  have sums := total_update weight threads thread next
  apply add_right_cancel (b := weight next + weight (threads thread))
  calc
    account' + total weight (Function.update threads thread next) + (weight next + weight (threads thread)) =
        (account' + weight next) + (total weight (Function.update threads thread next) + weight (threads thread)) :=
      by abel
    _ = (account + weight (threads thread) + added) + (total weight threads + weight next) := by rw [moved, sums]
    _ = account + total weight threads + added + (weight next + weight (threads thread)) := by abel

theorem total_eq_zero_iff (weight : τ → Nat) (threads : ι → τ) :
    total weight threads = 0 ↔ ∀ thread, weight (threads thread) = 0 := by
  simp [total, Finset.sum_eq_zero_iff]

end

/-! ## Waiting for the lock -/

section
variable {ι : Type} {lock : RwLock ι} {sections : ι → Section}

/-- A lock that nobody is inside of is free. -/
theorem Agrees.free_of_outside (agrees : Agrees lock sections) (outside : ∀ thread, sections thread = .outside) :
    lock = .free := by
  cases lock with
  | writer holder =>
    have writes := (agrees.writing holder).mpr rfl
    rw [outside holder] at writes
    cases writes
  | readers holders =>
    have none : holders = ∅ := by
      rw [Finset.eq_empty_iff_forall_notMem]
      intro thread member
      have reads := (agrees.reading thread).mpr ⟨holders, rfl, member⟩
      rw [outside thread] at reads
      cases reads
    rw [none]
    rfl

end

end Bindfs.Lib.Concurrency
