import Mathlib.Logic.Relation
import Bindfs.Lib.Concurrency
import Bindfs.Lib.Effects

/-!
# Programs as sequences of licensed moves

`effects` says which worlds a call may lead to. A program is `Traced` from a world if it issues
only licensed calls and the world it leaves is reached by their effects. The property composes
along programs, and what every licensed call keeps a traced program keeps. A run of traced
programs, interrupted by changes from outside, is a sequence of moves again.
-/
namespace Bindfs.Lib.Moves
open Bindfs.Lib.Effects Bindfs.Lib.Concurrency Relation

section
variable {W C E α β : Type} {effects : W → C → W → Prop} {licensed : C → Prop} {world : W}

/-- What one licensed call can do. -/
def Move (effects : W → C → W → Prop) (licensed : C → Prop) (world world' : W) : Prop :=
  ∃ c, licensed c ∧ effects world c world'

structure Traced (effects : W → C → W → Prop) (licensed : C → Prop) (program : Eff W C E α) (world : W) :
    Prop where
  issues : Issues (fun _ c => licensed c) program world
  reached : ReflTransGen (Move effects licensed) world (program.exec world).world

theorem Traced.pure (value : α) : Traced effects licensed (pure value : Eff W C E α) world :=
  ⟨Issues.pure value, .refl⟩

theorem Traced.fail (error : E) : Traced effects licensed (Effects.fail error : Eff W C E α) world :=
  ⟨Issues.fail error, .refl⟩

theorem Traced.ask {c : C} (answer : W → Except E α) (allowed : licensed c) :
    Traced effects licensed (Effects.ask c answer) world :=
  ⟨Issues.ask allowed, .refl⟩

theorem Traced.call {c : C} {effect : W → Except E (α × W)} (allowed : licensed c)
    (does : ∀ value world', effect world = .ok (value, world') → effects world c world') :
    Traced effects licensed (Effects.call c effect) world := by
  refine ⟨Issues.call allowed, ?_⟩
  cases answered : effect world with
  | error error =>
    rw [exec_call_error c answered]
  | ok answer =>
    obtain ⟨value, world'⟩ := answer
    rw [exec_call_ok c answered]
    exact .single ⟨c, allowed, does value world' answered⟩

theorem Traced.attempt {program : Eff W C E α} (traced : Traced effects licensed program world) :
    Traced effects licensed (Effects.attempt program) world :=
  ⟨traced.issues.attempt, traced.reached⟩

theorem Traced.bind {program : Eff W C E α} {next : α → Eff W C E β}
    (first : Traced effects licensed program world)
    (rest : ∀ value, (program.exec world).result = .ok value →
      Traced effects licensed (next value) (program.exec world).world) :
    Traced effects licensed (program >>= next) world := by
  refine ⟨first.issues.bind fun value ended => (rest value ended).issues, ?_⟩
  rw [exec_bind]
  cases ended : (program.exec world).result with
  | error error =>
    simp only [Outcome.andThen, ended]
    exact first.reached
  | ok value =>
    simp only [Outcome.andThen, ended, world_after]
    exact first.reached.trans (rest value ended).reached

end

/-! ## From every world -/

section
variable {W C E α β : Type} {effects : W → C → W → Prop} {licensed : C → Prop}

/-- Traced wherever it starts. -/
def Licit (effects : W → C → W → Prop) (licensed : C → Prop) (program : Eff W C E α) : Prop :=
  ∀ world, Traced effects licensed program world

theorem Licit.pure (value : α) : Licit effects licensed (pure value : Eff W C E α) :=
  fun _ => Traced.pure value

theorem Licit.fail (error : E) : Licit effects licensed (Effects.fail error : Eff W C E α) :=
  fun _ => Traced.fail error

theorem Licit.ask {c : C} (answer : W → Except E α) (allowed : licensed c) :
    Licit effects licensed (Effects.ask c answer) :=
  fun _ => Traced.ask answer allowed

theorem Licit.attempt {program : Eff W C E α} (licit : Licit effects licensed program) :
    Licit effects licensed (Effects.attempt program) :=
  fun world => (licit world).attempt

theorem Licit.mono {licensed' : C → Prop} {program : Eff W C E α} (licit : Licit effects licensed program)
    (implies : ∀ c, licensed c → licensed' c) : Licit effects licensed' program :=
  fun world => ⟨fun entry issued => implies _ ((licit world).issues entry issued),
    ReflTransGen.mono (fun _ _ ⟨c, allowed, does⟩ => ⟨c, implies c allowed, does⟩) _ _
      (licit world).reached⟩

theorem Licit.bind {program : Eff W C E α} {next : α → Eff W C E β}
    (first : Licit effects licensed program) (rest : ∀ value, Licit effects licensed (next value)) :
    Licit effects licensed (program >>= next) :=
  fun world => (first world).bind fun value _ => rest value _

end

/-! ## Runs -/

section
variable {W C E α ρ : Type} {effects : W → C → W → Prop} {licensed : C → Prop}

/-- A request that is served, or a change from outside. -/
inductive Event (ρ : Type) where
  | request (asked : ρ)
  | outside

/-- The world after an event; `outside` says which changes are made from outside. -/
inductive Serves (program : ρ → Eff W C E α) (outside : W → W → Prop) : W → Event ρ → W → Prop
  | request (world : W) (asked : ρ) :
      Serves program outside world (.request asked) ((program asked).exec world).world
  | outside {world world' : W} : outside world world' → Serves program outside world .outside world'

theorem reached_of_run {program : ρ → Eff W C E α} {outside : W → W → Prop} {world final : W}
    {events : List (Event ρ)} (ran : Run (Serves program outside) world events final)
    (licit : ∀ asked, .request asked ∈ events → Licit effects licensed (program asked)) :
    ReflTransGen (fun world world' => Move effects licensed world world' ∨ outside world world')
      world final := by
  induction ran with
  | done => exact .refl
  | next stepped _ ih =>
    refine ReflTransGen.trans ?_ (ih fun asked later => licit asked (List.mem_cons_of_mem _ later))
    cases stepped with
    | request asked =>
      exact ReflTransGen.mono (fun _ _ => Or.inl) _ _ (licit asked List.mem_cons_self _).reached
    | outside changed => exact .single (Or.inr changed)

/-- What the licensed calls and the changes from outside keep is kept by every run. -/
theorem kept_of_run {program : ρ → Eff W C E α} {outside : W → W → Prop}
    (licit : ∀ asked, Licit effects licensed (program asked)) {world final : W}
    {events : List (Event ρ)} (ran : Run (Serves program outside) world events final) (inv : W → Prop)
    (calls : ∀ c world world', licensed c → effects world c world' → inv world → inv world')
    (others : ∀ world world', outside world world' → inv world → inv world') (start : inv world) :
    inv final := by
  have path := reached_of_run ran fun asked _ => licit asked
  clear ran
  induction path with
  | refl => exact start
  | tail _ moved ih =>
    rcases moved with ⟨c, allowed, does⟩ | changed
    · exact calls c _ _ allowed does ih
    · exact others _ _ changed ih

end

end Bindfs.Lib.Moves
