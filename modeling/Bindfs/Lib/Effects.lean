import Mathlib.Data.List.Basic

/-!
# Programs that call into a world

A program over a world `W` issues calls `C`, each of which may change the world or fail
with an error `E`, and ends with a value or an error. Executing it yields the result, the
final world and the journal of its calls, each with the world it was issued in. A call
that fails changes nothing.

Three properties compose along programs: `Issues` (every journalled call is admissible),
`Confined` (so it is, and an alarming call ends the program with a given error) and `Keeps`
(the world is left as it was).
-/
namespace Bindfs.Lib.Effects

structure Outcome (W C E α : Type) where
  result : Except E α
  world : W
  calls : List (W × C)

def Outcome.after {W C E α : Type} (earlier : List (W × C)) (outcome : Outcome W C E α) :
    Outcome W C E α :=
  { outcome with calls := earlier ++ outcome.calls }

def Eff (W C E α : Type) := W → Outcome W C E α

section
variable {W C E α β : Type}

def Eff.exec (program : Eff W C E α) (world : W) : Outcome W C E α := program world

def Outcome.andThen (outcome : Outcome W C E α) (next : α → Eff W C E β) : Outcome W C E β :=
  match outcome.result with
  | .ok value => ((next value).exec outcome.world).after outcome.calls
  | .error error => ⟨.error error, outcome.world, outcome.calls⟩

instance : Monad (Eff W C E) where
  pure value := fun world => ⟨.ok value, world, []⟩
  bind program next := fun world => (program.exec world).andThen next

/-- End the program with an error. -/
def fail (error : E) : Eff W C E α := fun world => ⟨.error error, world, []⟩

/-- Issue a call that may change the world. -/
def call (c : C) (effect : W → Except E (α × W)) : Eff W C E α := fun world =>
  match effect world with
  | .ok (value, world') => ⟨.ok value, world', [(world, c)]⟩
  | .error error => ⟨.error error, world, [(world, c)]⟩

/-- Issue a call that only reads. -/
def ask (c : C) (answer : W → Except E α) : Eff W C E α :=
  fun world => ⟨answer world, world, [(world, c)]⟩

/-- Run a program and hand its error to the caller as a value. -/
def attempt (program : Eff W C E α) : Eff W C E (Except E α) := fun world =>
  let outcome := program.exec world
  ⟨.ok outcome.result, outcome.world, outcome.calls⟩

/-! ## Execution -/

variable (world : W) (value : α) (error : E) (c : C)

@[simp]
theorem exec_pure : (pure value : Eff W C E α).exec world = ⟨.ok value, world, []⟩ := rfl

@[simp]
theorem exec_fail : (fail error : Eff W C E α).exec world = ⟨.error error, world, []⟩ := rfl

@[simp]
theorem exec_ask (answer : W → Except E α) :
    (ask c answer).exec world = ⟨answer world, world, [(world, c)]⟩ := rfl

@[simp]
theorem exec_attempt (program : Eff W C E α) :
    (attempt program).exec world =
      ⟨.ok (program.exec world).result, (program.exec world).world, (program.exec world).calls⟩ :=
  rfl

@[simp]
theorem exec_bind (program : Eff W C E α) (next : α → Eff W C E β) :
    (program >>= next).exec world = (program.exec world).andThen next := rfl

theorem exec_call_ok {effect : W → Except E (α × W)} {world world' : W} {value : α}
    (succeeds : effect world = .ok (value, world')) :
    (call c effect).exec world = ⟨.ok value, world', [(world, c)]⟩ := by
  simp [call, Eff.exec, succeeds]

theorem exec_call_error {effect : W → Except E (α × W)} {world : W} {error : E}
    (fails : effect world = .error error) :
    (call c effect).exec world = ⟨.error error, world, [(world, c)]⟩ := by
  simp [call, Eff.exec, fails]

@[simp]
theorem calls_call (effect : W → Except E (α × W)) :
    ((call c effect).exec world).calls = [(world, c)] := by
  cases answered : effect world with
  | ok pair => simp [call, Eff.exec, answered]
  | error e => simp [call, Eff.exec, answered]

@[simp]
theorem andThen_ok (log : List (W × C)) (next : α → Eff W C E β) :
    (⟨.ok value, world, log⟩ : Outcome W C E α).andThen next =
      ((next value).exec world).after log := rfl

@[simp]
theorem andThen_error (log : List (W × C)) (next : α → Eff W C E β) :
    (⟨.error error, world, log⟩ : Outcome W C E α).andThen next = ⟨.error error, world, log⟩ := rfl

@[simp]
theorem result_after (log : List (W × C)) (outcome : Outcome W C E α) :
    (outcome.after log).result = outcome.result := rfl

@[simp]
theorem world_after (log : List (W × C)) (outcome : Outcome W C E α) :
    (outcome.after log).world = outcome.world := rfl

@[simp]
theorem calls_after (log : List (W × C)) (outcome : Outcome W C E α) :
    (outcome.after log).calls = log ++ outcome.calls := rfl

end

/-! ## Composition -/

section
variable {W C E α β γ : Type}

theorem after_andThen (log : List (W × C)) (outcome : Outcome W C E α) (next : α → Eff W C E β) :
    (outcome.after log).andThen next = (outcome.andThen next).after log := by
  obtain ⟨result, world, calls⟩ := outcome
  cases result with
  | ok value => simp [Outcome.after, Outcome.andThen]
  | error error => rfl

theorem andThen_andThen (outcome : Outcome W C E α) (next : α → Eff W C E β)
    (last : β → Eff W C E γ) :
    (outcome.andThen next).andThen last = outcome.andThen fun value => next value >>= last := by
  obtain ⟨result, world, calls⟩ := outcome
  cases result with
  | ok value => exact after_andThen calls _ last
  | error error => rfl

theorem andThen_pure (outcome : Outcome W C E α) : outcome.andThen pure = outcome := by
  obtain ⟨result, world, calls⟩ := outcome
  cases result with
  | ok value => simp [Outcome.after]
  | error error => rfl

/-- The monad laws; not an instance, since programs are mostly taken apart by `exec_bind`. -/
theorem lawful : LawfulMonad (Eff W C E) :=
  LawfulMonad.mk' (Eff W C E)
    (fun program => funext fun world => andThen_pure (program.exec world))
    (fun _ _ => rfl)
    (fun program next last => funext fun world => andThen_andThen (program.exec world) next last)

theorem exec_map (f : α → β) (program : Eff W C E α) (world : W) :
    (f <$> program).exec world =
      ⟨(program.exec world).result.map f, (program.exec world).world, (program.exec world).calls⟩ := by
  change (program.exec world).andThen (pure ∘ f) = _
  rcases program.exec world with ⟨error | value, world', calls⟩
  · rfl
  · change Outcome.mk _ _ (calls ++ []) = _
    rw [List.append_nil]
    rfl

/-- A value that only depends on the result can be computed after the attempt. -/
theorem attempt_map (f : α → β) (program : Eff W C E α) :
    attempt (f <$> program) = Except.map f <$> attempt program := by
  funext world
  change (attempt (f <$> program)).exec world = (Except.map f <$> attempt program).exec world
  rw [exec_map, exec_attempt, exec_attempt, exec_map]
  rfl

end

/-! ## Admissible calls -/

section
variable {W C E α β : Type} {world : W} {admissible : W → C → Prop}

/-- Every call the program issues from `world` is admissible where it is issued. -/
def Issues (admissible : W → C → Prop) (program : Eff W C E α) (world : W) : Prop :=
  ∀ entry ∈ (program.exec world).calls, admissible entry.1 entry.2

theorem Issues.pure (value : α) : Issues admissible (pure value : Eff W C E α) world := by
  intro entry member
  simp at member

theorem Issues.fail (error : E) :
    Issues admissible (Effects.fail error : Eff W C E α) world := by
  intro entry member
  simp at member

theorem Issues.ask {c : C} {answer : W → Except E α} (allowed : admissible world c) :
    Issues admissible (Effects.ask c answer) world := by
  intro entry member
  simp only [exec_ask, List.mem_singleton] at member
  subst member
  exact allowed

theorem Issues.call {c : C} {effect : W → Except E (α × W)} (allowed : admissible world c) :
    Issues admissible (Effects.call c effect) world := by
  intro entry member
  simp only [calls_call, List.mem_singleton] at member
  subst member
  exact allowed

theorem Issues.attempt {program : Eff W C E α} (issues : Issues admissible program world) :
    Issues admissible (Effects.attempt program) world := issues

theorem Issues.bind {program : Eff W C E α} {next : α → Eff W C E β}
    (first : Issues admissible program world)
    (rest : ∀ value, (program.exec world).result = .ok value →
      Issues admissible (next value) (program.exec world).world) :
    Issues admissible (program >>= next) world := by
  intro entry member
  rw [exec_bind] at member
  cases ended : (program.exec world).result with
  | error e =>
    simp only [Outcome.andThen, ended] at member
    exact first entry member
  | ok value =>
    simp only [Outcome.andThen, ended, calls_after, List.mem_append] at member
    cases member with
    | inl early => exact first entry early
    | inr late => exact rest value ended entry late

theorem Issues.of_ask {c : C} {answer : W → Except E α}
    (issues : Issues admissible (Effects.ask c answer) world) : admissible world c :=
  issues (world, c) (by simp)

theorem Issues.of_attempt {program : Eff W C E α}
    (issues : Issues admissible (Effects.attempt program) world) : Issues admissible program world :=
  issues

theorem Issues.of_call {c : C} {effect : W → Except E (α × W)}
    (issues : Issues admissible (Effects.call c effect) world) : admissible world c :=
  issues (world, c) (by simp)

theorem Issues.left {program : Eff W C E α} {next : α → Eff W C E β}
    (issues : Issues admissible (program >>= next) world) : Issues admissible program world := by
  intro entry member
  apply issues entry
  rw [exec_bind]
  cases ended : (program.exec world).result with
  | error e => simpa [Outcome.andThen, ended] using member
  | ok value => simp [Outcome.andThen, ended, member]

theorem Issues.right {program : Eff W C E α} {next : α → Eff W C E β}
    (issues : Issues admissible (program >>= next) world) (value : α)
    (ended : (program.exec world).result = .ok value) :
    Issues admissible (next value) (program.exec world).world := by
  intro entry member
  apply issues entry
  rw [exec_bind]
  simp [Outcome.andThen, ended, member]

end

/-! ## Alarms -/

section
variable {W C E α β : Type} {world : W} {admissible alarming : W → C → Prop} {error : E}

/-- Every call is admissible, and a program that made an alarming call ends with `error`. -/
structure Confined (admissible alarming : W → C → Prop) (error : E) (program : Eff W C E α)
    (world : W) : Prop where
  issues : Issues admissible program world
  alarmed : ∀ entry ∈ (program.exec world).calls, alarming entry.1 entry.2 →
    (program.exec world).result = .error error

theorem Confined.of_issues {program : Eff W C E α}
    (quiet : Issues (fun world c => admissible world c ∧ ¬ alarming world c) program world) :
    Confined admissible alarming error program world :=
  ⟨fun entry member => (quiet entry member).1,
    fun entry member alarm => absurd alarm (quiet entry member).2⟩

theorem Confined.bind {program : Eff W C E α} {next : α → Eff W C E β}
    (first : Confined admissible alarming error program world)
    (rest : ∀ value, (program.exec world).result = .ok value →
      Confined admissible alarming error (next value) (program.exec world).world) :
    Confined admissible alarming error (program >>= next) world := by
  refine ⟨first.issues.bind (fun value ended => (rest value ended).issues), ?_⟩
  intro entry member alarm
  rw [exec_bind] at member ⊢
  cases ended : (program.exec world).result with
  | error e =>
    simp only [Outcome.andThen, ended] at member ⊢
    have raised := first.alarmed entry member alarm
    rw [ended] at raised
    cases raised
    rfl
  | ok value =>
    simp only [Outcome.andThen, ended, calls_after, result_after, List.mem_append] at member ⊢
    cases member with
    | inl early =>
      rw [first.alarmed entry early alarm] at ended
      cases ended
    | inr late => exact (rest value ended).alarmed entry late alarm

end

/-! ## Programs that leave the world alone -/

section
variable {W C E α β : Type} {world : W}

def Keeps (program : Eff W C E α) (world : W) : Prop := (program.exec world).world = world

theorem Keeps.pure (value : α) : Keeps (pure value : Eff W C E α) world := rfl

theorem Keeps.ask (c : C) (answer : W → Except E α) : Keeps (Effects.ask c answer) world := rfl

theorem Keeps.attempt {program : Eff W C E α} (keeps : Keeps program world) :
    Keeps (Effects.attempt program) world := keeps

/-- The answers of a program that only reads compose like its errors do. -/
theorem Keeps.result_bind {program : Eff W C E α} (keeps : Keeps program world)
    (next : α → Eff W C E β) :
    ((program >>= next).exec world).result =
      (program.exec world).result >>= fun value => ((next value).exec world).result := by
  unfold Keeps at keeps
  rw [exec_bind]
  cases ended : (program.exec world).result with
  | error e =>
    simp only [Outcome.andThen, ended]
    rfl
  | ok value =>
    simp only [Outcome.andThen, ended, result_after, keeps]
    rfl

theorem Keeps.bind {program : Eff W C E α} {next : α → Eff W C E β}
    (first : Keeps program world)
    (rest : ∀ value, (program.exec world).result = .ok value → Keeps (next value) world) :
    Keeps (program >>= next) world := by
  unfold Keeps at first ⊢
  rw [exec_bind]
  cases ended : (program.exec world).result with
  | error e => simp only [Outcome.andThen, ended, first]
  | ok value =>
    simp only [Outcome.andThen, ended, world_after, first]
    exact rest value ended

end

end Bindfs.Lib.Effects
