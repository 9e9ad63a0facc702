import Bindfs.Lib.Effects

/-!
# Programs under other names for their calls

`renamed f program` runs as `program` does and journals its calls under other names. It commutes
with the ways to build programs, so that two programs of the same shape whose calls correspond
by `f` are one the renaming of the other: the same results, the same worlds, and call by call
the same journal.
-/
namespace Bindfs.Lib.Effects

section
variable {W C C' E α β : Type}

def Outcome.renamed (f : C → C') (outcome : Outcome W C E α) : Outcome W C' E α :=
  ⟨outcome.result, outcome.world, outcome.calls.map fun entry => (entry.1, f entry.2)⟩

def Eff.renamed (f : C → C') (program : Eff W C E α) : Eff W C' E α :=
  fun world => (program.exec world).renamed f

variable (f : C → C')

theorem exec_renamed (program : Eff W C E α) (world : W) :
    (program.renamed f).exec world = (program.exec world).renamed f := rfl

@[simp]
theorem renamed_pure (value : α) : (pure value : Eff W C E α).renamed f = pure value := rfl

@[simp]
theorem renamed_fail (error : E) : (fail error : Eff W C E α).renamed f = fail error := rfl

@[simp]
theorem renamed_ask (c : C) (answer : W → Except E α) : (ask c answer).renamed f = ask (f c) answer := rfl

@[simp]
theorem renamed_attempt (program : Eff W C E α) :
    (attempt program).renamed f = attempt (program.renamed f) := rfl

@[simp]
theorem renamed_call (c : C) (effect : W → Except E (α × W)) :
    (call c effect).renamed f = call (f c) effect := by
  funext world
  change ((call c effect).exec world).renamed f = (call (f c) effect).exec world
  cases answered : effect world with
  | ok pair =>
    rw [exec_call_ok c answered, exec_call_ok (f c) answered]
    rfl
  | error error =>
    rw [exec_call_error c answered, exec_call_error (f c) answered]
    rfl

@[simp]
theorem renamed_bind (program : Eff W C E α) (next : α → Eff W C E β) :
    (program >>= next).renamed f = program.renamed f >>= fun value => (next value).renamed f := by
  funext world
  change ((program.exec world).andThen next).renamed f =
    ((program.exec world).renamed f).andThen fun value => (next value).renamed f
  rcases program.exec world with ⟨error | value, world', calls⟩
  · rfl
  · simp only [Outcome.andThen, Outcome.renamed, Outcome.after, exec_renamed, List.map_append]

/-- A value that is computed from a result can be computed by what comes next. -/
theorem bind_of_map {γ : Type} (g : α → β) (program : Eff W C E α) (next : β → Eff W C E γ) :
    (g <$> program) >>= next = program >>= fun value => next (g value) :=
  funext fun world => andThen_andThen (program.exec world) (pure ∘ g) next

theorem map_of_bind {γ : Type} (g : β → γ) (program : Eff W C E α) (next : α → Eff W C E β) :
    g <$> (program >>= next) = program >>= fun value => g <$> next value :=
  funext fun world => andThen_andThen (program.exec world) next (pure ∘ g)

end

end Bindfs.Lib.Effects
