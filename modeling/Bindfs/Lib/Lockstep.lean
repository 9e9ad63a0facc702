import Bindfs.Lib.Effects

/-!
# Programs in lockstep

Two programs run in lockstep when from every world they issue the same calls, leave the same
world and end alike: with the same error, or with values that are related. `Lockstep.bind` and
its companions carry this along programs of the same shape, and `Lockstep.refl` takes care of
the parts that the two have in common.
-/
namespace Bindfs.Lib.Effects

section
variable {W C E α β γ δ : Type}

/-- The same error, or values that are related. -/
inductive Alike (related : α → β → Prop) : Except E α → Except E β → Prop
  | ok {a : α} {b : β} : related a b → Alike related (.ok a) (.ok b)
  | error (error : E) : Alike related (.error error) (.error error)

theorem Alike.mono {related weaker : α → β → Prop} {left : Except E α} {right : Except E β}
    (ends : Alike related left right) (implies : ∀ a b, related a b → weaker a b) :
    Alike weaker left right := by
  cases ends with
  | ok values => exact .ok (implies _ _ values)
  | error error => exact .error error

theorem Alike.eq_map {f : α → β} {left : Except E α} {right : Except E β}
    (ends : Alike (fun a b => b = f a) left right) : right = left.map f := by
  cases ends with
  | ok values => exact congrArg Except.ok values
  | error error => rfl

structure Lockstep (related : α → β → Prop) (left : Eff W C E α) (right : Eff W C E β) : Prop where
  world : ∀ w, (right.exec w).world = (left.exec w).world
  calls : ∀ w, (right.exec w).calls = (left.exec w).calls
  result : ∀ w, Alike related (left.exec w).result (right.exec w).result

variable {related : α → β → Prop} {left : Eff W C E α} {right : Eff W C E β}

theorem Lockstep.refl (program : Eff W C E α) : Lockstep Eq program program where
  world _ := rfl
  calls _ := rfl
  result w := by
    cases (program.exec w).result with
    | ok value => exact .ok rfl
    | error error => exact .error error

theorem Lockstep.mono {weaker : α → β → Prop} (both : Lockstep related left right)
    (implies : ∀ a b, related a b → weaker a b) : Lockstep weaker left right where
  world := both.world
  calls := both.calls
  result w := (both.result w).mono implies

theorem Lockstep.pure {a : α} {b : β} (values : related a b) :
    Lockstep related (pure a : Eff W C E α) (pure b) :=
  ⟨fun _ => rfl, fun _ => rfl, fun _ => .ok values⟩

theorem Lockstep.fail (error : E) : Lockstep related (fail error : Eff W C E α) (fail error) :=
  ⟨fun _ => rfl, fun _ => rfl, fun _ => .error error⟩

theorem Lockstep.bind {related' : γ → δ → Prop} {next : α → Eff W C E γ} {next' : β → Eff W C E δ}
    (first : Lockstep related left right)
    (rest : ∀ a b, related a b → Lockstep related' (next a) (next' b)) :
    Lockstep related' (left >>= next) (right >>= next') := by
  have both (w : W) : (((right >>= next').exec w).world = ((left >>= next).exec w).world ∧
      ((right >>= next').exec w).calls = ((left >>= next).exec w).calls) ∧
      Alike related' ((left >>= next).exec w).result ((right >>= next').exec w).result := by
    have world := first.world w
    have calls := first.calls w
    have ends := first.result w
    simp only [exec_bind, Outcome.andThen]
    cases result : (left.exec w).result with
    | ok a =>
      cases result' : (right.exec w).result with
      | ok b =>
        rw [result, result'] at ends
        cases ends with
        | ok values =>
          have after := rest a b values
          simp only [world_after, calls_after, result_after, world, calls, after.world, after.calls]
          exact ⟨⟨trivial, trivial⟩, after.result _⟩
      | error error =>
        rw [result, result'] at ends
        cases ends
    | error error =>
      cases result' : (right.exec w).result with
      | ok b =>
        rw [result, result'] at ends
        cases ends
      | error error' =>
        rw [result, result'] at ends
        cases ends
        exact ⟨⟨world, calls⟩, .error error⟩
  exact ⟨fun w => (both w).1.1, fun w => (both w).1.2, fun w => (both w).2⟩

/-- A part in common, and then programs in lockstep. -/
theorem Lockstep.common {related' : γ → δ → Prop} (program : Eff W C E α) {next : α → Eff W C E γ}
    {next' : α → Eff W C E δ} (rest : ∀ a, Lockstep related' (next a) (next' a)) :
    Lockstep related' (program >>= next) (program >>= next') :=
  (Lockstep.refl program).bind fun a _ same => same ▸ rest a

theorem Lockstep.attempt (both : Lockstep related left right) :
    Lockstep (Alike (E := E) related) (attempt left) (attempt right) where
  world w := both.world w
  calls w := both.calls w
  result w := .ok (both.result w)

end

end Bindfs.Lib.Effects
