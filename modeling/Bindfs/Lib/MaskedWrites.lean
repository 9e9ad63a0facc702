import Mathlib.Data.List.Induction

/-!
Masked writes to a machine word. A write replaces the bits under its mask by the
bits of its value and keeps every other bit. A run of writes is characterized bit
by bit: the last write whose mask covers a bit decides it, and a bit under no mask
is the bit of the initial word.
-/
namespace Bindfs.Lib.MaskedWrites

structure Write (w : Nat) where
  mask : BitVec w
  value : BitVec w
  deriving DecidableEq, Repr

variable {w : Nat}

namespace Write

def apply (wr : Write w) (word : BitVec w) : BitVec w :=
  (word &&& ~~~wr.mask) ||| (wr.value &&& wr.mask)

/-- The value this write gives to bit `i`, if its mask covers the bit. -/
def at? (wr : Write w) (i : Nat) : Option Bool :=
  if wr.mask.getLsbD i then some (wr.value.getLsbD i) else none

theorem getLsbD_apply (wr : Write w) (word : BitVec w) (i : Nat) :
    (wr.apply word).getLsbD i = (wr.at? i).getD (word.getLsbD i) := by
  simp only [apply, at?, BitVec.getLsbD_or, BitVec.getLsbD_and, BitVec.getLsbD_not]
  cases covered : wr.mask.getLsbD i with
  | true => simp
  | false =>
    by_cases inside : i < w
    · simp [inside]
    · have absent : word.getLsbD i = false := BitVec.getLsbD_of_ge word i (by omega)
      simp [absent]

theorem apply_of_empty_mask (value word : BitVec w) :
    (⟨0#w, value⟩ : Write w).apply word = word := by
  simp [apply]

end Write

def run (writes : List (Write w)) (word : BitVec w) : BitVec w :=
  writes.foldl (fun word wr => wr.apply word) word

/-- The value of the last write that covers bit `i`. -/
def last? (writes : List (Write w)) (i : Nat) : Option Bool :=
  writes.reverse.findSome? (fun wr => wr.at? i)

theorem last?_append_singleton (writes : List (Write w)) (wr : Write w) (i : Nat) :
    last? (writes ++ [wr]) i = (wr.at? i).or (last? writes i) := by
  unfold last?
  rw [List.reverse_append, List.reverse_singleton, List.singleton_append, List.findSome?_cons]
  cases wr.at? i with
  | none => rfl
  | some _ => rfl

/-- Last writer wins, bit by bit. The induction peels the last write: every earlier
write only matters through the word the last one receives. -/
theorem getLsbD_run (writes : List (Write w)) (word : BitVec w) (i : Nat) :
    (run writes word).getLsbD i = (last? writes i).getD (word.getLsbD i) := by
  induction writes using List.reverseRecOn with
  | nil => rfl
  | append_singleton writes wr ih =>
    have step : run (writes ++ [wr]) word = wr.apply (run writes word) := by
      simp [run]
    rw [step, Write.getLsbD_apply, ih, last?_append_singleton]
    cases wr.at? i with
    | none => rfl
    | some _ => rfl

/-- A bit outside every mask survives the whole run. -/
theorem getLsbD_run_of_uncovered (writes : List (Write w)) (word : BitVec w) (i : Nat)
    (uncovered : ∀ wr ∈ writes, wr.mask.getLsbD i = false) :
    (run writes word).getLsbD i = word.getLsbD i := by
  have none_covers : last? writes i = none := by
    simp only [last?, List.findSome?_eq_none_iff, List.mem_reverse]
    intro wr member
    simp [Write.at?, uncovered wr member]
  rw [getLsbD_run, none_covers, Option.getD_none]

end Bindfs.Lib.MaskedWrites
