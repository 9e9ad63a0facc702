import Mathlib.Data.List.Basic

/-!
Removal from the live front of an array. The array keeps its slots and a count says how many
of them are in use; an element is removed by moving each later live element one slot down,
one assignment after the other. On the live front this erases the element
(`take_shiftDown`), and the slots behind it are of no concern. A loop over the live front sees
it as the part that is done and the part that is left.
-/
namespace Bindfs.Lib.Compaction

variable {α : Type}

/-- Assign slot `j + 1` to slot `j`, for `j` up to but not including `last`. -/
def shiftDown (slots : List α) (j last : Nat) : List α :=
  if j < last then
    match slots[j + 1]? with
    | some a => shiftDown (slots.set j a) (j + 1) last
    | none => slots
  else slots
termination_by last - j

theorem getElem?_shiftDown (slots : List α) (j last k : Nat) (bound : last < slots.length) :
    (shiftDown slots j last)[k]? = if j ≤ k ∧ k < last then slots[k + 1]? else slots[k]? := by
  fun_induction shiftDown slots j last with
  | case1 slots j running a found ih =>
    rw [ih (by simpa using bound)]
    by_cases moved : j ≤ k ∧ k < last
    · rw [if_pos moved]
      by_cases here : j = k
      · subst here
        rw [if_neg (by omega), List.getElem?_set_self (by omega), found]
      · rw [if_pos (by omega), List.getElem?_set_ne (by omega)]
    · rw [if_neg moved, if_neg (by omega), List.getElem?_set_ne (by omega)]
  | case2 slots j running missing =>
    have inside : j + 1 < slots.length := by omega
    simp [inside] at missing
  | case3 slots j stopped =>
    rw [if_neg (by omega)]

theorem length_shiftDown (slots : List α) (j last : Nat) :
    (shiftDown slots j last).length = slots.length := by
  fun_induction shiftDown slots j last with
  | case1 slots j running a found ih => rw [ih, List.length_set]
  | case2 slots j running missing => rfl
  | case3 slots j stopped => rfl

/-- With one element less in use, the live front has lost the element at `j`. -/
theorem take_shiftDown (slots : List α) {j last : Nat} (bound : last < slots.length)
    (inside : j ≤ last) :
    (shiftDown slots j last).take last = (slots.take (last + 1)).eraseIdx j := by
  apply List.ext_getElem?
  intro k
  rw [List.getElem?_take, List.getElem?_eraseIdx, List.getElem?_take, List.getElem?_take,
    getElem?_shiftDown slots j last k bound]
  by_cases live : k < last
  · rw [if_pos live]
    by_cases before : k < j
    · rw [if_pos before, if_neg (by omega), if_pos (by omega)]
    · rw [if_neg before, if_pos (by omega), if_pos (by omega)]
  · rw [if_neg live, if_neg (by omega), if_neg (by omega)]

/-! ## A live front split where a loop stands -/

section
variable {slots front rest : List α} {a : α} {count : Nat}

theorem length_of_live (bound : count ≤ slots.length) (live : slots.take count = front) :
    front.length = count := by
  rw [← live, List.length_take]
  omega

/-- A loop inside the live front has an element in front of it. -/
theorem exists_next_of_running (bound : count ≤ slots.length)
    (live : slots.take count = front ++ rest) (running : front.length < count) :
    ∃ a later, rest = a :: later := by
  apply List.exists_cons_of_ne_nil
  rintro rfl
  have size := length_of_live bound live
  rw [List.append_nil] at size
  omega

theorem nil_of_stopped (bound : count ≤ slots.length) (live : slots.take count = front ++ rest)
    (stopped : ¬ front.length < count) : rest = [] := by
  have size := length_of_live bound live
  rw [List.length_append] at size
  exact List.length_eq_zero_iff.mp (by omega)

theorem getD_of_live (live : slots.take count = front ++ a :: rest) (other : α) :
    slots.getD front.length other = a := by
  have slot : (slots.take count)[front.length]? = some a := by
    rw [live]
    simp
  rw [List.getElem?_take] at slot
  split at slot
  · rw [List.getD_eq_getElem?_getD, slot]
    rfl
  · cases slot

theorem take_set_of_live (live : slots.take count = front ++ a :: rest) (new : α) :
    (slots.set front.length new).take count = front ++ new :: rest := by
  rw [List.take_set, live]
  simp

/-- The last live element goes when the count does. -/
theorem take_pred_of_live (bound : count ≤ slots.length) (live : slots.take count = front ++ [a]) :
    slots.take (count - 1) = front := by
  have size := length_of_live bound live
  rw [List.length_append, List.length_singleton] at size
  have shorter := congrArg (List.take (count - 1)) live
  rw [List.take_take, Nat.min_eq_left (by omega)] at shorter
  rw [shorter]
  exact List.take_left' (by omega)

/-- Moving the later elements down takes out the element where the loop stands. -/
theorem take_shiftDown_append (bound : count ≤ slots.length)
    (live : slots.take count = front ++ a :: rest) :
    (shiftDown slots front.length (count - 1)).take (count - 1) = front ++ rest := by
  have size := length_of_live bound live
  rw [List.length_append, List.length_cons] at size
  have whole : count - 1 + 1 = count := by omega
  rw [take_shiftDown slots (by omega) (by omega), whole, live]
  simp [List.eraseIdx_append_of_length_le]

end

end Bindfs.Lib.Compaction
