import Mathlib.Data.List.Basic
import Mathlib.Order.Defs.PartialOrder

/-!
# Cells of a heap

Two things that are said of the cells of a heap. Where they lie: an extent reaches from its
first position up to but not including its last, and two of them are apart when one ends before
the other begins; parts of extents that are apart are apart. And how they are linked: a pointer
leads to a cell, the cell's content to the next one, and so on until the null pointer, such that
every live cell is met exactly once (`Linked`).
-/
namespace Bindfs.Lib.HeapCells

/-! ## Extents -/

structure Extent (α : Type) where
  first : α
  last : α

section Extents
variable {α : Type} [Preorder α]

def Extent.Apart (e f : Extent α) : Prop := e.last ≤ f.first ∨ f.last ≤ e.first

def Extent.Within (part whole : Extent α) : Prop :=
  whole.first ≤ part.first ∧ part.last ≤ whole.last

theorem Extent.Within.trans {e f g : Extent α} (inner : e.Within f) (outer : f.Within g) :
    e.Within g :=
  ⟨le_trans outer.1 inner.1, le_trans inner.2 outer.2⟩

theorem Extent.Apart.symm {e f : Extent α} (apart : e.Apart f) : f.Apart e := Or.symm apart

theorem Extent.Apart.within {e f part other : Extent α} (apart : e.Apart f)
    (left : part.Within e) (right : other.Within f) : part.Apart other := by
  rcases apart with before | behind
  · exact .inl (le_trans left.2 (le_trans before right.1))
  · exact .inr (le_trans right.2 (le_trans behind left.1))

end Extents

/-! ## Live cells -/

section Cells
variable {A V : Type}

def addresses (heap : List (A × V)) : List A := heap.map Prod.fst

variable [DecidableEq A]

def find (heap : List (A × V)) (a : A) : Option V := (heap.find? fun cell => cell.1 = a).map Prod.snd

def put (heap : List (A × V)) (a : A) (v : V) : List (A × V) :=
  heap.map fun cell => if cell.1 = a then (a, v) else cell

def remove (heap : List (A × V)) (a : A) : List (A × V) := heap.filter fun cell => cell.1 ≠ a

@[simp]
theorem find_head (a : A) (v : V) (rest : List (A × V)) : find ((a, v) :: rest) a = some v := by
  simp [find]

theorem put_head {a : A} {rest : List (A × V)} (once : a ∉ addresses rest) (v w : V) :
    put ((a, v) :: rest) a w = (a, w) :: rest := by
  have others : rest.map (fun cell => if cell.1 = a then (a, w) else cell) = rest := by
    rw [List.map_congr_left, List.map_id']
    intro cell member
    exact if_neg fun same => once (List.mem_map.mpr ⟨cell, member, same⟩)
  simp [put, others]

theorem remove_head {a : A} {rest : List (A × V)} (once : a ∉ addresses rest) (v : V) :
    remove ((a, v) :: rest) a = rest := by
  have others : rest.filter (fun cell => cell.1 ≠ a) = rest := by
    rw [List.filter_eq_self]
    intro cell member
    exact decide_eq_true fun same => once (List.mem_map.mpr ⟨cell, member, same⟩)
  simpa [remove] using others

theorem length_remove {heap : List (A × V)} {a : A} {v : V} (live : find heap a = some v) :
    (remove heap a).length < heap.length := by
  obtain ⟨cell, found, -⟩ := Option.map_eq_some_iff.mp live
  have here : cell.1 = a := by simpa using List.find?_some found
  refine List.length_filter_lt_length_iff_exists.mpr ⟨cell, List.mem_of_find?_eq_some found, ?_⟩
  simp [here]

end Cells

/-! ## Links -/

section Links
variable {A V : Type} (next : V → A) (null : A)

/-- From the pointer on, the links lead through all cells of the heap, in its order. -/
inductive Linked : A → List (A × V) → Prop
  | stop : Linked null []
  | link {a : A} {v : V} {rest : List (A × V)} (valid : a ≠ null) (once : a ∉ addresses rest)
      (linked : Linked (next v) rest) : Linked a ((a, v) :: rest)

variable {next null}

theorem Linked.nodup {p : A} {heap : List (A × V)} (linked : Linked next null p heap) :
    (addresses heap).Nodup := by
  induction linked with
  | stop => exact List.nodup_nil
  | link _ once _ ih => exact List.nodup_cons.mpr ⟨once, ih⟩

/-- The content of the first cell may change, as long as it leads to the same cell. -/
theorem Linked.replace {p a : A} {v w : V} {rest : List (A × V)}
    (linked : Linked next null p ((a, v) :: rest)) (same : next w = next v) :
    Linked next null p ((a, w) :: rest) := by
  cases linked with
  | link valid once linked => exact .link valid once (same ▸ linked)

theorem Linked.head {p : A} {heap : List (A × V)} (linked : Linked next null p heap)
    (valid : p ≠ null) :
    ∃ v rest, heap = (p, v) :: rest ∧ p ∉ addresses rest ∧ Linked next null (next v) rest := by
  cases linked with
  | stop => exact absurd rfl valid
  | link _ once linked => exact ⟨_, _, rfl, once, linked⟩

end Links

end Bindfs.Lib.HeapCells
