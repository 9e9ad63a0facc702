import Mathlib.Data.List.Sort

/-!
# Sorting and searching by a comparison function

The contracts of `qsort` and `bsearch` over elements of any type. `Sane` is what holds
whatever the comparison function does: sorting permutes, a search returns nothing or an
element that compares equal. `Conforms` adds what the C standard promises for a consistent
comparison function. Which of several equal elements a search returns is left open;
`preferring` is a conforming implementation for every choice.
-/
namespace Bindfs.Lib.SortSearch

variable {α κ : Type}

/-- `bsearch` is given the comparison of the key with an element. -/
structure Sorter (α : Type) where
  qsort : (α → α → Int) → List α → List α
  bsearch : (α → Int) → List α → Option α

/-! ## Contracts -/

/-- A comparison of keys that orders those of a kind. -/
structure Orders (kind : κ → Prop) (compare : κ → κ → Int) : Prop where
  antisymm : ∀ {a b}, kind a → kind b → (compare a b ≤ 0 ↔ 0 ≤ compare b a)
  trans : ∀ {a b c}, kind a → kind b → kind c →
    compare a b ≤ 0 → compare b c ≤ 0 → compare a c ≤ 0

/-- The elements below the key come first, then those equal to it, then those above. -/
def Partitioned (compareKey : α → Int) (items : List α) : Prop :=
  items.Pairwise fun a b => (compareKey a ≤ 0 → compareKey b ≤ 0) ∧ (compareKey a < 0 → compareKey b < 0)

structure Sorter.Sane (lib : Sorter α) : Prop where
  qsort_perm : ∀ compare items, (lib.qsort compare items).Perm items
  bsearch_found : ∀ compareKey items found, lib.bsearch compareKey items = some found →
    found ∈ items ∧ compareKey found = 0

structure Sorter.Conforms (lib : Sorter α) : Prop extends lib.Sane where
  qsort_sorted : ∀ compare items, Orders (· ∈ items) compare →
    (lib.qsort compare items).Pairwise fun a b => compare a b ≤ 0
  bsearch_finds : ∀ compareKey items, Partitioned compareKey items →
    (∃ a ∈ items, compareKey a = 0) → ∃ found, lib.bsearch compareKey items = some found

/-- Some key of a list comes before all the others. -/
theorem Orders.exists_least {compare : κ → κ → Int} {items : List κ}
    (orders : Orders (· ∈ items) compare) (nonempty : items ≠ []) :
    ∃ least ∈ items, ∀ a ∈ items, compare least a ≤ 0 := by
  induction items with
  | nil => exact absurd rfl nonempty
  | cons a rest ih =>
    have itself : compare a a ≤ 0 := by
      have swapped := orders.antisymm List.mem_cons_self (List.mem_cons_self (a := a) (l := rest))
      omega
    have later : Orders (· ∈ rest) compare :=
      ⟨fun inA inB => orders.antisymm (.tail _ inA) (.tail _ inB),
        fun inA inB inC => orders.trans (.tail _ inA) (.tail _ inB) (.tail _ inC)⟩
    by_cases alone : rest = []
    · subst alone
      exact ⟨a, List.mem_cons_self, by simpa using itself⟩
    · obtain ⟨least, member, below⟩ := ih later alone
      by_cases first : compare a least ≤ 0
      · refine ⟨a, List.mem_cons_self, fun b inB => ?_⟩
        rcases List.mem_cons.mp inB with rfl | inB
        · exact itself
        · exact orders.trans List.mem_cons_self (.tail _ member) (.tail _ inB) first (below b inB)
      · refine ⟨least, .tail _ member, fun b inB => ?_⟩
        rcases List.mem_cons.mp inB with rfl | inB
        · have swapped := orders.antisymm (.tail _ member) (List.mem_cons_self (a := b) (l := rest))
          omega
        · exact below b inB

/-! ## Elements compared by a key -/

theorem Orders.comap {kind : κ → Prop} {compare : κ → κ → Int} (orders : Orders kind compare)
    (key : α → κ) {items : List α} (keys : ∀ a ∈ items, kind (key a)) :
    Orders (· ∈ items) fun a b => compare (key a) (key b) where
  antisymm inA inB := orders.antisymm (keys _ inA) (keys _ inB)
  trans inA inB inC := orders.trans (keys _ inA) (keys _ inB) (keys _ inC)

/-- A list sorted by a key is laid out for a search for any key of the kind. -/
theorem Orders.partitioned {kind : κ → Prop} {compare : κ → κ → Int} (orders : Orders kind compare)
    (key : α → κ) {items : List α} (keys : ∀ a ∈ items, kind (key a))
    (sorted : items.Pairwise fun a b => compare (key a) (key b) ≤ 0) {wanted : κ} (known : kind wanted) :
    Partitioned (fun a => compare wanted (key a)) items := by
  apply sorted.imp_of_mem
  intro a b inA inB below
  simp only
  refine ⟨fun upto => orders.trans known (keys a inA) (keys b inB) upto below, fun above => ?_⟩
  by_contra reached
  have back : compare (key b) wanted ≤ 0 :=
    (orders.antisymm (keys b inB) known).mpr (by omega)
  have through := orders.trans (keys a inA) (keys b inB) known below back
  have forth := (orders.antisymm (keys a inA) known).mp through
  omega

theorem Sorter.Conforms.sorted_by_key {lib : Sorter α} (conforms : lib.Conforms)
    {kind : κ → Prop} {compare : κ → κ → Int} (orders : Orders kind compare) (key : α → κ)
    {items : List α} (keys : ∀ a ∈ items, kind (key a)) :
    (lib.qsort (fun a b => compare (key a) (key b)) items).Pairwise
      fun a b => compare (key a) (key b) ≤ 0 :=
  conforms.qsort_sorted _ _ (orders.comap key keys)

theorem Sorter.Conforms.finds_by_key {lib : Sorter α} (conforms : lib.Conforms)
    {kind : κ → Prop} {compare : κ → κ → Int} (orders : Orders kind compare) (key : α → κ)
    {items : List α} (keys : ∀ a ∈ items, kind (key a))
    (sorted : items.Pairwise fun a b => compare (key a) (key b) ≤ 0) {wanted : κ}
    (known : kind wanted) {a : α} (member : a ∈ items) (equal : compare wanted (key a) = 0) :
    ∃ found, lib.bsearch (fun a => compare wanted (key a)) items = some found :=
  conforms.bsearch_finds _ _ (orders.partitioned key keys sorted known) ⟨a, member, equal⟩

/-! ## A conforming implementation for every choice among equal elements -/

/-- Insertion sort, and a search that returns an element of `choice` where one compares equal. -/
def Sorter.preferring (choice : α → Bool) : Sorter α where
  qsort compare items := items.insertionSort fun a b => compare a b ≤ 0
  bsearch compareKey items :=
    (items.find? fun a => compareKey a = 0 && choice a).or (items.find? fun a => compareKey a = 0)

theorem pairwise_insertionSort_of_orders (compare : α → α → Int) (items : List α)
    (orders : Orders (· ∈ items) compare) :
    (items.insertionSort fun a b => compare a b ≤ 0).Pairwise fun a b => compare a b ≤ 0 := by
  -- The comparison is an order on the elements of the list only, so the subtype is sorted.
  let below (a b : { a // a ∈ items }) : Prop := compare a b ≤ 0
  have total : Std.Total below := ⟨fun a b => by
    have dual := orders.antisymm a.2 b.2
    simp only [below]
    omega⟩
  have transitive : IsTrans _ below := ⟨fun a b c => orders.trans a.2 b.2 c.2⟩
  have restricted : items.insertionSort (fun a b => compare a b ≤ 0) =
      (items.attach.insertionSort below).map Subtype.val := by
    rw [List.map_insertionSort below (fun a b => compare a b ≤ 0) _ _ fun _ _ _ _ => Iff.rfl,
      List.attach_map_subtype_val]
  rw [restricted, List.pairwise_map]
  exact List.pairwise_insertionSort below _

theorem Sorter.conforms_preferring (choice : α → Bool) : (preferring choice).Conforms where
  qsort_perm compare items := List.perm_insertionSort _ items
  bsearch_found := by
    intro compareKey items found search
    rcases Option.or_eq_some_iff.mp search with chosen | ⟨-, other⟩
    · have equal := List.find?_some chosen
      simp only [Bool.and_eq_true, decide_eq_true_eq] at equal
      exact ⟨List.mem_of_find?_eq_some chosen, equal.1⟩
    · exact ⟨List.mem_of_find?_eq_some other, by simpa using List.find?_some other⟩
  qsort_sorted := pairwise_insertionSort_of_orders
  bsearch_finds := by
    rintro compareKey items - ⟨a, member, equal⟩
    have some_equal : (items.find? fun a => decide (compareKey a = 0)).isSome := by
      rw [List.find?_isSome]
      exact ⟨a, member, by simpa using equal⟩
    obtain ⟨other, search⟩ := Option.isSome_iff_exists.mp some_equal
    cases chosen : items.find? fun a => decide (compareKey a = 0) && choice a with
    | none => exact ⟨other, Option.or_eq_some_iff.mpr (Or.inr ⟨chosen, search⟩)⟩
    | some first => exact ⟨first, Option.or_eq_some_iff.mpr (Or.inl chosen)⟩

theorem Sorter.bsearch_preferring (choice : α → Bool) {compareKey : α → Int} {items : List α}
    {a : α} (member : a ∈ items) (equal : compareKey a = 0) (wanted : choice a = true) :
    ∃ found ∈ items, (preferring choice).bsearch compareKey items = some found ∧
      compareKey found = 0 ∧ choice found = true := by
  have some_chosen : (items.find? fun a => decide (compareKey a = 0) && choice a).isSome := by
    rw [List.find?_isSome]
    exact ⟨a, member, by simp [equal, wanted]⟩
  obtain ⟨first, chosen⟩ := Option.isSome_iff_exists.mp some_chosen
  have both := List.find?_some chosen
  simp only [Bool.and_eq_true, decide_eq_true_eq] at both
  exact ⟨first, List.mem_of_find?_eq_some chosen, Option.or_eq_some_iff.mpr (Or.inl chosen), both⟩

end Bindfs.Lib.SortSearch
