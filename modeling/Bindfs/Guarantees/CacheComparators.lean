import Bindfs.Source.UserCacheQueries

/-!
# The comparison functions of the user cache

Ids are compared by a difference in `long` that is cut down to `int`, so an id counts as before
the 2^31 ids that follow it modulo 2^32. That is a cycle, not an order. On the ids of a database
it is an order exactly when all of them lie within half a turn of one of them
(`comparators_order_iff`).
-/
namespace Bindfs.Guarantees.CacheComparators
open Bindfs.Source Bindfs.Lib.SortSearch

/-! ## Comparisons as distances -/

/-- What is cut off does not show when the ids are near a common base. -/
theorem compareIds_of_near {base a b : Id} (nearA : (a - base).toNat < 2 ^ 31)
    (nearB : (b - base).toNat < 2 ^ 31) :
    compareIds a b = ((a - base).toNat : Int) - (b - base).toNat := by
  have boundA := a.isLt
  have boundB := b.isLt
  have boundBase := base.isLt
  rw [BitVec.toNat_sub] at nearA nearB ⊢
  rw [BitVec.toNat_sub]
  unfold compareIds longToInt
  rw [Int.bmod_def]
  omega

/-- An id is before those up to half a turn ahead of it. -/
theorem compareIds_neg_iff (a b : Id) :
    compareIds a b < 0 ↔ 0 < (b - a).toNat ∧ (b - a).toNat ≤ 2 ^ 31 := by
  have boundA := a.isLt
  have boundB := b.isLt
  rw [BitVec.toNat_sub]
  unfold compareIds longToInt
  rw [Int.bmod_def]
  omega

/-! ## Orders on the ids of a database -/

/-- What `qsort` and `bsearch` require of a pair of comparison functions, on entries whose keys
are among these ids. -/
structure OrdersEntries {α : Type} (key : α → Id) (sortcmp : α → α → Int) (searchcmp : Id → α → Int)
    (ids : List Id) : Prop where
  antisymm : ∀ a b, key a ∈ ids → key b ∈ ids → (sortcmp a b < 0 ↔ 0 < sortcmp b a)
  zero_iff : ∀ a b, key a ∈ ids → key b ∈ ids → (sortcmp a b = 0 ↔ key a = key b)
  trans : ∀ a b c, key a ∈ ids → key b ∈ ids → key c ∈ ids →
    sortcmp a b < 0 → sortcmp b c < 0 → sortcmp a c < 0
  search : ∀ a b, key a ∈ ids → key b ∈ ids → (searchcmp (key a) b).sign = (sortcmp a b).sign

/-- All the ids are less than half a turn ahead of one of them. -/
def WithinHalfTurn (ids : List Id) : Prop :=
  ids = [] ∨ ∃ base ∈ ids, ∀ id ∈ ids, (id - base).toNat < 2 ^ 31

instance (ids : List Id) : Decidable (WithinHalfTurn ids) :=
  inferInstanceAs (Decidable (_ ∨ _))

section
variable {α : Type} {key : α → Id} {ids : List Id}

/-- The comparison of entries by the comparison of their keys. -/
def byKey (key : α → Id) (a b : α) : Int := compareIds (key a) (key b)

/-- The same conditions on the ids themselves. -/
theorem orders_of_entries (entries : ∀ id, ∃ entry, key entry = id)
    (orders : OrdersEntries key (byKey key) (fun id entry => compareIds id (key entry)) ids) :
    Orders (· ∈ ids) compareIds := by
  have swap : ∀ a ∈ ids, ∀ b ∈ ids, (compareIds a b < 0 ↔ 0 < compareIds b a) := by
    intro a inA b inB
    obtain ⟨entry, rfl⟩ := entries a
    obtain ⟨other, rfl⟩ := entries b
    exact orders.antisymm entry other inA inB
  constructor
  · intro a b inA inB
    have swapped := swap b inB a inA
    omega
  · intro a b c inA inB inC upto upto'
    by_cases sameAB : a = b
    · exact sameAB ▸ upto'
    · by_cases sameBC : b = c
      · exact sameBC ▸ upto
      · have strict := mt (compareIds_eq_zero a b).mp sameAB
        have strict' := mt (compareIds_eq_zero b c).mp sameBC
        obtain ⟨first, rfl⟩ := entries a
        obtain ⟨second, rfl⟩ := entries b
        obtain ⟨third, rfl⟩ := entries c
        have below := orders.trans first second third inA inB inC
          (by unfold byKey; omega) (by unfold byKey; omega)
        unfold byKey at below
        omega

/-- The first id in such an order has all the others ahead of it, none exactly half a turn. -/
theorem withinHalfTurn_of_orders (orders : Orders (· ∈ ids) compareIds) : WithinHalfTurn ids := by
  by_cases empty : ids = []
  · exact .inl empty
  · obtain ⟨base, member, least⟩ := orders.exists_least empty
    refine .inr ⟨base, member, fun id inIds => ?_⟩
    by_cases same : id = base
    · subst same
      rw [BitVec.sub_self]
      decide
    · have below := least id inIds
      have strict := mt (compareIds_eq_zero base id).mp (Ne.symm same)
      obtain ⟨-, near⟩ := (compareIds_neg_iff base id).mp (by omega)
      have back := orders.antisymm member inIds
      have opposite := compareIds_neg_iff id base
      rw [BitVec.toNat_sub] at near opposite ⊢
      omega

theorem orders_of_withinHalfTurn (near : WithinHalfTurn ids) :
    OrdersEntries key (byKey key) (fun id entry => compareIds id (key entry)) ids := by
  rcases near with rfl | ⟨base, -, near⟩
  · constructor <;> simp
  · have distance : ∀ a b, key a ∈ ids → key b ∈ ids →
        byKey key a b = ((key a - base).toNat : Int) - (key b - base).toNat :=
      fun a b inA inB => compareIds_of_near (near _ inA) (near _ inB)
    constructor
    · intro a b inA inB
      rw [distance a b inA inB, distance b a inB inA]
      omega
    · intro a b _ _
      exact compareIds_eq_zero (key a) (key b)
    · intro a b c inA inB inC
      rw [distance a b inA inB, distance b c inB inC, distance a c inA inC]
      omega
    · intro a b _ _
      rfl

theorem ordersEntries_iff (entries : ∀ id, ∃ entry, key entry = id) :
    OrdersEntries key (byKey key) (fun id entry => compareIds id (key entry)) ids ↔
      WithinHalfTurn ids :=
  ⟨fun orders => withinHalfTurn_of_orders (orders_of_entries entries orders),
    orders_of_withinHalfTurn⟩

end

/-- The comparison functions for uids and those for gids are orders on the entries of a database
exactly when its ids lie within half a turn of one of them. -/
theorem comparators_order_iff (ids : List Id) :
    (OrdersEntries UidCacheEntry.uid uidCacheUidSortcmp uidCacheUidSearchcmp ids ↔
      WithinHalfTurn ids) ∧
    (OrdersEntries GidCacheEntry.gid gidCacheGidSortcmp gidCacheGidSearchcmp ids ↔
      WithinHalfTurn ids) :=
  ⟨ordersEntries_iff fun id => ⟨⟨id, 0#32, 0⟩, rfl⟩, ordersEntries_iff fun id => ⟨⟨id, 0, 0⟩, rfl⟩⟩

/-- 0 is before 0x60000000 and that before 0xc0000000, which is before 0. -/
theorem comparators_cycle :
    ¬ OrdersEntries UidCacheEntry.uid uidCacheUidSortcmp uidCacheUidSearchcmp
        [0#32, 0x60000000#32, 0xc0000000#32] ∧
      ¬ OrdersEntries GidCacheEntry.gid gidCacheGidSortcmp gidCacheGidSearchcmp
        [0#32, 0x60000000#32, 0xc0000000#32] := by
  constructor
  · intro orders
    have round := orders.trans ⟨0#32, 0#32, 0⟩ ⟨0x60000000#32, 0#32, 0⟩ ⟨0xc0000000#32, 0#32, 0⟩
      (by decide) (by decide) (by decide) (by decide) (by decide)
    exact absurd round (by decide)
  · intro orders
    have round := orders.trans ⟨0#32, 0, 0⟩ ⟨0x60000000#32, 0, 0⟩ ⟨0xc0000000#32, 0, 0⟩
      (by decide) (by decide) (by decide) (by decide) (by decide)
    exact absurd round (by decide)

end Bindfs.Guarantees.CacheComparators
