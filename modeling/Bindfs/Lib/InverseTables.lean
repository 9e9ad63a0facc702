import Mathlib.Data.List.Nodup

/-!
Pairs of association tables that are read by first match and filled in parallel: whenever
`(a, b)` enters one table, `(b, a)` enters the other. Insertion guards each table by a
lookup that reports absence in band, through a sentinel value, so a key whose first entry
holds the sentinel looks absent and can be entered again.

`Built` is the history of such insertions. Without a clash on the sentinel the two tables
are inverse to each other and no key repeats; with one, a key repeats
(`inverse_iff_no_clash`).

`ShowsRepeat` is the other side of the guard: some key is entered again although its first
entry does not hold the sentinel. An insertion is refused exactly when it would create such a
key (`showsRepeat_snoc`).
-/
namespace Bindfs.Lib.InverseTables

variable {α : Type} [DecidableEq α]

abbrev Table (α : Type) := List (α × α)

def keys (table : Table α) : List α := table.map Prod.fst

def swapped (table : Table α) : Table α := table.map Prod.swap

/-- First match, or a default. -/
def getOrDefault (table : Table α) (key deflt : α) : α := (table.lookup key).getD deflt

/-- What the insertion guard tests: the in-band answer is the sentinel. -/
def LooksAbsent (sentinel : α) (table : Table α) (key : α) : Prop :=
  getOrDefault table key sentinel = sentinel

omit [DecidableEq α] in
@[simp] theorem swapped_swapped (table : Table α) : swapped (swapped table) = table := by
  simp [swapped]

omit [DecidableEq α] in
@[simp] theorem mem_swapped {table : Table α} {a b : α} :
    (b, a) ∈ swapped table ↔ (a, b) ∈ table := by
  constructor
  · intro member
    obtain ⟨⟨x, y⟩, stored, same⟩ := List.mem_map.mp member
    simp only [Prod.swap_prod_mk, Prod.mk.injEq] at same
    rw [← same.1, ← same.2]
    exact stored
  · intro stored
    exact List.mem_map.mpr ⟨(a, b), stored, rfl⟩

theorem mem_of_lookup {table : Table α} {a b : α} (found : table.lookup a = some b) :
    (a, b) ∈ table := by
  obtain ⟨before, after, rfl, -⟩ := List.lookup_eq_some_iff.mp found
  simp

theorem lookup_none_iff {table : Table α} {a : α} :
    table.lookup a = none ↔ a ∉ keys table := by
  simp only [List.lookup_eq_none_iff, keys, List.mem_map, not_exists, not_and, bne_iff_ne, ne_eq]
  constructor
  · intro differ entry member same
    exact differ entry member same.symm
  · intro differ entry member same
    exact differ entry member same.symm

theorem exists_lookup_of_mem {table : Table α} {a b : α} (member : (a, b) ∈ table) :
    ∃ c, table.lookup a = some c := by
  cases found : table.lookup a with
  | some c => exact ⟨c, rfl⟩
  | none =>
    have absent := lookup_none_iff.mp found
    exact absurd (List.mem_map.mpr ⟨(a, b), member, rfl⟩) absent

omit [DecidableEq α] in
theorem eq_of_mem_of_nodup {table : Table α} (distinct : (keys table).Nodup) {a b c : α}
    (first : (a, b) ∈ table) (second : (a, c) ∈ table) : b = c := by
  have same := List.inj_on_of_nodup_map distinct first second rfl
  exact congrArg Prod.snd same

theorem lookup_iff_mem {table : Table α} (distinct : (keys table).Nodup) {a b : α} :
    table.lookup a = some b ↔ (a, b) ∈ table := by
  constructor
  · exact mem_of_lookup
  · intro member
    obtain ⟨c, found⟩ := exists_lookup_of_mem member
    rw [found, eq_of_mem_of_nodup distinct (mem_of_lookup found) member]

theorem getOrDefault_self_iff {table : Table α} {a b : α} (different : a ≠ b) :
    getOrDefault table a a = b ↔ table.lookup a = some b := by
  unfold getOrDefault
  cases table.lookup a with
  | none => simpa using different
  | some c => simp

/-- A table that grew from the empty one by guarded insertions into it and, swapped, into
its partner. -/
inductive Built (sentinel : α) : Table α → Prop
  | nil : Built sentinel []
  | snoc {table : Table α} {a b : α} (before : Built sentinel table) (different : a ≠ b)
      (absent : LooksAbsent sentinel table a)
      (absent_swapped : LooksAbsent sentinel (swapped table) b) :
      Built sentinel (table ++ [(a, b)])

theorem Built.not_diagonal {sentinel : α} {table : Table α} (built : Built sentinel table) :
    ∀ a, (a, a) ∉ table := by
  induction built with
  | nil => simp
  | snoc before different _ _ ih =>
    intro a member
    rcases List.mem_append.mp member with old | new
    · exact ih a old
    · simp only [List.mem_singleton, Prod.mk.injEq] at new
      exact different (new.1.symm.trans new.2)

/-- The partner table has the same kind of history. -/
theorem Built.swapped {sentinel : α} {table : Table α} (built : Built sentinel table) :
    Built sentinel (swapped table) := by
  induction built with
  | nil => exact .nil
  | @snoc table a b before different absent absent_swapped ih =>
    have grown : InverseTables.swapped (table ++ [(a, b)]) =
        InverseTables.swapped table ++ [(b, a)] := by
      simp [InverseTables.swapped]
    rw [grown]
    exact .snoc ih different.symm absent_swapped (by simpa using absent)

/-- Some key is entered both with the sentinel and with another value. -/
def Clash (sentinel : α) (table : Table α) : Prop :=
  ∃ a b, b ≠ sentinel ∧ (a, sentinel) ∈ table ∧ (a, b) ∈ table

theorem Built.nodup_of_no_clash {sentinel : α} {table : Table α} (built : Built sentinel table)
    (clean : ¬ Clash sentinel table) : (keys table).Nodup := by
  induction built with
  | nil => simp [keys]
  | @snoc table a b before different absent absent_swapped ih =>
    have clean_before : ¬ Clash sentinel table := by
      rintro ⟨x, y, other, first, second⟩
      exact clean ⟨x, y, other, by simp [first], by simp [second]⟩
    have fresh : a ∉ keys table := by
      rw [← lookup_none_iff]
      cases found : table.lookup a with
      | none => rfl
      | some c =>
        -- the guard was fooled: the first entry of `a` holds the sentinel
        have fooled : c = sentinel := by simpa [LooksAbsent, getOrDefault, found] using absent
        subst fooled
        have stored := mem_of_lookup found
        by_cases other : b = c
        · subst other
          obtain ⟨d, partner⟩ := exists_lookup_of_mem (mem_swapped.mpr stored)
          have again : d = b := by
            simpa [LooksAbsent, getOrDefault, partner] using absent_swapped
          subst again
          exact absurd (mem_swapped.mp (mem_of_lookup partner)) (before.not_diagonal d)
        · exact absurd ⟨a, b, other, by simp [stored], by simp⟩ clean
    rw [keys, List.map_append, List.map_singleton]
    simpa [List.nodup_append, keys] using
      And.intro (ih clean_before) (fun x y member => by
        intro same
        apply fresh
        rw [keys, List.mem_map]
        exact ⟨(x, y), member, same⟩)

/-- The two tables answer lookups inversely (off the diagonal) and repeat no key. -/
structure Inverse (table partner : Table α) : Prop where
  lookups : ∀ a b, a ≠ b → (getOrDefault table a a = b ↔ getOrDefault partner b b = a)
  keys_nodup : (keys table).Nodup
  partner_keys_nodup : (keys partner).Nodup

theorem inverse_of_nodup {table : Table α} (distinct : (keys table).Nodup)
    (distinct_swapped : (keys (swapped table)).Nodup) : Inverse table (swapped table) := by
  refine ⟨?_, distinct, distinct_swapped⟩
  intro a b different
  rw [getOrDefault_self_iff different, getOrDefault_self_iff different.symm,
    lookup_iff_mem distinct, lookup_iff_mem distinct_swapped, mem_swapped]

/-- For tables with a guarded history, being inverse is the same as having no clash on the
sentinel in either direction. -/
theorem inverse_iff_no_clash {sentinel : α} {table : Table α} (built : Built sentinel table) :
    Inverse table (swapped table) ↔
      ¬ Clash sentinel table ∧ ¬ Clash sentinel (swapped table) := by
  constructor
  · intro inverse
    constructor
    · rintro ⟨a, b, other, first, second⟩
      exact other (eq_of_mem_of_nodup inverse.keys_nodup second first)
    · rintro ⟨a, b, other, first, second⟩
      exact other (eq_of_mem_of_nodup inverse.partner_keys_nodup second first)
  · rintro ⟨clean, clean_swapped⟩
    exact inverse_of_nodup (built.nodup_of_no_clash clean)
      (built.swapped.nodup_of_no_clash clean_swapped)

/-! ## Repeats the guard sees -/

/-- Some key occurs twice, and its first entry does not hold the sentinel. -/
def ShowsRepeat (sentinel : α) (table : Table α) : Prop :=
  ∃ a, ¬ LooksAbsent sentinel table a ∧ 1 < (keys table).count a

theorem not_showsRepeat_of_nodup {sentinel : α} {table : Table α}
    (distinct : (keys table).Nodup) : ¬ ShowsRepeat sentinel table := by
  rintro ⟨a, -, twice⟩
  have once := List.nodup_iff_count_le_one.mp distinct a
  omega

theorem looksAbsent_snoc {sentinel : α} {table : Table α} {a b key : α}
    (present : key ∈ keys table) :
    LooksAbsent sentinel (table ++ [(a, b)]) key ↔ LooksAbsent sentinel table key := by
  cases found : table.lookup key with
  | none => exact absurd present (lookup_none_iff.mp found)
  | some value => simp [LooksAbsent, getOrDefault, List.lookup_append, found]

theorem present_of_not_looksAbsent {sentinel : α} {table : Table α} {key : α}
    (shown : ¬ LooksAbsent sentinel table key) : key ∈ keys table := by
  by_contra absent
  apply shown
  rw [LooksAbsent, getOrDefault, lookup_none_iff.mpr absent, Option.getD_none]

/-- The guard refuses an insertion exactly when it would show a repeat. -/
theorem showsRepeat_snoc {sentinel : α} (table : Table α) (a b : α) :
    ShowsRepeat sentinel (table ++ [(a, b)]) ↔
      ShowsRepeat sentinel table ∨ ¬ LooksAbsent sentinel table a := by
  have counts : ∀ key, (keys (table ++ [(a, b)])).count key =
      (keys table).count key + if a = key then 1 else 0 := by
    intro key
    by_cases same : a = key
    · simp [keys, List.count_append, same]
    · simp [keys, List.count_append, same]
  constructor
  · rintro ⟨key, shown, twice⟩
    rw [counts] at twice
    by_cases same : a = key
    · subst same
      right
      have present : a ∈ keys table := by
        rw [← List.count_pos_iff]
        simpa using twice
      rwa [looksAbsent_snoc present] at shown
    · left
      rw [if_neg same, Nat.add_zero] at twice
      have present : key ∈ keys table := List.count_pos_iff.mp (by omega)
      exact ⟨key, by rwa [looksAbsent_snoc present] at shown, twice⟩
  · rintro (⟨key, shown, twice⟩ | shown)
    · have present := present_of_not_looksAbsent shown
      refine ⟨key, by rwa [looksAbsent_snoc present], ?_⟩
      rw [counts]
      omega
    · have present := present_of_not_looksAbsent shown
      refine ⟨a, by rwa [looksAbsent_snoc present], ?_⟩
      have positive := List.count_pos_iff.mpr present
      rw [counts, if_pos rfl]
      omega

end Bindfs.Lib.InverseTables
