import Bindfs.Source.UserCacheSpecs

/-!
# What a query reads from a rebuilt cache

The comparison functions compare names and ids, and order them: names always, ids as long as
they lie below 2^31. The entries of a rebuilt cache stand for the enumerated users and groups,
and the offset of a group leads to the uids that were stored for it. So a query that follows a
rebuild answers (`queryUserCache_answers`).
-/
namespace Bindfs.Source
open Bindfs.Lib.SortSearch

/-! ## Comparison functions -/

theorem strcmp_swap (a b : List Byte) : strcmp b a = -strcmp a b := by
  induction a generalizing b with
  | nil => cases b <;> simp [strcmp]
  | cons x a ih =>
    cases b with
    | nil => simp [strcmp]
    | cons y b =>
      by_cases same : x = y
      · simp [strcmp, same, ih]
      · simp only [strcmp, if_neg same, if_neg (Ne.symm same)]
        omega

theorem toNat_pos_of_ne_nul {byte : Byte} (other : byte ≠ 0#8) : 0 < byte.toNat := by
  apply Nat.pos_of_ne_zero
  intro zero
  exact other (BitVec.eq_of_toNat_eq zero)

theorem strcmp_trans (a b c : List Byte) (freeA : 0#8 ∉ a) (freeB : 0#8 ∉ b)
    (below : strcmp a b ≤ 0) (above : strcmp b c ≤ 0) : strcmp a c ≤ 0 := by
  induction a generalizing b c with
  | nil => cases c <;> simp [strcmp]
  | cons x a ih =>
    cases b with
    | nil =>
      have positive := toNat_pos_of_ne_nul (fun zero : x = 0#8 => freeA (by simp [zero]))
      simp only [strcmp] at below
      omega
    | cons y b =>
      cases c with
      | nil =>
        have positive := toNat_pos_of_ne_nul (fun zero : y = 0#8 => freeB (by simp [zero]))
        simp only [strcmp] at above
        omega
      | cons z c =>
        have tails := ih b c (fun member => freeA (by simp [member])) (fun member => freeB (by simp [member]))
        have differ : ∀ {p q : Byte}, p ≠ q → p.toNat ≠ q.toNat :=
          fun other same => other (BitVec.eq_of_toNat_eq same)
        simp only [strcmp] at below above ⊢
        by_cases xy : x = y
        · subst xy
          rw [if_pos rfl] at below
          by_cases xz : x = z
          · rw [if_pos xz] at above ⊢
            exact tails below above
          · rwa [if_neg xz] at above ⊢
        · rw [if_neg xy] at below
          by_cases yz : y = z
          · subst yz
            rwa [if_neg xy]
          · rw [if_neg yz] at above
            have left := differ xy
            have right := differ yz
            rw [if_neg (by rintro rfl; omega)]
            omega

theorem strcmp_eq_zero {a b : List Byte} (freeA : 0#8 ∉ a) (freeB : 0#8 ∉ b) :
    strcmp a b = 0 ↔ a = b := by
  induction a generalizing b with
  | nil =>
    cases b with
    | nil => simp [strcmp]
    | cons y b =>
      have positive := toNat_pos_of_ne_nul (fun zero : y = 0#8 => freeB (by simp [zero]))
      simp only [strcmp, reduceCtorEq, iff_false]
      omega
  | cons x a ih =>
    cases b with
    | nil =>
      have positive := toNat_pos_of_ne_nul (fun zero : x = 0#8 => freeA (by simp [zero]))
      simp only [strcmp, reduceCtorEq, iff_false]
      omega
    | cons y b =>
      have tails : strcmp a b = 0 ↔ a = b :=
        ih (fun member => freeA (by simp [member])) (fun member => freeB (by simp [member]))
      by_cases same : x = y
      · simp [strcmp, same, tails]
      · have differ : x.toNat ≠ y.toNat := fun equal => same (BitVec.eq_of_toNat_eq equal)
        simp only [strcmp, same, if_false, List.cons.injEq, false_and, iff_false]
        omega

/-- `strcmp` orders the names without NUL bytes. -/
theorem orders_strcmp : Orders (fun name : List Byte => 0#8 ∉ name) strcmp where
  antisymm {a b} _ _ := by
    rw [strcmp_swap a b]
    omega
  trans freeA freeB _ := strcmp_trans _ _ _ freeA freeB

theorem compareIds_eq_zero (a b : Id) : compareIds a b = 0 ↔ a = b := by
  constructor
  · intro zero
    have widthA := a.isLt
    have widthB := b.isLt
    unfold compareIds longToInt at zero
    have divides := Int.dvd_of_bmod_eq_zero zero
    apply BitVec.eq_of_toNat_eq
    omega
  · rintro rfl
    simp [compareIds, longToInt]

theorem compareIds_of_small {a b : Id} (smallA : a.toNat < 2 ^ 31) (smallB : b.toNat < 2 ^ 31) :
    compareIds a b = (a.toNat : Int) - b.toNat := by
  unfold compareIds longToInt
  rw [Int.bmod_eq_of_le_mul_two] <;> omega

/-- The comparison functions for ids order those below 2^31. -/
theorem orders_compareIds : Orders (fun id : Id => id.toNat < 2 ^ 31) compareIds where
  antisymm smallA smallB := by
    rw [compareIds_of_small smallA smallB, compareIds_of_small smallB smallA]
    omega
  trans smallA smallB smallC := by
    rw [compareIds_of_small smallA smallB, compareIds_of_small smallB smallC, compareIds_of_small smallA smallC]
    omega

/-! ## Entries and what they stand for -/

/-- The entry was made for this user. -/
def StandsFor (entry : NamedEntry) (pw : PasswdEntry) : Prop :=
  entry.1.uid = pw.pw_uid ∧ entry.1.main_gid = pw.pw_gid ∧ entry.2 = pw.pw_name.bytes

theorem user_of_cell {offset : Nat} {users : List PasswdEntry} {entry : NamedEntry}
    (member : entry ∈ userCells offset users) : ∃ pw ∈ users, StandsFor entry pw := by
  induction users generalizing offset with
  | nil => cases member
  | cons pw rest ih =>
    rcases List.mem_cons.mp member with rfl | later
    · exact ⟨pw, by simp, rfl, rfl, rfl⟩
    · obtain ⟨other, listed, stands⟩ := ih later
      exact ⟨other, by simp [listed], stands⟩

theorem cell_of_user (offset : Nat) {users : List PasswdEntry} {pw : PasswdEntry} (member : pw ∈ users) :
    ∃ entry ∈ userCells offset users, StandsFor entry pw := by
  induction users generalizing offset with
  | nil => cases member
  | cons first rest ih =>
    rcases List.mem_cons.mp member with rfl | later
    · exact ⟨_, List.mem_cons_self, rfl, rfl, rfl⟩
    · obtain ⟨entry, stored, stands⟩ := ih (offset + (first.pw_name.bytes.length + 1)) later
      exact ⟨entry, List.mem_cons_of_mem _ stored, stands⟩

section
variable (sorter : Sorter NamedEntry) (named : List NamedEntry)

theorem group_of_cell {offset : Nat} {groups : List GroupEntry} {cell : GidCacheEntry × List Id}
    (member : cell ∈ groupCells sorter named offset groups) :
    ∃ gr ∈ groups, cell.1.gid = gr.gr_gid ∧ cell.2 = memberUids sorter named gr := by
  induction groups generalizing offset with
  | nil => cases member
  | cons gr rest ih =>
    rcases List.mem_cons.mp member with rfl | later
    · exact ⟨gr, by simp, rfl, rfl⟩
    · obtain ⟨other, listed, same⟩ := ih later
      exact ⟨other, by simp [listed], same⟩

theorem cell_of_group (offset : Nat) {groups : List GroupEntry} {gr : GroupEntry} (member : gr ∈ groups) :
    ∃ cell ∈ groupCells sorter named offset groups,
      cell.1.gid = gr.gr_gid ∧ cell.2 = memberUids sorter named gr := by
  induction groups generalizing offset with
  | nil => cases member
  | cons first rest ih =>
    rcases List.mem_cons.mp member with rfl | later
    · exact ⟨_, List.mem_cons_self, rfl, rfl⟩
    · obtain ⟨cell, stored, same⟩ := ih (offset + 4 * (memberUids sorter named first).length) later
      exact ⟨cell, List.mem_cons_of_mem _ stored, same⟩

/-- The offset of the entry leads to the uids. -/
def RunAt (bytes : List Byte) (cell : GidCacheEntry × List Id) : Prop :=
  cell.1.uid_count = cell.2.length ∧ ∃ before after, bytes = before ++ runBytes cell.2 ++ after ∧
    cell.1.uids_offset = before.length

theorem runAt_of_cell (before : List Byte) {groups : List GroupEntry} {cell : GidCacheEntry × List Id}
    (member : cell ∈ groupCells sorter named before.length groups) :
    RunAt (before ++ groups.flatMap fun gr => runBytes (memberUids sorter named gr)) cell := by
  induction groups generalizing before with
  | nil => cases member
  | cons gr rest ih =>
    rw [List.flatMap_cons, ← List.append_assoc]
    rcases List.mem_cons.mp member with rfl | later
    · exact ⟨rfl, before, _, rfl, rfl⟩
    · have size : (before ++ runBytes (memberUids sorter named gr)).length =
          before.length + 4 * (memberUids sorter named gr).length := by
        rw [List.length_append, length_runBytes]
      rw [← size] at later
      exact ih _ later

end

/-! ## Lookups -/

theorem findUid_spec {block : MemoryBlock Byte} {before after : List Byte} (passed rest : List Id)
    (holds : block.Holds (before ++ runBytes (passed ++ rest) ++ after)) (uid : Id) :
    findUid block before.length uid rest.length passed.length = some (decide (uid ∈ rest)) := by
  induction rest generalizing passed with
  | nil => rfl
  | cons stored rest ih =>
    have split : before ++ runBytes (passed ++ stored :: rest) ++ after =
        before ++ runBytes passed ++ uidBytes stored ++ (runBytes rest ++ after) := by
      simp [runBytes]
    have place : (before ++ runBytes passed).length = before.length + 4 * passed.length := by
      rw [List.length_append, length_runBytes]
    have read : block.read (before.length + 4 * passed.length) 4 = some (uidBytes stored) := by
      rw [split] at holds
      rw [← place]
      exact holds.read_eq
    have later := ih (passed ++ [stored]) (by simpa using holds)
    rw [List.length_append, List.length_singleton] at later
    rw [List.length_cons, findUid, read, Option.bind_eq_bind, Option.bind_some, uidOfBytes_uidBytes]
    by_cases same : stored = uid
    · simp [same]
    · rw [if_neg same, later]
      simp [Ne.symm same]

section
variable {lib : CacheSorters} {passwd : Enumeration PasswdEntry} {group : Enumeration GroupEntry}
  {cache : UserCache}

theorem cell_of_uidCacheLookup (sane : lib.Sane) (rebuilt : Rebuilt lib passwd group cache) {key : Id}
    {uent : UidCacheEntry} (found : uidCacheLookup lib cache key = some uent) :
    uent.uid = key ∧ ∃ name, (uent, name) ∈ userCells 0 passwd.kept := by
  obtain ⟨member, equal⟩ := sane.users.bsearch_found _ _ _ found
  rw [rebuilt.users, (sane.users.qsort_perm _ _).mem_iff, List.mem_map] at member
  obtain ⟨entry, stored, rfl⟩ := member
  exact ⟨((compareIds_eq_zero key entry.1.uid).mp equal).symm, entry.2,
    (sane.named.qsort_perm _ _).mem_iff.mp stored⟩

theorem cell_of_gidCacheLookup (sane : lib.Sane) (rebuilt : Rebuilt lib passwd group cache) {key : Id}
    {gent : GidCacheEntry} (found : gidCacheLookup lib cache key = some gent) :
    gent.gid = key ∧ ∃ uids, (gent, uids) ∈ cachedGroups lib passwd group := by
  obtain ⟨member, equal⟩ := sane.groups.bsearch_found _ _ _ found
  rw [rebuilt.groups, (sane.groups.qsort_perm _ _).mem_iff, List.mem_map] at member
  obtain ⟨cell, stored, rfl⟩ := member
  exact ⟨((compareIds_eq_zero key cell.1.gid).mp equal).symm, cell.2, stored⟩

theorem runAt_of_cachedGroups {cell : GidCacheEntry × List Id}
    (member : cell ∈ cachedGroups lib passwd group) :
    RunAt (nameBytes passwd.entries ++ group.entries.flatMap fun gr =>
      runBytes (memberUids lib.named (cachedNames lib passwd) gr)) cell := by
  unfold cachedGroups Enumeration.kept at member
  split at member
  · cases member
  · exact runAt_of_cell lib.named _ _ member

theorem isListedInGroup_eq (rebuilt : Rebuilt lib passwd group cache) (uid : Id) {gid : Id}
    (cell : GidCacheEntry × List Id) (found : gidCacheLookup lib cache gid = some cell.1)
    (stored : cell ∈ cachedGroups lib passwd group) :
    isListedInGroup lib cache uid gid = some (decide (uid ∈ cell.2)) := by
  obtain ⟨count, before, after, bytes, offset⟩ := runAt_of_cachedGroups stored
  have holds := rebuilt.memory
  rw [bytes] at holds
  rw [isListedInGroup, found]
  simp only
  rw [count, offset]
  exact findUid_spec [] cell.2 holds uid

/-- The entry found for the user has the gid as its main group, or the one found for the group
has the uid among its members. -/
def FoundMember (lib : CacheSorters) (passwd : Enumeration PasswdEntry) (group : Enumeration GroupEntry)
    (cache : UserCache) (uid gid : Id) : Prop :=
  (∃ uent, uidCacheLookup lib cache uid = some uent ∧ uent.main_gid = gid) ∨
    ∃ cell ∈ cachedGroups lib passwd group, gidCacheLookup lib cache gid = some cell.1 ∧ uid ∈ cell.2

theorem queryUserCache_answers (sane : lib.Sane) (rebuilt : Rebuilt lib passwd group cache) (uid gid : Id) :
    ∃ answer, queryUserCache lib cache uid gid = some answer ∧
      (answer = true ↔ FoundMember lib passwd group cache uid gid) := by
  have listed : ∃ answer, isListedInGroup lib cache uid gid = some answer ∧ (answer = true ↔
      ∃ cell ∈ cachedGroups lib passwd group, gidCacheLookup lib cache gid = some cell.1 ∧ uid ∈ cell.2) := by
    cases found : gidCacheLookup lib cache gid with
    | none => exact ⟨false, by rw [isListedInGroup, found], by simp⟩
    | some gent =>
      obtain ⟨-, uids, stored⟩ := cell_of_gidCacheLookup sane rebuilt found
      refine ⟨_, isListedInGroup_eq rebuilt uid (gent, uids) found stored, ?_⟩
      constructor
      · intro contained
        exact ⟨(gent, uids), stored, rfl, of_decide_eq_true contained⟩
      · rintro ⟨cell, stored', same, contained⟩
        have again := isListedInGroup_eq rebuilt uid cell (found.trans same) stored'
        rw [isListedInGroup_eq rebuilt uid (gent, uids) found stored] at again
        rw [Option.some.inj again]
        exact decide_eq_true contained
  obtain ⟨answer, answered, meaning⟩ := listed
  unfold queryUserCache FoundMember
  cases found : uidCacheLookup lib cache uid with
  | none => exact ⟨answer, answered, by simp [meaning]⟩
  | some uent =>
    by_cases main : uent.main_gid = gid
    · exact ⟨true, by simp [main], by simp [main]⟩
    · exact ⟨answer, by simp [main, answered], by simp [main, meaning]⟩

end

end Bindfs.Source
