import Bindfs.Source.UserCache

/-!
# What a rebuild leaves in the user cache

The memory block holds the user names, each with its terminator, and after them the uids of
the groups' members. `userCells` and `groupCells` are the entries of the two arrays with what
their offsets lead to. A rebuild that ends has stored exactly these, in the order of
enumeration, before the arrays are sorted (`rebuildUserCache_spec`); it ends if and only if
every value fits (`Fits`).
-/
namespace Bindfs.Source
open Bindfs.Lib.SortSearch

/-! ## Stored values -/

theorem length_uidBytes (uid : Id) : (uidBytes uid).length = 4 := rfl

theorem uidOfBytes_uidBytes (uid : Id) : uidOfBytes (uidBytes uid) = uid := by
  have width := uid.isLt
  apply BitVec.eq_of_toNat_eq
  simp only [uidOfBytes, uidBytes, List.foldr_cons, List.foldr_nil, BitVec.toNat_ofNat]
  omega

theorem storeInt_eq_some {value stored : Nat} :
    storeInt value = some stored ↔ value ≤ INT_MAX ∧ stored = value := by
  unfold storeInt
  split
  · rename_i fits
    simp [fits, eq_comm]
  · rename_i large
    simp [large]

/-! ## Array growth -/

/-- The capacities that doubling leads to: entries of 12 bytes leave the range of `int` at the
next one. -/
def GrownCapacity (capacity : Nat) : Prop := capacity = 0 ∨ ∃ k ≤ 24, capacity = 8 * 2 ^ k

theorem GrownCapacity.le {capacity : Nat} (grown : GrownCapacity capacity) : capacity ≤ 2 ^ 27 := by
  rcases grown with none_yet | ⟨k, bound, size⟩
  · omega
  · have power : (2 : Nat) ^ k ≤ 2 ^ 24 := Nat.pow_le_pow_right (by omega) bound
    omega

theorem lt_doubledCapacity (capacity : Nat) : capacity < doubledCapacity capacity := by
  unfold doubledCapacity
  split <;> omega

theorem GrownCapacity.doubled {capacity : Nat} (grown : GrownCapacity capacity) :
    (GrownCapacity (doubledCapacity capacity) ↔ doubledCapacity capacity * cacheEntrySize ≤ INT_MAX) ∧
      (capacity < 2 ^ 27 → GrownCapacity (doubledCapacity capacity)) := by
  simp only [cacheEntrySize, INT_MAX]
  have small : GrownCapacity (doubledCapacity capacity) → doubledCapacity capacity * 12 ≤ 2 ^ 31 - 1 := by
    intro next
    have bound := next.le
    omega
  rcases grown with none_yet | ⟨k, bound, size⟩
  · have first : GrownCapacity (doubledCapacity capacity) :=
      Or.inr ⟨0, by omega, by simp [doubledCapacity, none_yet]⟩
    exact ⟨⟨small, fun _ => first⟩, fun _ => first⟩
  · have positive : 0 < 2 ^ k := Nat.two_pow_pos k
    have next : doubledCapacity capacity = 8 * 2 ^ (k + 1) := by
      rw [doubledCapacity, if_neg (by omega), size, Nat.pow_succ, Nat.mul_assoc]
    by_cases last : k = 24
    · subst last
      refine ⟨⟨small, fun fits => ?_⟩, fun room => ?_⟩
      · omega
      · omega
    · have grown : GrownCapacity (doubledCapacity capacity) := Or.inr ⟨k + 1, by omega, next⟩
      exact ⟨⟨small, fun _ => grown⟩, fun _ => grown⟩

def GrowingArray.Grown {α : Type} (array : GrowingArray α) : Prop := GrownCapacity array.capacity

section
variable {α : Type} {array reserved : GrowingArray α}

theorem GrowingArray.Grown.length_le (grown : array.Grown) : array.live.length ≤ 2 ^ 27 := by
  have bound := GrownCapacity.le grown
  unfold GrowingArray.capacity at bound
  omega

theorem GrowingArray.grown_clear (grown : array.Grown) : array.clear.Grown := by
  have same : array.clear.capacity = array.capacity := by simp [GrowingArray.clear, GrowingArray.capacity]
  unfold GrowingArray.Grown
  rwa [same]

theorem growArrayImpl_grown (grown : array.Grown) (done : growArrayImpl array cacheEntrySize = some reserved) :
    reserved.live = array.live ∧ reserved.Grown ∧ array.capacity < reserved.capacity := by
  unfold growArrayImpl at done
  simp only at done
  split at done
  · rename_i fits
    cases done
    have more := lt_doubledCapacity array.capacity
    have capacity : GrowingArray.capacity ⟨array.live, array.stale ++
        List.replicate (doubledCapacity array.capacity - array.capacity) none⟩ =
          doubledCapacity array.capacity := by
      simp only [List.length_append, List.length_replicate, GrowingArray.capacity] at more ⊢
      omega
    refine ⟨rfl, ?_, ?_⟩
    · unfold GrowingArray.Grown
      rw [capacity]
      exact (GrownCapacity.doubled grown).1.mpr fits
    · rw [capacity]
      exact more
  · cases done

/-- Room for one more entry, as long as fewer than 2^27 are in use. -/
theorem GrowingArray.reserve_total (grown : array.Grown) (room : array.live.length < 2 ^ 27) :
    ∃ reserved, array.reserve cacheEntrySize = some reserved := by
  unfold GrowingArray.reserve
  split
  · rename_i full
    have spare : array.stale.length = 0 := by simpa using full
    have used : array.capacity < 2 ^ 27 := by
      unfold GrowingArray.capacity
      omega
    obtain ⟨fits, grows⟩ := GrownCapacity.doubled grown
    exact ⟨_, if_pos (fits.mp (grows used))⟩
  · exact ⟨array, rfl⟩

theorem GrowingArray.reserve_grown (grown : array.Grown) (done : array.reserve cacheEntrySize = some reserved)
    (entry : α) : (reserved.push entry).live = array.live ++ [entry] ∧ (reserved.push entry).Grown := by
  have pushed : ∀ {wide : GrowingArray α}, wide.Grown → wide.stale ≠ [] → (wide.push entry).Grown := by
    intro wide grown spare
    have some_spare := List.length_pos_iff.mpr spare
    have same : (wide.push entry).capacity = wide.capacity := by
      simp only [GrowingArray.push, GrowingArray.capacity, List.length_append, List.length_drop,
        List.length_singleton]
      omega
    unfold GrowingArray.Grown
    rwa [same]
  unfold GrowingArray.reserve at done
  split at done
  · rename_i full
    obtain ⟨live, wide, more⟩ := growArrayImpl_grown grown done
    have spare : reserved.stale ≠ [] := by
      intro none_left
      simp only [GrowingArray.capacity, none_left, live, List.length_nil] at more
      omega
    exact ⟨by rw [GrowingArray.push, live], pushed wide spare⟩
  · rename_i spare
    cases done
    exact ⟨rfl, pushed grown (by simpa using spare)⟩

end

/-! ## Users -/

def nameBytes (users : List PasswdEntry) : List Byte :=
  users.flatMap fun pw => pw.pw_name.bytes ++ [0#8]

/-- The entries of these users, stored from an offset on, with their names. -/
def userCells (offset : Nat) : List PasswdEntry → List NamedEntry
  | [] => []
  | pw :: rest => (⟨pw.pw_uid, pw.pw_gid, offset⟩, pw.pw_name.bytes) ::
      userCells (offset + (pw.pw_name.bytes.length + 1)) rest

/-- The offset and the length of every name fit an `int`. -/
def NamesFit (offset : Nat) : List PasswdEntry → Prop
  | [] => True
  | pw :: rest => offset ≤ INT_MAX ∧ pw.pw_name.bytes.length + 1 ≤ INT_MAX ∧
      NamesFit (offset + (pw.pw_name.bytes.length + 1)) rest

section
variable {array : GrowingArray UidCacheEntry} {block : MemoryBlock Byte} {bytes : List Byte}

theorem addUser_total (grown : array.Grown) (holds : block.Holds bytes) (pw : PasswdEntry)
    (room : array.live.length < 2 ^ 27) (offset : bytes.length ≤ INT_MAX)
    (length : pw.pw_name.bytes.length + 1 ≤ INT_MAX) :
    ∃ array' block', addUser (array, block) pw = some (array', block') ∧
      array'.live = array.live ++ [⟨pw.pw_uid, pw.pw_gid, bytes.length⟩] ∧ array'.Grown ∧
      block'.Holds (bytes ++ (pw.pw_name.bytes ++ [0#8])) := by
  obtain ⟨reserved, roomy⟩ := GrowingArray.reserve_total grown room
  obtain ⟨block', appended, after⟩ := appendToMemoryBlock_spec holds (pw.pw_name.bytes ++ [0#8]) offset
    (by simpa using length)
  obtain ⟨live, grown'⟩ := GrowingArray.reserve_grown grown roomy ⟨pw.pw_uid, pw.pw_gid, bytes.length⟩
  have counted := storeInt_eq_some.mpr ⟨length, rfl⟩
  refine ⟨_, block', ?_, live, grown', after⟩
  simp [addUser, roomy, counted, appended]

theorem addUser_bound (grown : array.Grown) (holds : block.Holds bytes) {pw : PasswdEntry}
    {state : GrowingArray UidCacheEntry × MemoryBlock Byte} (ran : addUser (array, block) pw = some state) :
    array.live.length < 2 ^ 27 ∧ bytes.length ≤ INT_MAX ∧ pw.pw_name.bytes.length + 1 ≤ INT_MAX := by
  simp only [addUser, Option.bind_eq_bind, Option.bind_eq_some_iff] at ran
  obtain ⟨reserved, roomy, length, counted, appended, stored, -⟩ := ran
  obtain ⟨live, grown'⟩ := GrowingArray.reserve_grown grown roomy ⟨pw.pw_uid, pw.pw_gid, 0⟩
  have room := grown'.length_le
  rw [live, List.length_append, List.length_singleton] at room
  refine ⟨by omega, ?_, (storeInt_eq_some.mp counted).1⟩
  by_contra large
  rw [appendToMemoryBlock_none holds _ large] at stored
  cases stored

theorem addUsers_total (users : List PasswdEntry) (grown : array.Grown) (holds : block.Holds bytes)
    (room : array.live.length + users.length ≤ 2 ^ 27) (fit : NamesFit bytes.length users) :
    ∃ array' block', users.foldlM addUser (array, block) = some (array', block') ∧
      array'.live = array.live ++ (userCells bytes.length users).map Prod.fst ∧ array'.Grown ∧
      block'.Holds (bytes ++ nameBytes users) := by
  induction users generalizing array block bytes with
  | nil => exact ⟨array, block, rfl, by simp [userCells], grown, by simpa [nameBytes] using holds⟩
  | cons pw rest ih =>
    obtain ⟨offset, length, later⟩ := fit
    rw [List.length_cons] at room
    obtain ⟨array₁, block₁, stepped, live₁, grown₁, holds₁⟩ :=
      addUser_total grown holds pw (by omega) offset length
    have size₁ : (bytes ++ (pw.pw_name.bytes ++ [0#8])).length =
        bytes.length + (pw.pw_name.bytes.length + 1) := by simp
    obtain ⟨array', block', ran, live, grown', holds'⟩ := ih grown₁ holds₁
      (by rw [live₁, List.length_append, List.length_singleton]; omega) (by rw [size₁]; exact later)
    refine ⟨array', block', ?_, ?_, grown', ?_⟩
    · rw [List.foldlM_cons, stepped]
      exact ran
    · rw [live, live₁, size₁]
      simp [userCells]
    · simpa [nameBytes] using holds'

theorem addUsers_bound (users : List PasswdEntry) (grown : array.Grown) (holds : block.Holds bytes)
    {state : GrowingArray UidCacheEntry × MemoryBlock Byte}
    (ran : users.foldlM addUser (array, block) = some state) :
    array.live.length + users.length ≤ 2 ^ 27 ∧ NamesFit bytes.length users := by
  induction users generalizing array block bytes with
  | nil => exact ⟨by simpa using grown.length_le, trivial⟩
  | cons pw rest ih =>
    rw [List.foldlM_cons, Option.bind_eq_bind, Option.bind_eq_some_iff] at ran
    obtain ⟨state₁, stepped, later⟩ := ran
    obtain ⟨room, offset, length⟩ := addUser_bound grown holds stepped
    obtain ⟨array₁, block₁, stepped', live₁, grown₁, holds₁⟩ :=
      addUser_total grown holds pw room offset length
    obtain rfl : state₁ = (array₁, block₁) := Option.some.inj (stepped.symm.trans stepped')
    obtain ⟨room', fit⟩ := ih grown₁ holds₁ later
    rw [live₁, List.length_append, List.length_singleton] at room'
    refine ⟨by rw [List.length_cons]; omega, offset, length, ?_⟩
    simpa using fit

end

/-! ## Names read back -/

/-- The offset of every entry leads to its name. -/
def NamesAt (bytes : List Byte) (named : List NamedEntry) : Prop :=
  ∀ entry ∈ named, 0#8 ∉ entry.2 ∧ ∃ before after, bytes = before ++ entry.2 ++ 0#8 :: after ∧
    entry.1.username_offset = before.length

theorem NamesAt.append {bytes : List Byte} {named : List NamedEntry} (names : NamesAt bytes named)
    (more : List Byte) : NamesAt (bytes ++ more) named := by
  intro entry member
  obtain ⟨free, before, after, rfl, offset⟩ := names entry member
  exact ⟨free, before, after ++ more, by simp, offset⟩

theorem readNames_eq {block : MemoryBlock Byte} {bytes : List Byte} {named : List NamedEntry}
    (holds : block.Holds bytes) (names : NamesAt bytes named) :
    readNames block (named.map Prod.fst) = some named := by
  unfold readNames
  induction named with
  | nil => rfl
  | cons entry rest ih =>
    obtain ⟨free, before, after, rfl, offset⟩ := names entry (by simp)
    have name := holds.readString_eq free
    have others := ih fun other member => names other (by simp [member])
    rw [← offset] at name
    rw [List.map_cons, List.mapM_cons, name, others]
    rfl

theorem namesAt_userCells (before : List Byte) (users : List PasswdEntry) :
    NamesAt (before ++ nameBytes users) (userCells before.length users) := by
  induction users generalizing before with
  | nil => simp [NamesAt, userCells]
  | cons pw rest ih =>
    have split : before ++ nameBytes (pw :: rest) =
        before ++ (pw.pw_name.bytes ++ [0#8]) ++ nameBytes rest := by simp [nameBytes]
    have size : (before ++ (pw.pw_name.bytes ++ [0#8])).length =
        before.length + (pw.pw_name.bytes.length + 1) := by simp
    have later := ih (before ++ (pw.pw_name.bytes ++ [0#8]))
    rw [size] at later
    rw [split]
    intro entry member
    rcases List.mem_cons.mp member with rfl | member
    · exact ⟨pw.pw_name.nul_free, before, nameBytes rest, by simp, rfl⟩
    · exact later entry member

/-! ## Groups -/

def runBytes (uids : List Id) : List Byte := uids.flatMap uidBytes

theorem length_runBytes (uids : List Id) : (runBytes uids).length = 4 * uids.length := by
  induction uids with
  | nil => rfl
  | cons uid rest ih =>
    rw [runBytes, List.flatMap_cons, List.length_append, length_uidBytes, ← runBytes, ih, List.length_cons]
    omega

section
variable (sorter : Sorter NamedEntry) (named : List NamedEntry)

/-- The uid that the search for a member finds. -/
def resolveMember (name : UserName) : Option Id :=
  (sorter.bsearch (uidCacheNameSearchcmp name) named).map fun entry => entry.1.uid

def memberUids (gr : GroupEntry) : List Id := gr.gr_mem.filterMap (resolveMember sorter named)

/-- The entries of these groups, stored from an offset on, with their uids. -/
def groupCells (offset : Nat) : List GroupEntry → List (GidCacheEntry × List Id)
  | [] => []
  | gr :: rest => (⟨gr.gr_gid, (memberUids sorter named gr).length, offset⟩, memberUids sorter named gr) ::
      groupCells (offset + 4 * (memberUids sorter named gr).length) rest

end

/-- The offset of every group and its number of members fit an `int`, when a group stores
`count` uids. -/
def GroupsFit (count : GroupEntry → Nat) (offset : Nat) : List GroupEntry → Prop
  | [] => True
  | gr :: rest => offset ≤ INT_MAX ∧ gr.gr_mem.length ≤ INT_MAX ∧
      GroupsFit count (offset + 4 * count gr) rest

theorem GroupsFit.mono {count less : GroupEntry → Nat} {offset low : Nat} {groups : List GroupEntry}
    (fit : GroupsFit count offset groups) (below : low ≤ offset)
    (fewer : ∀ gr ∈ groups, less gr ≤ count gr) : GroupsFit less low groups := by
  induction groups generalizing offset low with
  | nil => trivial
  | cons gr rest ih =>
    obtain ⟨small, members, later⟩ := fit
    have first := fewer gr (by simp)
    exact ⟨by omega, members, ih later (by omega) fun other member => fewer other (by simp [member])⟩

section
variable (lib : CacheSorters) {named : List NamedEntry} {block : MemoryBlock Byte} {bytes : List Byte}

/-- The uids of a group are stored at the end of the block. -/
structure RunAtEnd (bytes : List Byte) (ent : GidCacheEntry) (i : Nat) : Prop where
  at_end : ent.uids_offset + 4 * ent.uid_count = bytes.length
  offset_le : ent.uids_offset ≤ INT_MAX
  count_le : ent.uid_count ≤ i
  index_le : i ≤ INT_MAX

theorem addMember_total (holds : block.Holds bytes) (names : NamesAt bytes named) {ent : GidCacheEntry}
    {i : Nat} (run : RunAtEnd bytes ent i) (name : UserName) (next : i + 1 ≤ INT_MAX) :
    ∃ block', addMember lib (named.map Prod.fst) ((ent, block), i) name =
        some (({ ent with uid_count := ent.uid_count + (resolveMember lib.named named name).toList.length },
          block'), i + 1) ∧
      block'.Holds (bytes ++ runBytes (resolveMember lib.named named name).toList) := by
  have read := readNames_eq holds names
  have counted := storeInt_eq_some.mpr ⟨next, rfl⟩
  unfold addMember resolveMember
  simp only [read, Option.bind_eq_bind, Option.bind_some, counted]
  cases found : lib.named.bsearch (uidCacheNameSearchcmp name) named with
  | none => exact ⟨block, rfl, by simpa [runBytes] using holds⟩
  | some entry =>
    have atEnd := run.at_end
    have offset := run.offset_le
    have count := run.count_le
    have limit : INT_MAX = 2 ^ 31 - 1 := rfl
    obtain ⟨grown, grew, size, room, spare, cells⟩ := growMemoryBlock_spec holds 4 (by omega)
    obtain ⟨written, wrote, after⟩ :=
      MemoryBlock.write_spec cells (size.trans (by rw [length_uidBytes entry.1.uid])) room
    have stored := storeInt_eq_some.mpr ⟨show ent.uid_count + 1 ≤ INT_MAX by omega, rfl⟩
    refine ⟨written, ?_, by simpa [runBytes] using after⟩
    rw [← atEnd] at wrote
    simp [storeMember, grew, wrote, stored]

theorem addMember_bound {users : List UidCacheEntry} {ent : GidCacheEntry} {i : Nat} {name : UserName}
    {state : (GidCacheEntry × MemoryBlock Byte) × Nat}
    (ran : addMember lib users ((ent, block), i) name = some state) : i + 1 ≤ INT_MAX := by
  simp only [addMember, Option.bind_eq_bind, Option.bind_eq_some_iff] at ran
  obtain ⟨-, -, -, -, next, counted, -⟩ := ran
  exact (storeInt_eq_some.mp counted).1

theorem RunAtEnd.next {ent : GidCacheEntry} {i : Nat} (run : RunAtEnd bytes ent i) (next : i + 1 ≤ INT_MAX)
    (uid : Option Id) :
    RunAtEnd (bytes ++ runBytes uid.toList) { ent with uid_count := ent.uid_count + uid.toList.length }
      (i + 1) := by
  have atEnd := run.at_end
  have count := run.count_le
  have single : uid.toList.length ≤ 1 := by cases uid <;> simp
  refine ⟨?_, run.offset_le, ?_, next⟩
  · simp only [List.length_append, length_runBytes]
    omega
  · simp only
    omega

theorem addMembers_total (members : List UserName) (holds : block.Holds bytes) (names : NamesAt bytes named)
    {ent : GidCacheEntry} {i : Nat} (run : RunAtEnd bytes ent i) (few : i + members.length ≤ INT_MAX) :
    ∃ block', members.foldlM (addMember lib (named.map Prod.fst)) ((ent, block), i) =
        some (({ ent with
          uid_count := ent.uid_count + (members.filterMap (resolveMember lib.named named)).length },
            block'), i + members.length) ∧
      block'.Holds (bytes ++ runBytes (members.filterMap (resolveMember lib.named named))) := by
  induction members generalizing ent block bytes i with
  | nil => exact ⟨block, rfl, by simpa [runBytes] using holds⟩
  | cons name rest ih =>
    rw [List.length_cons] at few
    obtain ⟨block₁, stepped, holds₁⟩ := addMember_total lib holds names run name (by omega)
    obtain ⟨block', ran, holds'⟩ := ih holds₁ (names.append _)
      (run.next (by omega) (resolveMember lib.named named name)) (by omega)
    have uids : (name :: rest).filterMap (resolveMember lib.named named) =
        (resolveMember lib.named named name).toList ++ rest.filterMap (resolveMember lib.named named) := by
      rw [List.filterMap_cons]
      cases resolveMember lib.named named name <;> rfl
    refine ⟨block', ?_, ?_⟩
    · rw [List.foldlM_cons, stepped, Option.bind_eq_bind, Option.bind_some, ran, uids]
      simp only [List.length_append, List.length_cons, Nat.add_assoc, Nat.add_comm 1]
    · rw [uids]
      simpa [runBytes] using holds'

theorem addMembers_bound (members : List UserName) (holds : block.Holds bytes) (names : NamesAt bytes named)
    {ent : GidCacheEntry} {i : Nat} (run : RunAtEnd bytes ent i)
    {state : (GidCacheEntry × MemoryBlock Byte) × Nat}
    (ran : members.foldlM (addMember lib (named.map Prod.fst)) ((ent, block), i) = some state) :
    i + members.length ≤ INT_MAX := by
  induction members generalizing ent block bytes i with
  | nil => simpa using run.index_le
  | cons name rest ih =>
    rw [List.foldlM_cons, Option.bind_eq_bind, Option.bind_eq_some_iff] at ran
    obtain ⟨state₁, stepped, later⟩ := ran
    have next := addMember_bound lib stepped
    obtain ⟨block₁, stepped', holds₁⟩ := addMember_total lib holds names run name next
    obtain rfl := Option.some.inj (stepped.symm.trans stepped')
    have bound := ih holds₁ (names.append _) (run.next next _) later
    rw [List.length_cons]
    omega

variable {array : GrowingArray GidCacheEntry}

theorem addGroup_total (grown : array.Grown) (holds : block.Holds bytes) (names : NamesAt bytes named)
    (gr : GroupEntry) (room : array.live.length < 2 ^ 27) (offset : bytes.length ≤ INT_MAX)
    (members : gr.gr_mem.length ≤ INT_MAX) :
    ∃ array' block', addGroup lib (named.map Prod.fst) (array, block) gr = some (array', block') ∧
      array'.live = array.live ++ [⟨gr.gr_gid, (memberUids lib.named named gr).length, bytes.length⟩] ∧
      array'.Grown ∧ block'.Holds (bytes ++ runBytes (memberUids lib.named named gr)) := by
  obtain ⟨reserved, roomy⟩ := GrowingArray.reserve_total grown room
  have run : RunAtEnd bytes ⟨gr.gr_gid, 0, bytes.length⟩ 0 := ⟨by simp, offset, Nat.le_refl 0, Nat.zero_le _⟩
  obtain ⟨block', ran, holds'⟩ := addMembers_total lib gr.gr_mem holds names run (by omega)
  obtain ⟨live, grown'⟩ := GrowingArray.reserve_grown grown roomy
    ⟨gr.gr_gid, (memberUids lib.named named gr).length, bytes.length⟩
  have stored := storeInt_eq_some.mpr ⟨offset, rfl⟩
  refine ⟨_, block', ?_, live, grown', holds'⟩
  simp only [Nat.zero_add] at ran
  simp [addGroup, roomy, holds.size_eq, stored, ran, memberUids]

theorem addGroup_bound (grown : array.Grown) (holds : block.Holds bytes) (names : NamesAt bytes named)
    {gr : GroupEntry} {state : GrowingArray GidCacheEntry × MemoryBlock Byte}
    (ran : addGroup lib (named.map Prod.fst) (array, block) gr = some state) :
    array.live.length < 2 ^ 27 ∧ bytes.length ≤ INT_MAX ∧ gr.gr_mem.length ≤ INT_MAX := by
  simp only [addGroup, Option.bind_eq_bind, Option.bind_eq_some_iff, holds.size_eq] at ran
  obtain ⟨reserved, roomy, offset, stored, members, scanned, -⟩ := ran
  obtain ⟨live, grown'⟩ := GrowingArray.reserve_grown grown roomy ⟨gr.gr_gid, 0, 0⟩
  have room := grown'.length_le
  rw [live, List.length_append, List.length_singleton] at room
  obtain ⟨small, rfl⟩ := storeInt_eq_some.mp stored
  have run : RunAtEnd bytes ⟨gr.gr_gid, 0, bytes.length⟩ 0 := ⟨by simp, small, Nat.le_refl 0, Nat.zero_le _⟩
  have few := addMembers_bound lib gr.gr_mem holds names run scanned
  exact ⟨by omega, small, by omega⟩

theorem addGroups_total (groups : List GroupEntry) (grown : array.Grown) (holds : block.Holds bytes)
    (names : NamesAt bytes named) (room : array.live.length + groups.length ≤ 2 ^ 27)
    (fit : GroupsFit (fun gr => (memberUids lib.named named gr).length) bytes.length groups) :
    ∃ array' block', groups.foldlM (addGroup lib (named.map Prod.fst)) (array, block) = some (array', block') ∧
      array'.live = array.live ++ (groupCells lib.named named bytes.length groups).map Prod.fst ∧ array'.Grown ∧
      block'.Holds (bytes ++ groups.flatMap fun gr => runBytes (memberUids lib.named named gr)) := by
  induction groups generalizing array block bytes with
  | nil => exact ⟨array, block, rfl, by simp [groupCells], grown, by simpa using holds⟩
  | cons gr rest ih =>
    obtain ⟨offset, members, later⟩ := fit
    rw [List.length_cons] at room
    obtain ⟨array₁, block₁, stepped, live₁, grown₁, holds₁⟩ :=
      addGroup_total lib grown holds names gr (by omega) offset members
    have size₁ : (bytes ++ runBytes (memberUids lib.named named gr)).length =
        bytes.length + 4 * (memberUids lib.named named gr).length := by rw [List.length_append, length_runBytes]
    obtain ⟨array', block', ran, live, grown', holds'⟩ := ih grown₁ holds₁ (names.append _)
      (by rw [live₁, List.length_append, List.length_singleton]; omega) (by rw [size₁]; exact later)
    refine ⟨array', block', ?_, ?_, grown', ?_⟩
    · rw [List.foldlM_cons, stepped]
      exact ran
    · rw [live, live₁, size₁]
      simp [groupCells]
    · simpa using holds'

theorem addGroups_bound (groups : List GroupEntry) (grown : array.Grown) (holds : block.Holds bytes)
    (names : NamesAt bytes named) {state : GrowingArray GidCacheEntry × MemoryBlock Byte}
    (ran : groups.foldlM (addGroup lib (named.map Prod.fst)) (array, block) = some state) :
    array.live.length + groups.length ≤ 2 ^ 27 ∧
      GroupsFit (fun gr => (memberUids lib.named named gr).length) bytes.length groups := by
  induction groups generalizing array block bytes with
  | nil => exact ⟨by simpa using grown.length_le, trivial⟩
  | cons gr rest ih =>
    rw [List.foldlM_cons, Option.bind_eq_bind, Option.bind_eq_some_iff] at ran
    obtain ⟨state₁, stepped, later⟩ := ran
    obtain ⟨room, offset, members⟩ := addGroup_bound lib grown holds names stepped
    obtain ⟨array₁, block₁, stepped', live₁, grown₁, holds₁⟩ :=
      addGroup_total lib grown holds names gr room offset members
    obtain rfl : state₁ = (array₁, block₁) := Option.some.inj (stepped.symm.trans stepped')
    obtain ⟨room', fit⟩ := ih grown₁ holds₁ (names.append _) later
    rw [live₁, List.length_append, List.length_singleton] at room'
    refine ⟨by rw [List.length_cons]; omega, offset, members, ?_⟩
    simpa [length_runBytes] using fit

end

/-! ## The two rebuilds -/

/-- The entries that stay in the cache: none after an error. -/
def Enumeration.kept {α : Type} (enumeration : Enumeration α) : List α :=
  match enumeration.ending with
  | .failed => []
  | _ => enumeration.entries

theorem Enumeration.mem_of_mem_kept {α : Type} {enumeration : Enumeration α} {entry : α}
    (member : entry ∈ enumeration.kept) : entry ∈ enumeration.entries := by
  unfold Enumeration.kept at member
  split at member
  · cases member
  · exact member

theorem clear_live {α : Type} (array : GrowingArray α) : array.clear.live = [] := rfl

/-- The arrays have capacities that growth leads to. -/
structure UserCache.Grown (cache : UserCache) : Prop where
  users : cache.uid_cache.Grown
  groups : cache.gid_cache.Grown

section
variable (lib : CacheSorters) {cache : UserCache} (passwd : Enumeration PasswdEntry)
  (group : Enumeration GroupEntry)

theorem rebuildUidCache_total (grown : cache.uid_cache.Grown) (count : passwd.entries.length ≤ 2 ^ 27)
    (fit : NamesFit 0 passwd.entries) :
    ∃ cache' done, rebuildUidCache (resetMemoryBlock cache) passwd = some (cache', done) ∧
      cache'.uid_cache.live = (userCells 0 passwd.kept).map Prod.fst ∧ cache'.uid_cache.Grown ∧
      cache'.gid_cache = cache.gid_cache ∧ cache'.cache_memory_block.Holds (nameBytes passwd.entries) := by
  obtain ⟨array, block, ran, live, grown', holds⟩ := addUsers_total passwd.entries
    (GrowingArray.grown_clear grown) (holds_initMemoryBlock 1024) (by simpa [clear_live] using count) fit
  rw [clear_live, List.nil_append] at live
  rw [List.nil_append] at holds
  unfold rebuildUidCache
  simp only [resetMemoryBlock, ran, Option.bind_eq_bind, Option.bind_some]
  unfold Enumeration.kept
  cases passwd.ending with
  | endOfList => exact ⟨_, true, rfl, live, grown', rfl, holds⟩
  | enoent => exact ⟨_, true, rfl, live, grown', rfl, holds⟩
  | failed => exact ⟨_, false, rfl, rfl, GrowingArray.grown_clear grown', rfl, holds⟩

theorem rebuildUidCache_bound (grown : cache.uid_cache.Grown) {result : UserCache × Bool}
    (ran : rebuildUidCache (resetMemoryBlock cache) passwd = some result) :
    passwd.entries.length ≤ 2 ^ 27 ∧ NamesFit 0 passwd.entries := by
  simp only [rebuildUidCache, Option.bind_eq_bind, Option.bind_eq_some_iff] at ran
  obtain ⟨state, looped, -⟩ := ran
  have bound := addUsers_bound passwd.entries (GrowingArray.grown_clear grown)
    (holds_initMemoryBlock 1024) looped
  simpa [clear_live] using bound

theorem rebuildGidCache_total (sane : lib.named.Sane) {named : List NamedEntry} {bytes : List Byte}
    (users : cache.uid_cache.live = named.map Prod.fst) (grown : cache.Grown)
    (holds : cache.cache_memory_block.Holds bytes) (names : NamesAt bytes named)
    (count : group.entries.length ≤ 2 ^ 27)
    (fit : GroupsFit (fun gr => (memberUids lib.named (lib.named.qsort uidCacheNameSortcmp named) gr).length)
      bytes.length group.entries) :
    ∃ cache' done, rebuildGidCache lib cache group = some (cache', done) ∧ cache'.Grown ∧
      cache'.uid_cache.live = (lib.named.qsort uidCacheNameSortcmp named).map Prod.fst ∧
      cache'.gid_cache.live = (groupCells lib.named (lib.named.qsort uidCacheNameSortcmp named) bytes.length
        group.kept).map Prod.fst ∧
      cache'.cache_memory_block.Holds (bytes ++ group.entries.flatMap fun gr =>
        runBytes (memberUids lib.named (lib.named.qsort uidCacheNameSortcmp named) gr)) := by
  have permuted := sane.qsort_perm uidCacheNameSortcmp named
  have sorted : NamesAt bytes (lib.named.qsort uidCacheNameSortcmp named) :=
    fun entry member => names entry (permuted.mem_iff.mp member)
  have read := readNames_eq holds names
  obtain ⟨array, block, ran, live, grown', holds'⟩ := addGroups_total lib group.entries
    (GrowingArray.grown_clear grown.groups) holds sorted (by simpa [clear_live] using count) fit
  rw [clear_live, List.nil_append] at live
  have users_grown : GrowingArray.Grown
      ⟨(lib.named.qsort uidCacheNameSortcmp named).map Prod.fst, cache.uid_cache.stale⟩ := by
    have same := grown.users
    simp only [GrowingArray.Grown, GrowingArray.capacity, users, List.length_map, permuted.length_eq] at same ⊢
    exact same
  unfold rebuildGidCache
  simp only [users, read, ran, Option.bind_eq_bind, Option.bind_some]
  unfold Enumeration.kept
  cases group.ending with
  | endOfList => exact ⟨_, true, rfl, ⟨users_grown, grown'⟩, rfl, live, holds'⟩
  | enoent => exact ⟨_, true, rfl, ⟨users_grown, grown'⟩, rfl, live, holds'⟩
  | failed =>
    exact ⟨_, false, rfl, ⟨users_grown, GrowingArray.grown_clear grown'⟩, rfl, rfl, holds'⟩

theorem rebuildGidCache_bound (sane : lib.named.Sane) {named : List NamedEntry} {bytes : List Byte}
    (users : cache.uid_cache.live = named.map Prod.fst) (grown : cache.gid_cache.Grown)
    (holds : cache.cache_memory_block.Holds bytes) (names : NamesAt bytes named)
    {result : UserCache × Bool} (ran : rebuildGidCache lib cache group = some result) :
    group.entries.length ≤ 2 ^ 27 ∧
      GroupsFit (fun gr => (memberUids lib.named (lib.named.qsort uidCacheNameSortcmp named) gr).length)
        bytes.length group.entries := by
  have sorted : NamesAt bytes (lib.named.qsort uidCacheNameSortcmp named) :=
    fun entry member => names entry ((sane.qsort_perm uidCacheNameSortcmp named).mem_iff.mp member)
  simp only [rebuildGidCache, users, readNames_eq holds names, Option.bind_eq_bind, Option.bind_some,
    Option.bind_eq_some_iff] at ran
  obtain ⟨state, looped, -⟩ := ran
  have bound := addGroups_bound lib group.entries (GrowingArray.grown_clear grown) holds sorted looped
  simpa [clear_live] using bound

/-! ## The whole rebuild -/

/-- The users of the cache with their names, as they are searched for members. -/
def cachedNames : List NamedEntry :=
  lib.named.qsort uidCacheNameSortcmp (userCells 0 passwd.kept)

/-- The groups of the cache with their uids, in the order of enumeration. -/
def cachedGroups : List (GidCacheEntry × List Id) :=
  groupCells lib.named (cachedNames lib passwd) (nameBytes passwd.entries).length group.kept

/-- Every number of entries, offset, length and index of the rebuild fits. -/
structure RebuildFits : Prop where
  users : passwd.entries.length ≤ 2 ^ 27
  names : NamesFit 0 passwd.entries
  groups : group.entries.length ≤ 2 ^ 27
  members : GroupsFit (fun gr => (memberUids lib.named (cachedNames lib passwd) gr).length)
    (nameBytes passwd.entries).length group.entries

structure Rebuilt (cache : UserCache) : Prop where
  grown : cache.Grown
  users : cache.uid_cache.live = lib.users.qsort uidCacheUidSortcmp ((cachedNames lib passwd).map Prod.fst)
  groups : cache.gid_cache.live =
    lib.groups.qsort gidCacheGidSortcmp ((cachedGroups lib passwd group).map Prod.fst)
  memory : cache.cache_memory_block.Holds (nameBytes passwd.entries ++
    group.entries.flatMap fun gr => runBytes (memberUids lib.named (cachedNames lib passwd) gr))

structure CacheSorters.Sane : Prop where
  named : lib.named.Sane
  users : lib.users.Sane
  groups : lib.groups.Sane

structure CacheSorters.Conforms : Prop where
  named : lib.named.Conforms
  users : lib.users.Conforms
  groups : lib.groups.Conforms

theorem CacheSorters.Conforms.sane {lib : CacheSorters} (conforms : lib.Conforms) : lib.Sane :=
  ⟨conforms.named.toSane, conforms.users.toSane, conforms.groups.toSane⟩

theorem namesAt_kept : NamesAt (nameBytes passwd.entries) (userCells 0 passwd.kept) := by
  unfold Enumeration.kept
  split
  · simp [NamesAt, userCells]
  · exact namesAt_userCells [] passwd.entries

theorem sortUserCache_grown (sane : lib.Sane) (grown : cache.Grown) : (sortUserCache lib cache).Grown := by
  have users := (sane.users.qsort_perm uidCacheUidSortcmp cache.uid_cache.live).length_eq
  have groups := (sane.groups.qsort_perm gidCacheGidSortcmp cache.gid_cache.live).length_eq
  refine ⟨?_, ?_⟩
  · have same := grown.users
    simp only [GrowingArray.Grown, GrowingArray.capacity, sortUserCache, users] at same ⊢
    exact same
  · have same := grown.groups
    simp only [GrowingArray.Grown, GrowingArray.capacity, sortUserCache, groups] at same ⊢
    exact same

theorem rebuildUserCache_total (sane : lib.Sane) (grown : cache.Grown)
    (fits : RebuildFits lib passwd group) :
    ∃ cache', rebuildUserCache lib cache passwd group = some cache' ∧ Rebuilt lib passwd group cache' := by
  obtain ⟨cache₁, done₁, first, users₁, grown₁, kept, holds₁⟩ :=
    rebuildUidCache_total passwd grown.users fits.users fits.names
  obtain ⟨cache₂, done₂, second, grown₂, users₂, groups₂, holds₂⟩ :=
    rebuildGidCache_total lib group sane.named users₁ ⟨grown₁, by rw [kept]; exact grown.groups⟩ holds₁
      (namesAt_kept passwd) fits.groups fits.members
  refine ⟨sortUserCache lib cache₂, by simp [rebuildUserCache, first, second], ?_, ?_, ?_, holds₂⟩
  · exact sortUserCache_grown lib sane grown₂
  · simp only [sortUserCache, users₂]
    rfl
  · simp only [sortUserCache, groups₂]
    rfl

theorem rebuildUserCache_fits (sane : lib.Sane) (grown : cache.Grown) {cache' : UserCache}
    (ran : rebuildUserCache lib cache passwd group = some cache') : RebuildFits lib passwd group := by
  simp only [rebuildUserCache, Option.bind_eq_bind, Option.bind_eq_some_iff] at ran
  obtain ⟨result₁, first, result₂, second, -⟩ := ran
  obtain ⟨count, fit⟩ := rebuildUidCache_bound passwd grown.users first
  obtain ⟨cache₁, done₁, first', users₁, grown₁, kept, holds₁⟩ :=
    rebuildUidCache_total passwd grown.users count fit
  obtain rfl := Option.some.inj (first.symm.trans first')
  obtain ⟨count', fit'⟩ := rebuildGidCache_bound lib group sane.named users₁
    (by rw [kept]; exact grown.groups) holds₁ (namesAt_kept passwd) second
  exact ⟨count, fit, count', fit'⟩

/-- A rebuild that ends has stored the enumerated entries. -/
theorem rebuildUserCache_spec (sane : lib.Sane) (grown : cache.Grown) {cache' : UserCache}
    (ran : rebuildUserCache lib cache passwd group = some cache') : Rebuilt lib passwd group cache' := by
  have fits := rebuildUserCache_fits lib passwd group sane grown ran
  obtain ⟨cache'', ran', rebuilt⟩ := rebuildUserCache_total lib passwd group sane grown fits
  obtain rfl := Option.some.inj (ran.symm.trans ran')
  exact rebuilt

end

end Bindfs.Source
