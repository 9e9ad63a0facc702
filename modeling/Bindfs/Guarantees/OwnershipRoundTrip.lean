import Bindfs.Guarantees.Directories
import Bindfs.Source.Main
import Bindfs.Source.TableHost

/-!
# Giving a file to a user the mount displays

getattr displays an owner through usermap and then adds the offset; chown and the creation
of files look a requested owner up in usermap_reverse and then subtract the offset. Undoing
two steps in the order they were made is not an inverse: `ownership_round_trip_iff` says for
every mount that `main` accepts, and every underlying owner, exactly when the owner asked for
is the owner displayed afterwards. An owner is asked for by a call of lchown(2) or chown(2) with
a uid other than -1.

`main` refuses an offset together with `--map`, but not together with the options that read
the same pairs from files. With a chain of two pairs in a passwd file and an offset a file of
user 1000 is displayed as 1011; given to 1011 it is displayed as 1012
(`chained_passwd_with_offset_changes_owner`).
-/
namespace Bindfs.Guarantees.OwnershipRoundTrip
open Bindfs.Source Bindfs.Lib.Effects Bindfs.Lib.InverseTables Bindfs.Guarantees.Directories

/-! ## Tables and offsets -/

/-- The mapped id `m` is displayed as `u`. -/
def DisplayedAs (offset : Int) (m u : Id) : Prop :=
  (u.toNat : Int) = m.toNat + offset ∧ u.toNat ≤ 2 ^ 31 - 1

/-- The id `w` from the reverse table is stored as `x`. -/
def StoredAs (offset : Int) (w x : Id) : Prop :=
  (x.toNat : Int) = w.toNat - offset ∧ x.toNat ≤ 2 ^ 31 - 1

/-- The left side `w` of a pair is stored as an id that the table maps to `m` itself. -/
def ChownReturns (table : Table Id) (offset : Int) (m w : Id) : Prop :=
  ∀ x, StoredAs offset w x → table.lookup x = some m

/-- The same for new files, where -1 is passed on as it is and stores no owner. -/
def CreationReturns (table : Table Id) (offset : Int) (m w : Id) : Prop :=
  w ≠ noId → ChownReturns table offset m w

/-- The id displayed for `r` leads back: when a pair has the displayed id on its right, its
left side returns to what `r` is mapped to; when none has, that id is not mapped further. -/
def LeadsBack (table : Table Id) (offset : Int) (returns : Id → Id → Prop) (r : Id) : Prop :=
  ∀ u, DisplayedAs offset (getOrDefault table r r) u →
    match (swapped table).lookup u with
    | none => 2 ^ 31 ≤ (getOrDefault table r r).toNat ∨ table.lookup (getOrDefault table r r) = none
    | some w => returns (getOrDefault table r r) w

section
variable {table : Table Id} {offset : BitVec 64}

/-- An id is displayed as `u` only if it is the one that `u` came from. -/
theorem shiftId_displayed_iff {m n u : Id} (displayed : DisplayedAs offset.toInt m u) :
    shiftId offset UID_T_MAX n = some u ↔ n = m := by
  rw [shiftId_iff]
  constructor
  · rintro ⟨sum, -⟩
    apply BitVec.eq_of_toNat_eq
    have := displayed.1
    omega
  · rintro rfl
    exact displayed

theorem unpaired_returns_iff (diagonal : ∀ a, (a, a) ∉ table) {m u : Id}
    (displayed : DisplayedAs offset.toInt m u) :
    (∀ x, shiftId (-offset) UID_T_MAX u = some x →
        shiftId offset UID_T_MAX (getOrDefault table x x) = some u) ↔
      2 ^ 31 ≤ m.toNat ∨ table.lookup m = none := by
  obtain ⟨sum, bound⟩ := displayed
  constructor
  · intro returns
    by_cases fits : m.toNat ≤ 2 ^ 31 - 1
    · right
      have stored : shiftId (-offset) UID_T_MAX u = some m :=
        (shiftId_neg_iff _ _ _).mpr ⟨by omega, fits⟩
      have again := (shiftId_displayed_iff ⟨sum, bound⟩).mp (returns m stored)
      cases found : table.lookup m with
      | none => rfl
      | some other =>
        rw [getOrDefault, found, Option.getD_some] at again
        subst again
        exact absurd (mem_of_lookup found) (diagonal other)
    · left
      omega
  · intro free x stored
    obtain ⟨difference, small⟩ := (shiftId_neg_iff _ _ _).mp stored
    have same : x = m := BitVec.eq_of_toNat_eq (by omega)
    subst same
    have unmapped : table.lookup x = none := by
      rcases free with large | unmapped
      · omega
      · exact unmapped
    rw [shiftId_displayed_iff ⟨sum, bound⟩, getOrDefault, unmapped, Option.getD_none]

theorem chownReturns_iff (diagonal : ∀ a, (a, a) ∉ table) {m u w : Id}
    (displayed : DisplayedAs offset.toInt m u) (paired : (w, u) ∈ table) :
    (∀ x, shiftId (-offset) UID_T_MAX w = some x →
        shiftId offset UID_T_MAX (getOrDefault table x x) = some u) ↔
      ChownReturns table offset.toInt m w := by
  apply forall_congr'
  intro x
  rw [shiftId_neg_iff]
  change StoredAs offset.toInt w x → _ ↔ StoredAs offset.toInt w x → _
  apply imp_congr_right
  intro stored
  rw [shiftId_displayed_iff displayed, getOrDefault]
  cases found : table.lookup x with
  | some other => simp
  | none =>
    -- an unmapped `x` is displayed as `w`, and no pair has equal sides
    refine iff_of_false ?_ (by simp)
    intro same
    have same : x = m := by simpa using same
    have sides : w = u := by
      apply BitVec.eq_of_toNat_eq
      have sum := displayed.1
      have difference := stored.1
      rw [same] at difference
      omega
    rw [sides] at paired
    exact diagonal u paired

/-- The owner a new file is given for the id `w` from the reverse table, if any. -/
def storedOwner (offset : BitVec 64) (w : Id) : Option Id :=
  if w = noId then none else shiftId (-offset) UID_T_MAX w

theorem creationReturns_iff (diagonal : ∀ a, (a, a) ∉ table) {m u w : Id}
    (displayed : DisplayedAs offset.toInt m u) (paired : (w, u) ∈ table) :
    (∀ x, storedOwner offset w = some x →
        shiftId offset UID_T_MAX (getOrDefault table x x) = some u) ↔
      CreationReturns table offset.toInt m w := by
  unfold storedOwner CreationReturns
  by_cases none : w = noId
  · simp [none]
  · rw [if_neg none, chownReturns_iff diagonal displayed paired]
    simp [none]

/-- Giving a file of `r` to the id shown for it makes the mount show that id. -/
def RoundTrip (shown : Id → Except Errno Id) (stores : Id → Id → Prop) (r : Id) : Prop :=
  ∀ u, shown r = .ok u → ∀ r', stores u r' → shown r' = .ok u

/-- The round trip through a table and its partner. `undo` takes the offset off; `returns`
describes what it does to the left sides of pairs. -/
theorem roundTrip_iff_leadsBack (diagonal : ∀ a, (a, a) ∉ table) {undo : Id → Option Id}
    {returns : Id → Id → Prop}
    (undo_plain : ∀ u, u ≠ noId → undo u = shiftId (-offset) UID_T_MAX u)
    (undo_paired : ∀ {m u w}, DisplayedAs offset.toInt m u → (w, u) ∈ table →
      ((∀ x, undo w = some x → shiftId offset UID_T_MAX (getOrDefault table x x) = some u) ↔
        returns m w))
    {shown : Id → Except Errno Id} {stores : Id → Id → Prop} {visible reachable : Prop}
    (shows : ∀ r u, shown r = .ok u ↔
      visible ∧ shiftId offset UID_T_MAX (getOrDefault table r r) = some u)
    (storing : ∀ u x, u ≠ noId →
      (stores u x ↔ reachable ∧ undo (getOrDefault (swapped table) u u) = some x)) (r : Id) :
    RoundTrip shown stores r ↔ (visible → reachable → LeadsBack table offset.toInt returns r) := by
  have plain : ∀ {u}, DisplayedAs offset.toInt (getOrDefault table r r) u → u ≠ noId := by
    rintro _ displayed rfl
    exact absurd displayed.2 (by decide)
  have tables : (∀ u, shiftId offset UID_T_MAX (getOrDefault table r r) = some u →
      ∀ x, undo (getOrDefault (swapped table) u u) = some x →
        shiftId offset UID_T_MAX (getOrDefault table x x) = some u) ↔
      LeadsBack table offset.toInt returns r := by
    apply forall_congr'
    intro u
    rw [shiftId_iff]
    apply imp_congr_right
    intro displayed
    cases found : (swapped table).lookup u with
    | none =>
      rw [getOrDefault, found, Option.getD_none, undo_plain u (plain displayed)]
      exact unpaired_returns_iff diagonal displayed
    | some w =>
      rw [getOrDefault, found, Option.getD_some]
      exact undo_paired displayed (mem_swapped.mp (mem_of_lookup found))
  constructor
  · intro trip seen reached
    rw [← tables]
    intro u displayed x undone
    have asked := plain ((shiftId_iff _ _ _).mp displayed)
    exact ((shows x u).mp
      (trip u ((shows r u).mpr ⟨seen, displayed⟩) x ((storing u x asked).mpr ⟨reached, undone⟩))).2
  · intro condition u shown_u x stored
    obtain ⟨seen, displayed⟩ := (shows r u).mp shown_u
    have asked := plain ((shiftId_iff _ _ _).mp displayed)
    obtain ⟨reached, undone⟩ := (storing u x asked).mp stored
    exact (shows x u).mpr ⟨seen, tables.mpr (condition seen reached) u displayed x undone⟩

end

/-! ## The handlers -/

section
variable {W : Type} (host : Host W) (settings : Settings) (fc : FuseContext) (procpath : CString)
  (stbuf : Stat) (world : W)

/-- The uid `getattr_common` reports for a file, were its underlying owner `r`. -/
def shownUid (r : Id) : Except Errno Id :=
  ((getattrCommon host settings fc procpath { stbuf with st_uid := r }).exec world).result.map
    Stat.st_uid

/-- The gid `getattr_common` reports for a file, were its underlying group `r`. -/
def shownGid (r : Id) : Except Errno Id :=
  ((getattrCommon host settings fc procpath { stbuf with st_gid := r }).exec world).result.map
    Stat.st_gid

/-- The owners and groups `bindfs_chown` passes to lchown(2). -/
def lchowned (path : CString) (uid gid : Id) : List (Id × Id) :=
  ((bindfsChown host settings path uid gid).exec world).calls.filterMap lchownOwner

/-- `bindfs_chown` passes the uid `r'` to lchown(2) when it is asked for `u`. -/
def ChownStoresUid (path : CString) (u r' : Id) : Prop :=
  ∃ gid group, (r', group) ∈ lchowned host settings world path u gid

/-- `bindfs_chown` passes the gid `r'` to lchown(2) when it is asked for `g`. -/
def ChownStoresGid (path : CString) (g r' : Id) : Prop :=
  ∃ uid owner, (owner, r') ∈ lchowned host settings world path uid g

/-- The owner and group a call hands to chown(2) or lchown(2). -/
def chownedOwner : W × SysCall → Option (Id × Id)
  | (_, .chown _ owner group) | (_, .lchown _ owner group) => some (owner, group)
  | _ => none

/-- `chown_new_file` passes the owner `r'` to `chown_func` when the caller is `u`. The uid -1 asks
for no change and stores nothing. -/
def CreationStoresUid (chownFunc : CString → Id → Id → SysCall) (path : CString) (gid u r' : Id) : Prop :=
  r' ≠ noId ∧ ∃ group, (r', group) ∈
    ((chownNewFile host settings path ⟨u, gid⟩ chownFunc).exec world).calls.filterMap chownedOwner

/-! ### What is in the way of an answer -/

/-- The id is displayed: it stays in range through the table and the offset. -/
def Shows (table : Table Id) (offset : Int) (id : Id) : Prop :=
  FitsId ((getOrDefault table id id).toNat + offset)

/-- The file is not a block device shown as a file; or it is one that can be opened and has a size
that fits `off_t`, or the caller is not shown it. -/
def DeviceShows : Prop :=
  settings.block_devices_as_files = true → S_ISBLK stbuf.st_mode = true →
    shutOut host settings fc = false →
      ∃ bytes, host.blockSize world procpath = .ok bytes ∧ 0 ≤ bytes.toInt

/-- The group of a new file: none is stored, or the offset can be taken off it. Below a setgid
directory only a mapped group is stored. -/
def GroupStorable (table : Table Id) (offset : Int) (gid : Id) (setgid : Bool) : Prop :=
  let group := getOrDefault (swapped table) gid (if setgid then noId else gid)
  group = noId ∨ FitsId (group.toNat - offset)

variable {settings}

/-- One side of the reported owner, when everything but the owner is fixed. -/
theorem reportedSide_ok_iff (unmirrored : isMirroringEnabled settings = false)
    {field : Stat → Id} {side : Id × Id → Id}
    (reads : ∀ (stbuf : Stat) shown, field (stbuf.withOwner shown) = side shown)
    (owner : Id × Id) (id : Id) :
    ((getattrCommon host settings fc procpath (stbuf.withOwner owner)).exec world).result.map field =
        .ok id ↔
      (∃ shown, shownOwner settings owner = some shown ∧ side shown = id) ∧
        ∃ base, ownerlessReport settings fc (host.blockSize world procpath)
          (host.access world procpath) stbuf = .ok base := by
  rw [result_getattrCommon, attributeReport_withOwner host settings unmirrored]
  cases shownOwner settings owner with
  | none => simp [Except.map]
  | some shown =>
    cases ownerlessReport settings fc (host.blockSize world procpath) (host.access world procpath)
        stbuf with
    | error error => simp [Except.map]
    | ok base => simp [Except.map, reads]

theorem ownerlessReport_ok_iff (unmirrored : isMirroringEnabled settings = false) :
    (∃ base, ownerlessReport settings fc (host.blockSize world procpath) (host.access world procpath)
      stbuf = .ok base) ↔ DeviceShows host settings fc procpath stbuf world := by
  have admitted : shutOut host settings fc = (settings.mirrored_users_only && fc.uid ≠ 0#32) := by
    simp [shutOut, unmirrored]
  unfold ownerlessReport DeviceShows
  rw [admitted]
  cases denied : (settings.mirrored_users_only && fc.uid ≠ 0#32) with
  | true => simp
  | false => simp [fileReport_ok_iff]

theorem applyGidOffset_some_iff (gid : Id) :
    (∃ g, applyGidOffset settings (usermapGetGidOrDefault settings.usermap gid gid) = some g) ↔
      Shows settings.usermap.groups settings.gid_offset.toInt gid := by
  rw [← Option.ne_none_iff_exists', ne_eq, show Shows _ _ _ ↔ ¬ ¬ Shows _ _ _ from not_not.symm]
  exact not_congr (shiftId_none_iff settings.gid_offset _)

theorem applyUidOffset_some_iff (uid : Id) :
    (∃ u, applyUidOffset settings (usermapGetUidOrDefault settings.usermap uid uid) = some u) ↔
      Shows settings.usermap.users settings.uid_offset.toInt uid := by
  rw [← Option.ne_none_iff_exists', ne_eq, show Shows _ _ _ ↔ ¬ ¬ Shows _ _ _ from not_not.symm]
  exact not_congr (shiftId_none_iff settings.uid_offset _)

theorem shownUid_ok_iff (unmirrored : isMirroringEnabled settings = false)
    (unforced : settings.new_uid = noId) (r u : Id) :
    shownUid host settings fc procpath stbuf world r = .ok u ↔
      (Shows settings.usermap.groups settings.gid_offset.toInt stbuf.st_gid ∧
        DeviceShows host settings fc procpath stbuf world) ∧
      shiftId settings.uid_offset UID_T_MAX (getOrDefault settings.usermap.users r r) = some u := by
  have replaced : { stbuf with st_uid := r } = stbuf.withOwner (r, stbuf.st_gid) := rfl
  unfold shownUid
  rw [replaced, reportedSide_ok_iff host fc procpath stbuf world unmirrored (fun _ _ => rfl),
    ownerlessReport_ok_iff host fc procpath stbuf world unmirrored, ← applyGidOffset_some_iff,
    and_right_comm]
  apply and_congr_left'
  change _ ↔ _ ∧ applyUidOffset settings (usermapGetUidOrDefault settings.usermap r r) = some u
  unfold shownOwner
  cases applyUidOffset settings (usermapGetUidOrDefault settings.usermap r r) with
  | none => simp
  | some uid =>
    cases applyGidOffset settings
      (usermapGetGidOrDefault settings.usermap stbuf.st_gid stbuf.st_gid) <;> simp [unforced]

theorem shownGid_ok_iff (unmirrored : isMirroringEnabled settings = false)
    (unforced : settings.new_gid = noId) (r g : Id) :
    shownGid host settings fc procpath stbuf world r = .ok g ↔
      (Shows settings.usermap.users settings.uid_offset.toInt stbuf.st_uid ∧
        DeviceShows host settings fc procpath stbuf world) ∧
      shiftId settings.gid_offset UID_T_MAX (getOrDefault settings.usermap.groups r r) = some g := by
  have replaced : { stbuf with st_gid := r } = stbuf.withOwner (stbuf.st_uid, r) := rfl
  unfold shownGid
  rw [replaced, reportedSide_ok_iff host fc procpath stbuf world unmirrored (fun _ _ => rfl),
    ownerlessReport_ok_iff host fc procpath stbuf world unmirrored, ← applyUidOffset_some_iff,
    and_right_comm]
  apply and_congr_left'
  change _ ↔ _ ∧ applyGidOffset settings (usermapGetGidOrDefault settings.usermap r r) = some g
  unfold shownOwner
  cases applyUidOffset settings
      (usermapGetUidOrDefault settings.usermap stbuf.st_uid stbuf.st_uid) with
  | none => simp
  | some uid =>
    cases applyGidOffset settings (usermapGetGidOrDefault settings.usermap r r) <;>
      simp [unforced]

theorem chownId_normal_iff {translate : Id → Option Id} {u x : Id} (asked : u ≠ noId) :
    chownId .normal translate u = .ok x ↔ translate u = some x := by
  unfold chownId
  rw [if_pos asked]
  cases translate u <;> simp

theorem chownStoresUid_iff (normal : settings.chown_policy = .normal) (path : CString) (u x : Id)
    (asked : u ≠ noId) :
    ChownStoresUid host settings world path u x ↔
      (∃ realPath, requestPath host settings world path = .ok realPath) ∧
        unapplyUidOffset settings (usermapGetUidOrDefault settings.usermap_reverse u u) = some x := by
  have translated : chownUid settings u = .ok x ↔
      unapplyUidOffset settings (usermapGetUidOrDefault settings.usermap_reverse u u) = some x := by
    unfold chownUid
    rw [normal]
    exact chownId_normal_iff asked
  constructor
  · rintro ⟨gid, group, member⟩
    obtain ⟨stored, -, -, located⟩ :=
      (mem_lchownOwner_bindfsChown host settings path u gid world _).mp member
    exact ⟨located, translated.mp stored⟩
  · rintro ⟨located, stored⟩
    exact ⟨noId, noId, (mem_lchownOwner_bindfsChown host settings path u noId world _).mpr
      ⟨translated.mpr stored, by simp [chownGid, chownId], Or.inl (ne_noId_of_shiftId stored), located⟩⟩

theorem chownStoresGid_iff (normal : settings.chgrp_policy = .normal) (path : CString) (g x : Id)
    (asked : g ≠ noId) :
    ChownStoresGid host settings world path g x ↔
      (∃ realPath, requestPath host settings world path = .ok realPath) ∧
        unapplyGidOffset settings (usermapGetGidOrDefault settings.usermap_reverse g g) = some x := by
  have translated : chownGid settings g = .ok x ↔
      unapplyGidOffset settings (usermapGetGidOrDefault settings.usermap_reverse g g) = some x := by
    unfold chownGid
    rw [normal]
    exact chownId_normal_iff asked
  constructor
  · rintro ⟨uid, owner, member⟩
    obtain ⟨-, stored, -, located⟩ :=
      (mem_lchownOwner_bindfsChown host settings path uid g world _).mp member
    exact ⟨located, translated.mp stored⟩
  · rintro ⟨located, stored⟩
    exact ⟨noId, noId, (mem_lchownOwner_bindfsChown host settings path noId g world _).mpr
      ⟨by simp [chownUid, chownId], translated.mpr stored, Or.inr (ne_noId_of_shiftId stored), located⟩⟩

theorem unapplyUnlessNone_some_iff (offset : BitVec 64) (w : Id) :
    (∃ x, unapplyUnlessNone (shiftId (-offset) UID_T_MAX) w = some x) ↔
      w = noId ∨ FitsId (w.toNat - offset.toInt) := by
  rw [← Option.ne_none_iff_exists', ne_eq, unapplyUnlessNone_none_iff, not_not]

/-- The uid a new file gets from the id `w` of the reverse table. -/
theorem unapplyUnlessNone_eq_some_iff {offset : BitVec 64} {w x : Id} (stored : x ≠ noId) :
    unapplyUnlessNone (shiftId (-offset) UID_T_MAX) w = some x ↔ storedOwner offset w = some x := by
  unfold unapplyUnlessNone storedOwner
  by_cases none : w = noId
  · simp [none, Ne.symm stored]
  · rw [if_pos none, if_neg none]

/-- What `chown_new_file` hands to `chown_func`, for either function it is called with. -/
theorem mem_chownedOwner_chownNewFile {chownFunc : CString → Id → Id → SysCall}
    (either : chownFunc = .chown ∨ chownFunc = .lchown) (path : CString) (fc : FuseContext)
    (owner : Id × Id) :
    owner ∈ ((chownNewFile host settings path fc chownFunc).exec world).calls.filterMap chownedOwner ↔
      newFileOwner settings fc (directorySetgid host settings world (myDirname path)) = some owner ∧
        (owner.1 ≠ noId ∨ owner.2 ≠ noId) := by
  have quiet : (parentCalls settings world path).filterMap chownedOwner = [] := by
    unfold parentCalls
    split <;> rfl
  cases translated : newFileOwner settings fc (directorySetgid host settings world (myDirname path)) with
  | none => simp [exec_chownNewFile_overflow host settings translated, quiet]
  | some asked =>
    rw [(exec_chownNewFile host settings translated chownFunc).2, List.filterMap_append, quiet,
      List.nil_append, Option.some.injEq]
    unfold ownerCall
    by_cases change : asked.1 ≠ noId ∨ asked.2 ≠ noId
    · rw [if_pos change]
      have passed : chownedOwner (world, chownFunc path asked.1 asked.2) = some asked := by
        rcases either with rfl | rfl <;> rfl
      simp only [Option.toList_some, List.map_cons, List.map_nil, List.filterMap_cons, passed,
        List.filterMap_nil, List.mem_singleton]
      constructor
      · rintro rfl
        exact ⟨rfl, change⟩
      · rintro ⟨rfl, -⟩
        rfl
    · rw [if_neg change]
      simp only [Option.toList_none, List.map_nil, List.filterMap_nil, List.not_mem_nil, false_iff]
      rintro ⟨rfl, asks⟩
      exact change asks

theorem creationStoresUid_iff (asUser : settings.create_policy = .asUser)
    (unforced : settings.create_for_uid = noId) {chownFunc : CString → Id → Id → SysCall}
    (either : chownFunc = .chown ∨ chownFunc = .lchown) (path : CString) (gid u x : Id)
    (partner : settings.usermap_reverse.groups = swapped settings.usermap.groups) :
    CreationStoresUid host settings world chownFunc path gid u x ↔
      GroupStorable settings.usermap.groups settings.gid_offset.toInt gid
          (directorySetgid host settings world (myDirname path)) ∧
        storedOwner settings.uid_offset (usermapGetUidOrDefault settings.usermap_reverse u u) = some x := by
  unfold CreationStoresUid
  simp only [mem_chownedOwner_chownNewFile host world either]
  generalize directorySetgid host settings world (myDirname path) = setgid
  have owners : (callerIds settings ⟨u, gid⟩ setgid).1 =
      usermapGetUidOrDefault settings.usermap_reverse u u := by
    unfold callerIds
    rw [asUser]
  have groups : (callerIds settings ⟨u, gid⟩ setgid).2 =
      getOrDefault (swapped settings.usermap.groups) gid (if setgid then noId else gid) := by
    unfold callerIds
    rw [asUser, ← partner]
    rfl
  have groupStored : (∃ g, unapplyUnlessNone (unapplyGidOffset settings)
      (callerIds settings ⟨u, gid⟩ setgid).2 = some g) ↔
        GroupStorable settings.usermap.groups settings.gid_offset.toInt gid setgid := by
    rw [groups]
    exact unapplyUnlessNone_some_iff settings.gid_offset _
  constructor
  · rintro ⟨stored, group, translated, -⟩
    simp only [newFileOwner, owners, unforced, Option.bind_eq_bind, Option.bind_eq_some_iff,
      Option.pure_def, Option.some.injEq, Prod.mk.injEq, ne_eq, not_true_eq_false, if_false]
      at translated
    obtain ⟨owner, undone, g, groupUndone, rfl, -⟩ := translated
    exact ⟨groupStored.mp ⟨g, groupUndone⟩, (unapplyUnlessNone_eq_some_iff stored).mp undone⟩
  · rintro ⟨storable, undone⟩
    have stored : x ≠ noId := by
      unfold storedOwner at undone
      split at undone
      · cases undone
      · exact ne_noId_of_shiftId undone
    obtain ⟨g, groupUndone⟩ := groupStored.mpr storable
    refine ⟨stored, if settings.create_for_gid ≠ noId then settings.create_for_gid else g, ?_, Or.inl stored⟩
    have ownerUndone : unapplyUnlessNone (unapplyUidOffset settings)
        (usermapGetUidOrDefault settings.usermap_reverse u u) = some x :=
      (unapplyUnlessNone_eq_some_iff stored).mpr undone
    simp [newFileOwner, owners, ownerUndone, groupUndone, unforced]

/-! ## Accepted mounts -/

/-- The pairs of one kind that the map options of a command line read, identity pairs left
out, in the order of reading. -/
def optionPairs (system : System) (od : OptionData) (kind : IdKind) : Table Id :=
  entries kind ((mapCalls system od).flatMap (MapCall.pairs system.users))

def offsetOption (od : OptionData) : IdKind → Option CString
  | .uid => od.uid_offset
  | .gid => od.gid_offset

/-- The id displayed for `r` leads back through chown, by the pairs and the offset that the
options give. -/
def ChownLeadsBack (system : System) (od : OptionData) (kind : IdKind) (r : Id) : Prop :=
  LeadsBack (optionPairs system od kind) (offsetValue (offsetOption od kind))
    (ChownReturns (optionPairs system od kind) (offsetValue (offsetOption od kind))) r

/-- The uid displayed for `r` leads back through the creation of a file. -/
def CreationLeadsBack (system : System) (od : OptionData) (r : Id) : Prop :=
  LeadsBack (optionPairs system od .uid) (offsetValue od.uid_offset)
    (CreationReturns (optionPairs system od .uid) (offsetValue od.uid_offset)) r

/-- Pairs without an offset lead back, unless a key was entered twice; an offset without pairs
always does. -/
theorem chownLeadsBack_of_unmixed {system : System} {od : OptionData} {kind : IdKind} (r : Id)
    (unmixed : offsetOption od kind = none ∧ (keys (optionPairs system od kind)).Nodup ∨
      optionPairs system od kind = []) : ChownLeadsBack system od kind r := by
  intro u displayed
  generalize optionPairs system od kind = table at unmixed displayed ⊢
  rcases unmixed with ⟨absent, distinct⟩ | rfl
  · rw [absent] at displayed ⊢
    have same : getOrDefault table r r = u := by
      apply BitVec.eq_of_toNat_eq
      have sum : (u.toNat : Int) = (getOrDefault table r r).toNat + 0 := displayed.1
      omega
    rw [same]
    cases found : (swapped table).lookup u with
    | none =>
      -- `r` is not mapped: a pair of `r` would have `u` on its right
      have unpaired : ∀ a, (a, u) ∉ table := by
        intro a member
        obtain ⟨b, stored⟩ := exists_lookup_of_mem (mem_swapped.mpr member)
        rw [found] at stored
        cases stored
      cases mapped : table.lookup r with
      | none =>
        rw [getOrDefault, mapped, Option.getD_none] at same
        exact Or.inr (same ▸ mapped)
      | some m =>
        rw [getOrDefault, mapped, Option.getD_some] at same
        exact absurd (same ▸ mem_of_lookup mapped) (unpaired r)
    | some w =>
      intro x stored
      have back : x = w := by
        apply BitVec.eq_of_toNat_eq
        have difference : (x.toNat : Int) = w.toNat - 0 := stored.1
        omega
      rw [back]
      exact (lookup_iff_mem distinct).mpr (mem_swapped.mp (mem_of_lookup found))
  · exact Or.inr rfl

/-- For every mount that `main` accepts, without mirroring and without forced ids, and every
underlying owner: the round trip through chown, through the creation of a file and, for
groups, through chown, each holds if and only if the displayed id leads back, unless something
else keeps the file from being displayed or an owner from being stored. -/
theorem ownership_round_trip_iff {system : System} {commandLine : CommandLine}
    (accepted : main system commandLine = .ok settings)
    (unmirrored : isMirroringEnabled settings = false) :
    (settings.new_uid = noId → settings.chown_policy = .normal → ∀ path r,
      (RoundTrip (shownUid host settings fc procpath stbuf world)
          (ChownStoresUid host settings world path) r ↔
        (Shows (optionPairs system commandLine.od .gid) (offsetValue commandLine.od.gid_offset) stbuf.st_gid ∧
            DeviceShows host settings fc procpath stbuf world →
          (∃ realPath, requestPath host settings world path = .ok realPath) →
            ChownLeadsBack system commandLine.od .uid r))) ∧
    (settings.new_uid = noId → settings.create_policy = .asUser → settings.create_for_uid = noId →
      ∀ chownFunc, chownFunc = SysCall.chown ∨ chownFunc = SysCall.lchown → ∀ path gid r,
      (RoundTrip (shownUid host settings fc procpath stbuf world)
          (CreationStoresUid host settings world chownFunc path gid) r ↔
        (Shows (optionPairs system commandLine.od .gid) (offsetValue commandLine.od.gid_offset) stbuf.st_gid ∧
            DeviceShows host settings fc procpath stbuf world →
          GroupStorable (optionPairs system commandLine.od .gid) (offsetValue commandLine.od.gid_offset) gid
              (directorySetgid host settings world (myDirname path)) →
            CreationLeadsBack system commandLine.od r))) ∧
    (settings.new_gid = noId → settings.chgrp_policy = .normal → ∀ path r,
      (RoundTrip (shownGid host settings fc procpath stbuf world)
          (ChownStoresGid host settings world path) r ↔
        (Shows (optionPairs system commandLine.od .uid) (offsetValue commandLine.od.uid_offset) stbuf.st_uid ∧
            DeviceShows host settings fc procpath stbuf world →
          (∃ realPath, requestPath host settings world path = .ok realPath) →
            ChownLeadsBack system commandLine.od .gid r))) := by
  have ids := main_accepts accepted
  obtain ⟨paired, tables⟩ := runMapCalls_tables system.users _ ids.maps
  have uidTable : settings.usermap.users = optionPairs system commandLine.od .uid := tables .uid
  have gidTable : settings.usermap.groups = optionPairs system commandLine.od .gid := tables .gid
  have uidPartner : settings.usermap_reverse.users = swapped settings.usermap.users :=
    paired.partner .uid
  have gidPartner : settings.usermap_reverse.groups = swapped settings.usermap.groups :=
    paired.partner .gid
  have uidDiagonal : ∀ a, (a, a) ∉ settings.usermap.users := (paired.built .uid).not_diagonal
  have gidDiagonal : ∀ a, (a, a) ∉ settings.usermap.groups := (paired.built .gid).not_diagonal
  unfold ChownLeadsBack CreationLeadsBack offsetOption
  rw [← uidTable, ← gidTable, ← ids.uid_offset, ← ids.gid_offset]
  refine ⟨?_, ?_, ?_⟩
  · intro unforced normal path r
    apply roundTrip_iff_leadsBack uidDiagonal (fun _ _ => rfl) (chownReturns_iff uidDiagonal)
      (shownUid_ok_iff host fc procpath stbuf world unmirrored unforced)
    rw [← uidPartner]
    exact chownStoresUid_iff host world normal path
  · intro unforced asUser uncreated chownFunc either path gid r
    apply roundTrip_iff_leadsBack uidDiagonal ?_ (creationReturns_iff uidDiagonal)
      (shownUid_ok_iff host fc procpath stbuf world unmirrored unforced)
    · rw [← uidPartner]
      exact fun u x _ => creationStoresUid_iff host world asUser uncreated either path gid u x gidPartner
    · intro u asked
      exact if_neg asked
  · intro unforced normal path r
    apply roundTrip_iff_leadsBack gidDiagonal (fun _ _ => rfl) (chownReturns_iff gidDiagonal)
      (shownGid_ok_iff host fc procpath stbuf world unmirrored unforced)
    rw [← gidPartner]
    exact chownStoresGid_iff host world normal path

end

/-- `bindfs --map-passwd=p --uid-offset=10 /s /m`. -/
def passwdLine : CommandLine where
  od := { OptionData.empty with map_passwd := some ['p'], uid_offset := some ['1', '0'] }
  calls := [(.nonoption, ['/', 's']), (.nonoption, ['/', 'm'])]
  malformed := false

/-- The settings of that mount for the pairs in the file. -/
def passwdSettings (pairs : Table Id) : Settings :=
  { initialSettings 0#32 with
    mntdest := ['/', 'm']
    usermap := ⟨pairs, []⟩
    usermap_reverse := ⟨swapped pairs, []⟩
    uid_offset := 10#64 }

/-- With the single pair 1000/1001 a file of 1000 is displayed as 1011, and is so after it was
given to 1011; so is a file that 1011 creates. -/
theorem ownership_round_trip_iff_of_single_pair :
    main (passwdSystem "1001:x:1000\n") passwdLine = .ok (passwdSettings [(1000, 1001)]) ∧
      RoundTrip
        (shownUid tableHost (passwdSettings [(1000, 1001)]) ⟨0, 0⟩ ['f'] (sampleStat 1000 0 0o100644)
          .empty)
        (ChownStoresUid tableHost (passwdSettings [(1000, 1001)]) .empty ['f']) 1000 ∧
      RoundTrip
        (shownUid tableHost (passwdSettings [(1000, 1001)]) ⟨0, 0⟩ ['f'] (sampleStat 1000 0 0o100644)
          .empty)
        (CreationStoresUid tableHost (passwdSettings [(1000, 1001)]) .empty .chown ['n'] 0) 1000 := by
  have accepted : main (passwdSystem "1001:x:1000\n") passwdLine =
      .ok (passwdSettings [(1000, 1001)]) := by rfl
  obtain ⟨chown, creation, -⟩ := ownership_round_trip_iff tableHost ⟨0, 0⟩ ['f']
    (sampleStat 1000 0 0o100644) .empty accepted rfl
  have displayed : ∀ {u : Id}, DisplayedAs 10 1001 u → u = 1011#32 := by
    rintro u ⟨sum, -⟩
    change (u.toNat : Int) = 1001 + 10 at sum
    exact BitVec.eq_of_toNat_eq (by simp; omega)
  refine ⟨accepted, (chown rfl rfl ['f'] 1000).mpr ?_,
    (creation rfl rfl rfl .chown (Or.inl rfl) ['n'] 0 1000).mpr ?_⟩
  · rintro - - u shown
    obtain rfl := displayed shown
    exact Or.inr rfl
  · rintro - - u shown
    obtain rfl := displayed shown
    exact Or.inr rfl

/-- With the pairs 1000/1001 and 1001/1002 and the offset 10 a file of 1000 is displayed as
1011; chown to 1011 stores 1001, which is displayed as 1012. -/
theorem chained_passwd_with_offset_changes_owner :
    main (passwdSystem "1001:x:1000\n1002:x:1001\n") passwdLine =
        .ok (passwdSettings [(1000, 1001), (1001, 1002)]) ∧
      ¬ RoundTrip
        (shownUid tableHost (passwdSettings [(1000, 1001), (1001, 1002)]) ⟨0, 0⟩ ['f']
          (sampleStat 1000 0 0o100644) .empty)
        (ChownStoresUid tableHost (passwdSettings [(1000, 1001), (1001, 1002)]) .empty ['f']) 1000 := by
  refine ⟨by rfl, ?_⟩
  intro trip
  have stored : lchowned tableHost (passwdSettings [(1000, 1001), (1001, 1002)]) .empty ['f'] 1011
      noId = [(1001, noId)] := by rfl
  have kept := trip 1011 (by rfl) 1001 ⟨noId, noId, by
    rw [stored]
    exact List.mem_singleton_self _⟩
  have changed : shownUid tableHost (passwdSettings [(1000, 1001), (1001, 1002)]) ⟨0, 0⟩ ['f']
      (sampleStat 1000 0 0o100644) .empty 1001 = .ok 1012 := by rfl
  rw [changed] at kept
  cases kept

end Bindfs.Guarantees.OwnershipRoundTrip
