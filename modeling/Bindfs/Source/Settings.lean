import Bindfs.Source.PermchainInvariant
import Bindfs.Source.Usermap

/-!
# The settings record and the id offsets of bindfs.c

`Settings` keeps the fields that the modelled handlers and `main` read; the program name,
the working directory and the rate limiters are not read by them. The arrays of mirrored ids are
lists, whose lengths are `num_mirrored_users` and `num_mirrored_members`. Permission chains carry
their invariant.
-/
namespace Bindfs.Source

inductive CreatePolicy where
  | asUser | asMounter
  deriving DecidableEq, Repr

/-- `ChownPolicy`, `ChgrpPolicy` and `ChmodPolicy` have the same three members. -/
inductive ChangePolicy where
  | normal | ignore | deny
  deriving DecidableEq, Repr

inductive XAttrPolicy where
  | unimplemented | readOnly | readWrite
  deriving DecidableEq, Repr

inductive ResolvedSymlinkDeletion where
  | deny | symlinkOnly | symlinkFirst | targetFirst
  deriving DecidableEq, Repr

structure Settings where
  permchain : Permchain
  new_uid : Id
  new_gid : Id
  create_for_uid : Id
  create_for_gid : Id
  mntdest : CString
  usermap : UserMap
  usermap_reverse : UserMap
  create_policy : CreatePolicy
  create_permchain : Permchain
  chown_policy : ChangePolicy
  chgrp_policy : ChangePolicy
  chmod_policy : ChangePolicy
  chmod_allow_x : Bool
  chmod_permchain : Permchain
  xattr_policy : XAttrPolicy
  delete_deny : Bool
  rename_deny : Bool
  mirrored_users_only : Bool
  mirrored_users : List Id
  mirrored_members : List Id
  hide_hard_links : Bool
  resolve_symlinks : Bool
  block_devices_as_files : Bool
  resolved_symlink_deletion_policy : ResolvedSymlinkDeletion
  realistic_permissions : Bool
  ctime_from_mtime : Bool
  enable_lock_forwarding : Bool
  enable_ioctl : Bool
  forward_odirect : Bool
  odirect_alignment : Nat
  uid_offset : BitVec 64
  gid_offset : BitVec 64

/-- The settings `main` initialises before any option is parsed. `mntdest` is NULL there
and is set before anything reads it. -/
def initialSettings (getuid : Id) : Settings where
  permchain := .create
  new_uid := noId
  new_gid := noId
  create_for_uid := noId
  create_for_gid := noId
  mntdest := []
  usermap := usermapCreate
  usermap_reverse := usermapCreate
  create_policy := if getuid = 0#32 then .asUser else .asMounter
  create_permchain := .create
  chown_policy := .normal
  chgrp_policy := .normal
  chmod_policy := .normal
  chmod_allow_x := false
  chmod_permchain := .create
  xattr_policy := .readWrite
  delete_deny := false
  rename_deny := false
  mirrored_users_only := false
  mirrored_users := []
  mirrored_members := []
  hide_hard_links := false
  resolve_symlinks := false
  block_devices_as_files := false
  resolved_symlink_deletion_policy := .symlinkOnly
  realistic_permissions := false
  ctime_from_mtime := false
  enable_lock_forwarding := false
  enable_ioctl := false
  forward_odirect := false
  odirect_alignment := 0
  uid_offset := 0#64
  gid_offset := 0#64

/-- Those of root for a mount at `/m` with `--resolve-symlinks`. -/
def resolvingSettings : Settings :=
  { initialSettings 0 with resolve_symlinks := true, mntdest := ['/', 'm'] }

/-! ## Offsets -/

/-- `UID_T_MAX` and `GID_T_MAX`: the limit of a pessimistically signed 32-bit id. -/
def UID_T_MAX : BitVec 64 := 0x7fffffff#64
def GID_T_MAX : BitVec 64 := 0x7fffffff#64

/-- `bounded_add`: the return value and `*a` afterwards. -/
def boundedAdd (a b max : BitVec 64) : Bool × BitVec 64 :=
  let result := a + b
  if !BitVec.saddOverflow a b && (0#64).sle result && result.sle max then (true, result)
  else (false, a)

/-- The common body of the four offset functions, which widen, add and narrow: the return value
and `*uid` afterwards. -/
def shiftIdInPlace (offset max : BitVec 64) (id : Id) : Bool × Id :=
  let added := boundedAdd (id.setWidth 64) offset max
  if added.1 then (true, added.2.setWidth 32) else (false, id)

def applyUidOffsetInPlace (settings : Settings) (uid : Id) : Bool × Id :=
  shiftIdInPlace settings.uid_offset UID_T_MAX uid

def applyGidOffsetInPlace (settings : Settings) (gid : Id) : Bool × Id :=
  shiftIdInPlace settings.gid_offset GID_T_MAX gid

/-- The negation wraps at INT64_MIN, as the machine's does. -/
def unapplyUidOffsetInPlace (settings : Settings) (uid : Id) : Bool × Id :=
  shiftIdInPlace (-settings.uid_offset) UID_T_MAX uid

def unapplyGidOffsetInPlace (settings : Settings) (gid : Id) : Bool × Id :=
  shiftIdInPlace (-settings.gid_offset) GID_T_MAX gid

/-- What the callers make of the answer: they go on with the new id, or give up. -/
def shiftId (offset max : BitVec 64) (id : Id) : Option Id :=
  let shifted := shiftIdInPlace offset max id
  if shifted.1 then some shifted.2 else none

def applyUidOffset (settings : Settings) (uid : Id) : Option Id :=
  shiftId settings.uid_offset UID_T_MAX uid

def applyGidOffset (settings : Settings) (gid : Id) : Option Id :=
  shiftId settings.gid_offset GID_T_MAX gid

def unapplyUidOffset (settings : Settings) (uid : Id) : Option Id :=
  shiftId (-settings.uid_offset) UID_T_MAX uid

def unapplyGidOffset (settings : Settings) (gid : Id) : Option Id :=
  shiftId (-settings.gid_offset) GID_T_MAX gid

theorem shiftIdInPlace_true_iff (offset max : BitVec 64) (id out : Id) :
    shiftIdInPlace offset max id = (true, out) ↔ shiftId offset max id = some out := by
  unfold shiftId
  cases shiftIdInPlace offset max id with
  | mk returned value => cases returned <;> simp

theorem unchanged_of_failed {offset max : BitVec 64} {id : Id}
    (failed : (shiftIdInPlace offset max id).1 = false) : (shiftIdInPlace offset max id).2 = id := by
  unfold shiftIdInPlace at failed ⊢
  dsimp only at failed ⊢
  split at failed <;> simp_all

theorem failed_of_overflow {offset : BitVec 64} (max : BitVec 64) {id : Id}
    (overflow : BitVec.saddOverflow (id.setWidth 64) offset = true) :
    (shiftIdInPlace offset max id).1 = false := by
  simp [shiftIdInPlace, boundedAdd, overflow]

theorem toInt_setWidth_id (id : Id) : (id.setWidth 64).toInt = id.toNat := by
  have bound : id.toNat < 2 ^ 32 := id.isLt
  have widened : (id.setWidth 64).toNat = id.toNat := by
    rw [BitVec.toNat_setWidth, Nat.mod_eq_of_lt (by omega)]
  rw [BitVec.toInt_eq_toNat_of_lt (by omega), widened]

theorem boundedAdd_iff (a b result : BitVec 64) :
    boundedAdd a b UID_T_MAX = (true, result) ↔
      result.toInt = a.toInt + b.toInt ∧ 0 ≤ result.toInt ∧ result.toInt ≤ 2 ^ 31 - 1 := by
  have limit : UID_T_MAX.toInt = 2 ^ 31 - 1 := by decide
  have zero : (0#64).toInt = 0 := by decide
  unfold boundedAdd
  simp only [BitVec.sle_eq_decide, limit, zero]
  by_cases overflow : BitVec.saddOverflow a b = true
  · simp only [overflow, Bool.not_true, Bool.false_and, Bool.false_eq_true, if_false, Prod.mk.injEq,
      false_and, false_iff]
    intro inside
    simp only [BitVec.saddOverflow, Bool.or_eq_true, decide_eq_true_eq] at overflow
    omega
  · have exact_sum : (a + b).toInt = a.toInt + b.toInt :=
      BitVec.toInt_add_of_not_saddOverflow overflow
    simp only [overflow, Bool.not_false, Bool.true_and, Bool.and_eq_true, decide_eq_true_eq]
    constructor
    · intro returned
      split at returned
      · cases returned
        rename_i inside
        exact ⟨exact_sum, inside⟩
      · cases returned
    · rintro ⟨sum, low, high⟩
      have same : a + b = result := BitVec.eq_of_toInt_eq (by rw [exact_sum, sum])
      rw [same, if_pos ⟨low, high⟩]

theorem shiftIdInPlace_eq_of_boundedAdd {offset max : BitVec 64} {id out : Id} :
    shiftIdInPlace offset max id = (true, out) ↔
      ∃ value, boundedAdd (id.setWidth 64) offset max = (true, value) ∧ value.setWidth 32 = out := by
  unfold shiftIdInPlace
  dsimp only
  cases boundedAdd (id.setWidth 64) offset max with
  | mk returned value => cases returned <;> simp

/-- An id moves by the offset when the result lies in the signed range, and not otherwise. -/
theorem shiftId_iff (offset : BitVec 64) (id out : Id) :
    shiftId offset UID_T_MAX id = some out ↔
      (out.toNat : Int) = id.toNat + offset.toInt ∧ out.toNat ≤ 2 ^ 31 - 1 := by
  rw [← shiftIdInPlace_true_iff, shiftIdInPlace_eq_of_boundedAdd]
  constructor
  · rintro ⟨value, added, rfl⟩
    obtain ⟨sum, low, high⟩ := (boundedAdd_iff _ _ _).mp added
    rw [toInt_setWidth_id] at sum
    have narrow : ((value.setWidth 32).toNat : Int) = value.toInt := by
      have width := value.isLt
      rw [BitVec.toNat_setWidth]
      rw [BitVec.toInt_eq_toNat_cond] at low high ⊢
      split at low <;> simp_all <;> omega
    exact ⟨by rw [narrow, sum], by omega⟩
  · rintro ⟨sum, high⟩
    have widened := toInt_setWidth_id out
    refine ⟨out.setWidth 64, (boundedAdd_iff _ _ _).mpr ⟨?_, ?_, ?_⟩, ?_⟩
    · rw [widened, toInt_setWidth_id, sum]
    · omega
    · omega
    · apply BitVec.eq_of_toNat_eq
      simp

/-- Undoing an offset subtracts it; at INT64_MIN both readings fail. -/
theorem shiftId_neg_iff (offset : BitVec 64) (id out : Id) :
    shiftId (-offset) UID_T_MAX id = some out ↔
      (out.toNat : Int) = id.toNat - offset.toInt ∧ out.toNat ≤ 2 ^ 31 - 1 := by
  rw [shiftId_iff]
  by_cases extreme : offset = BitVec.intMin 64
  · have value : (BitVec.intMin 64).toInt = -2 ^ 63 := by decide
    have negated : -BitVec.intMin 64 = BitVec.intMin 64 := by decide
    rw [extreme, negated, value]
    have bound := id.isLt
    constructor <;> intro impossible <;> omega
  · have negated : (-offset).toInt = -offset.toInt := BitVec.toInt_neg_of_ne_intMin extreme
    rw [negated, Int.sub_eq_add_neg]

/-- A shifted id is never the one that stands for no change. -/
theorem ne_noId_of_shiftId {offset : BitVec 64} {id x : Id}
    (shifted : shiftId offset UID_T_MAX id = some x) : x ≠ noId := by
  rintro rfl
  exact absurd ((shiftId_iff _ _ _).mp shifted).2 (by decide)

/-- The value is an id that bindfs accepts, within the limit of a signed `uid_t`. -/
def FitsId (value : Int) : Prop := 0 ≤ value ∧ value ≤ 2 ^ 31 - 1

instance (value : Int) : Decidable (FitsId value) := inferInstanceAs (Decidable (_ ∧ _))

theorem fitsId_toNat (id : Id) : FitsId id.toNat ↔ id.toNat ≤ 2 ^ 31 - 1 := by
  unfold FitsId
  omega

theorem none_iff_of_value {shifted : Option Id} {value : Int}
    (spec : ∀ out : Id, shifted = some out ↔ (out.toNat : Int) = value ∧ out.toNat ≤ 2 ^ 31 - 1) :
    shifted = none ↔ ¬ FitsId value := by
  unfold FitsId
  constructor
  · intro fails inside
    have narrow : (BitVec.ofNat 32 value.toNat).toNat = value.toNat := by
      rw [BitVec.toNat_ofNat, Nat.mod_eq_of_lt (by omega)]
    have found := (spec (BitVec.ofNat 32 value.toNat)).mpr ⟨by omega, by omega⟩
    rw [fails] at found
    cases found
  · intro outside
    cases shifted with
    | none => rfl
    | some out =>
      have inside := (spec out).mp rfl
      exact absurd ⟨by omega, by omega⟩ outside

theorem shiftId_none_iff (offset : BitVec 64) (id : Id) :
    shiftId offset UID_T_MAX id = none ↔ ¬ FitsId (id.toNat + offset.toInt) :=
  none_iff_of_value (shiftId_iff offset id)

theorem shiftId_neg_none_iff (offset : BitVec 64) (id : Id) :
    shiftId (-offset) UID_T_MAX id = none ↔ ¬ FitsId (id.toNat - offset.toInt) :=
  none_iff_of_value (shiftId_neg_iff offset id)

end Bindfs.Source
