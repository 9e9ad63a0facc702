import Bindfs.Source.Settings

/-!
# Offsets applied and undone

The four offset functions work on `*uid` and `*gid` in place. They add in 64 bits and refuse a
result above 2^31-1, the limit of the signed ids that bindfs assumes; what they are given is not
limited. So applying and undoing an offset are inverse to each other between ids within that
limit (`offsets_inverse_within_limit`), and an id above it may be displayed without being one
that can be chowned to.
-/
namespace Bindfs.Guarantees.Offsets
open Bindfs.Source

/-! ## The law -/

/-- An id is turned into another by one function exactly when the other turns it back. -/
def Inverse (apply unapply : Id → Bool × Id) (u v : Id) : Prop :=
  apply u = (true, v) ↔ unapply v = (true, u)

/-- What applying and undoing an offset do. -/
structure OffsetLaws (offset : BitVec 64) (apply unapply : Id → Bool × Id) : Prop where
  applied_iff : ∀ u v, apply u = (true, v) ↔ (v.toNat : Int) = u.toNat + offset.toInt ∧ FitsId v.toNat
  unapplied_iff : ∀ u v, unapply v = (true, u) ↔
    (u.toNat : Int) = v.toNat - offset.toInt ∧ FitsId u.toNat
  inverse : ∀ u v, (FitsId u.toNat ↔ FitsId v.toNat) → Inverse apply unapply u v
  displayed : ∀ u v, FitsId u.toNat → apply u = (true, v) → unapply v = (true, u)
  failed_applying : ∀ u, (apply u).1 = false → (apply u).2 = u
  failed_unapplying : ∀ v, (unapply v).1 = false → (unapply v).2 = v
  /-- The negated offset is the negative of the offset. -/
  negation : (-offset).toInt = -offset.toInt
  /-- A sum outside of `int64_t` makes the functions fail. -/
  addition : ∀ id, (BitVec.saddOverflow (id.setWidth 64) offset = true → (apply id).1 = false) ∧
    (BitVec.saddOverflow (id.setWidth 64) (-offset) = true → (unapply id).1 = false)

theorem offsetLaws_of_negatable {offset : BitVec 64} (negatable : offset ≠ BitVec.intMin 64) :
    OffsetLaws offset (shiftIdInPlace offset UID_T_MAX) (shiftIdInPlace (-offset) UID_T_MAX) := by
  have applied : ∀ u v, shiftIdInPlace offset UID_T_MAX u = (true, v) ↔
      (v.toNat : Int) = u.toNat + offset.toInt ∧ FitsId v.toNat := by
    intro u v
    rw [shiftIdInPlace_true_iff, fitsId_toNat]
    exact shiftId_iff offset u v
  have unapplied : ∀ u v, shiftIdInPlace (-offset) UID_T_MAX v = (true, u) ↔
      (u.toNat : Int) = v.toNat - offset.toInt ∧ FitsId u.toNat := by
    intro u v
    rw [shiftIdInPlace_true_iff, fitsId_toNat]
    exact shiftId_neg_iff offset v u
  have back : ∀ u v, FitsId u.toNat → shiftIdInPlace offset UID_T_MAX u = (true, v) →
      shiftIdInPlace (-offset) UID_T_MAX v = (true, u) := by
    intro u v within shown
    obtain ⟨sum, -⟩ := (applied u v).mp shown
    exact (unapplied u v).mpr ⟨by omega, within⟩
  refine ⟨applied, unapplied, ?_, back, fun _ => unchanged_of_failed, fun _ => unchanged_of_failed,
    BitVec.toInt_neg_of_ne_intMin negatable,
    fun id => ⟨failed_of_overflow UID_T_MAX, failed_of_overflow UID_T_MAX⟩⟩
  intro u v alike
  unfold Inverse
  rw [applied, unapplied]
  constructor
  · rintro ⟨sum, within⟩
    exact ⟨by omega, alike.mpr within⟩
  · rintro ⟨difference, within⟩
    exact ⟨by omega, alike.mp within⟩

/-- For every pair of offsets but the most negative one, whose negation leaves `int64_t`. -/
theorem offsets_inverse_within_limit (settings : Settings)
    (uidOffset : settings.uid_offset ≠ BitVec.intMin 64)
    (gidOffset : settings.gid_offset ≠ BitVec.intMin 64) :
    OffsetLaws settings.uid_offset (applyUidOffsetInPlace settings) (unapplyUidOffsetInPlace settings) ∧
      OffsetLaws settings.gid_offset (applyGidOffsetInPlace settings)
        (unapplyGidOffsetInPlace settings) :=
  ⟨offsetLaws_of_negatable uidOffset, offsetLaws_of_negatable gidOffset⟩

/-- Owners are shown 10 lower, groups 10 higher. -/
def lowerUserSettings : Settings :=
  { initialSettings 0#32 with uid_offset := -10#64, gid_offset := 10#64 }

theorem offsets_inverse_of_lower_users :
    lowerUserSettings.uid_offset ≠ BitVec.intMin 64 ∧
    lowerUserSettings.gid_offset ≠ BitVec.intMin 64 ∧
    OffsetLaws (-10#64) (applyUidOffsetInPlace lowerUserSettings)
      (unapplyUidOffsetInPlace lowerUserSettings) ∧
    OffsetLaws 10#64 (applyGidOffsetInPlace lowerUserSettings)
      (unapplyGidOffsetInPlace lowerUserSettings) :=
  ⟨by decide, by decide, offsets_inverse_within_limit lowerUserSettings (by decide) (by decide)⟩

/-- A file of user 2^31 is shown as owned by 2^31-10, which nobody can chown it to. -/
theorem displayed_id_above_limit_not_undone :
    applyUidOffsetInPlace lowerUserSettings 0x80000000#32 = (true, 0x7ffffff6#32) ∧
    unapplyUidOffsetInPlace lowerUserSettings 0x7ffffff6#32 = (false, 0x7ffffff6#32) ∧
    ¬ Inverse (applyUidOffsetInPlace lowerUserSettings) (unapplyUidOffsetInPlace lowerUserSettings)
      0x80000000#32 0x7ffffff6#32 := by
  have shown : applyUidOffsetInPlace lowerUserSettings 0x80000000#32 = (true, 0x7ffffff6#32) := by
    decide
  have refused : unapplyUidOffsetInPlace lowerUserSettings 0x7ffffff6#32 = (false, 0x7ffffff6#32) := by
    decide
  refine ⟨shown, refused, fun inverse => ?_⟩
  have undone := inverse.mp shown
  rw [refused] at undone
  cases undone

end Bindfs.Guarantees.Offsets
