import Bindfs.Source.MapInvariant

/-!
# The forward and the reverse user map

The maps are filled by five parser calls in two orientations. They are inverse to each
other, and no key repeats, exactly when no id is paired with (uid_t)-1 and with a further
id on the same side (`maps_inverse_iff`). The in-band default -1 makes a key whose entry
is -1 look absent: `--map=1000/4294967295:1000/1001` enters 1000 twice
(`map_1000_twice_not_inverse`).
-/
namespace Bindfs.Guarantees.UserMaps
open Bindfs.Source Bindfs.Lib.InverseTables

/-- Looking `a` up in usermap yields `b` if and only if looking `b` up in usermap_reverse
yields `a`, for uids and gids, and no key occurs twice in any of the four tables. -/
structure MutuallyInverse (maps : MapPair) : Prop where
  uids : ∀ a b, a ≠ b →
    (usermapGetUidOrDefault maps.map a a = b ↔ usermapGetUidOrDefault maps.reverseMap b b = a)
  gids : ∀ a b, a ≠ b →
    (usermapGetGidOrDefault maps.map a a = b ↔ usermapGetGidOrDefault maps.reverseMap b b = a)
  keys_nodup : ∀ kind, (keys (maps.map.table kind)).Nodup ∧
    (keys (maps.reverseMap.table kind)).Nodup

theorem mutuallyInverse_iff (maps : MapPair) :
    MutuallyInverse maps ↔
      ∀ kind, Inverse (maps.map.table kind) (maps.reverseMap.table kind) := by
  constructor
  · intro inverse kind
    have distinct := inverse.keys_nodup kind
    cases kind with
    | uid => exact ⟨inverse.uids, distinct.1, distinct.2⟩
    | gid => exact ⟨inverse.gids, distinct.1, distinct.2⟩
  · intro inverse
    exact ⟨(inverse .uid).lookups, (inverse .gid).lookups,
      fun kind => ⟨(inverse kind).keys_nodup, (inverse kind).partner_keys_nodup⟩⟩

/-- Some id `a` stands on the left of -1 and of a further id `c` among the pairs. -/
def PairedWithMinusOne (kind : IdKind) (pairs : List ReadPair) : Prop :=
  ∃ a c, a ≠ noId ∧ c ≠ noId ∧ c ≠ a ∧ (kind, a, noId) ∈ pairs ∧ (kind, a, c) ∈ pairs

theorem clash_entries_iff (kind : IdKind) (pairs : List ReadPair) :
    Clash noId (entries kind pairs) ↔ PairedWithMinusOne kind pairs := by
  constructor
  · rintro ⟨a, c, other, first, second⟩
    obtain ⟨left, first⟩ := mem_entries.mp first
    obtain ⟨different, second⟩ := mem_entries.mp second
    exact ⟨a, c, left, other, different.symm, first, second⟩
  · rintro ⟨a, c, left, other, different, first, second⟩
    exact ⟨a, c, other, mem_entries.mpr ⟨left, first⟩, mem_entries.mpr ⟨different.symm, second⟩⟩

/-- After any sequence of accepted parser calls the maps are mutually inverse if and only
if no uid or gid is paired with -1 and with a further id on the same side. -/
theorem maps_inverse_iff (db : UserDb) (calls : List MapCall) (maps : MapPair)
    (accepted : runMapCalls db calls = some maps) :
    MutuallyInverse maps ↔
      ∀ kind, ¬ PairedWithMinusOne kind (calls.flatMap (MapCall.pairs db)) ∧
        ¬ PairedWithMinusOne kind ((calls.flatMap (MapCall.pairs db)).map turned) := by
  obtain ⟨paired, tables⟩ := runMapCalls_tables db calls accepted
  rw [mutuallyInverse_iff]
  apply forall_congr'
  intro kind
  have built := paired.built kind
  rw [paired.partner kind, inverse_iff_no_clash built, tables kind, ← entries_turned,
    clash_entries_iff, clash_entries_iff]

/-- `--map=1000/1001:@5/@6` keeps the maps inverse. -/
theorem maps_inverse_iff_of_two_pairs :
    runMapCalls numericUsers [.userMap false
        ['1', '0', '0', '0', '/', '1', '0', '0', '1', ':', '@', '5', '/', '@', '6']] =
      some ⟨⟨[(1000, 1001)], [(5, 6)]⟩, ⟨[(1001, 1000)], [(6, 5)]⟩⟩ ∧
    (MutuallyInverse ⟨⟨[(1000, 1001)], [(5, 6)]⟩, ⟨[(1001, 1000)], [(6, 5)]⟩⟩ ↔
      ∀ kind, ¬ PairedWithMinusOne kind ([.userMap false
          ['1', '0', '0', '0', '/', '1', '0', '0', '1', ':', '@', '5', '/', '@', '6']].flatMap
            (MapCall.pairs numericUsers)) ∧
        ¬ PairedWithMinusOne kind (([.userMap false
          ['1', '0', '0', '0', '/', '1', '0', '0', '1', ':', '@', '5', '/', '@', '6']].flatMap
            (MapCall.pairs numericUsers)).map turned)) :=
  ⟨by decide +kernel, maps_inverse_iff numericUsers _ _ (by decide +kernel)⟩

/-- `--map=1000/4294967295:1000/1001` is accepted although 1000 stands twice on the left: the
forward map sends 1000 to -1, the reverse map still sends 1001 to 1000. -/
theorem map_1000_twice_not_inverse :
    ¬ ∀ (db : UserDb) (calls : List MapCall) (maps : MapPair),
      runMapCalls db calls = some maps → MutuallyInverse maps := by
  intro always
  have inverse := always numericUsers
    [.userMap false ['1', '0', '0', '0', '/', '4', '2', '9', '4', '9', '6', '7', '2', '9', '5', ':',
      '1', '0', '0', '0', '/', '1', '0', '0', '1']]
    ⟨⟨[(1000, noId), (1000, 1001)], []⟩, ⟨[(noId, 1000), (1001, 1000)], []⟩⟩ (by decide +kernel)
  have lookups := (inverse.uids 1000 1001 (by decide)).mpr (by decide)
  exact absurd lookups (by decide)

end Bindfs.Guarantees.UserMaps
