import Mathlib.Data.List.Nodup
import Bindfs.Source.UserCacheQueries

/-!
# Group membership

`user_belongs_to_group` answers from the cache. Whatever the cache held before, a positive
answer after a rebuild is backed by the enumerated users and groups
(`membership_answers_sound`), even if sorting only permutes and searching only returns matches.

The converse fails. Each lookup yields one entry, while several entries may share a uid or a
gid, and which of them `bsearch` returns is open. `membership_complete_iff` says for which
databases and ids a member is always recognised.
-/
namespace Bindfs.Guarantees.GroupMembership
open Bindfs.Source Bindfs.Lib.SortSearch

/-! ## Databases and caches -/

/-- The user's main group, or a group that lists a name of the user. -/
def Member (users : List PasswdEntry) (groups : List GroupEntry) (uid gid : Id) : Prop :=
  (∃ pw ∈ users, pw.pw_uid = uid ∧ pw.pw_gid = gid) ∨
    ∃ gr ∈ groups, gr.gr_gid = gid ∧
      ∃ name ∈ gr.gr_mem, ∃ pw ∈ users, pw.pw_name = name ∧ pw.pw_uid = uid

instance (users : List PasswdEntry) (groups : List GroupEntry) (uid gid : Id) :
    Decidable (Member users groups uid gid) :=
  inferInstanceAs (Decidable (_ ∨ _))

/-- The group lists a name of the user. -/
def Lists (users : List PasswdEntry) (gr : GroupEntry) (uid : Id) : Prop :=
  ∃ name ∈ gr.gr_mem, ∃ pw ∈ users, pw.pw_name = name ∧ pw.pw_uid = uid

instance (users : List PasswdEntry) (gr : GroupEntry) (uid : Id) : Decidable (Lists users gr uid) :=
  inferInstanceAs (Decidable (∃ name ∈ gr.gr_mem, ∃ pw ∈ users, pw.pw_name = name ∧ pw.pw_uid = uid))

/-- The caches that any number of rebuilds leads to, from any databases, failed enumerations
included. -/
inductive CacheReachable (lib : CacheSorters) : UserCache → Prop
  | initial : CacheReachable lib emptyUserCache
  | rebuilt {cache cache' : UserCache} (passwd : Enumeration PasswdEntry) (group : Enumeration GroupEntry) :
      CacheReachable lib cache → rebuildUserCache lib cache passwd group = some cache' →
        CacheReachable lib cache'

theorem CacheReachable.grown {lib : CacheSorters} (sane : lib.Sane) {cache : UserCache}
    (reached : CacheReachable lib cache) : cache.Grown := by
  induction reached with
  | initial => exact ⟨Or.inl rfl, Or.inl rfl⟩
  | rebuilt passwd group _ ran grown => exact (rebuildUserCache_spec lib passwd group sane grown ran).grown

/-- The members of a group whose name is that of a user. -/
def namedMembers (users : List PasswdEntry) (gr : GroupEntry) : Nat :=
  gr.gr_mem.countP fun name => users.any fun pw => pw.pw_name = name

/-- The bytes that the names and the uids of the members take in the cache. -/
def databaseBytes (users : List PasswdEntry) (groups : List GroupEntry) : Nat :=
  (nameBytes users).length + 4 * (groups.map (namedMembers users)).sum

/-! ## Sorting and searching -/

theorem conforms_choosingSorters (user : UidCacheEntry → Bool) (group : GidCacheEntry → Bool) :
    (choosingSorters user group).Conforms :=
  ⟨Sorter.conforms_preferring _, Sorter.conforms_preferring _, Sorter.conforms_preferring _⟩

/-! ## Members found by their name -/

section
variable {lib : CacheSorters} {passwd : Enumeration PasswdEntry} {group : Enumeration GroupEntry}

theorem name_of_strcmp {name : UserName} {entry : NamedEntry} {pw : PasswdEntry}
    (stands : StandsFor entry pw) (equal : strcmp name.bytes entry.2 = 0) : pw.pw_name = name := by
  rw [stands.2.2, strcmp_eq_zero name.nul_free pw.pw_name.nul_free] at equal
  cases name
  cases named : pw.pw_name
  simp_all

theorem user_of_resolveMember (sane : lib.Sane) {name : UserName} {uid : Id}
    (found : resolveMember lib.named (cachedNames lib passwd) name = some uid) :
    ∃ pw ∈ passwd.kept, pw.pw_name = name ∧ pw.pw_uid = uid := by
  obtain ⟨entry, search, rfl⟩ := Option.map_eq_some_iff.mp found
  obtain ⟨member, equal⟩ := sane.named.bsearch_found _ _ _ search
  obtain ⟨pw, listed, stands⟩ := user_of_cell ((sane.named.qsort_perm _ _).mem_iff.mp member)
  exact ⟨pw, listed, name_of_strcmp stands equal, stands.1.symm⟩

theorem length_memberUids_le (sane : lib.Sane) (gr : GroupEntry) :
    (memberUids lib.named (cachedNames lib passwd) gr).length ≤ namedMembers passwd.entries gr := by
  unfold memberUids namedMembers
  rw [List.length_filterMap_eq_countP]
  apply List.countP_mono_left
  intro name _ resolved
  obtain ⟨uid, found⟩ := Option.isSome_iff_exists.mp resolved
  obtain ⟨pw, kept, named, -⟩ := user_of_resolveMember sane found
  rw [List.any_eq_true]
  exact ⟨pw, Enumeration.mem_of_mem_kept kept, by simpa using named⟩

theorem lists_of_memberUids (sane : lib.Sane) {gr : GroupEntry} {uid : Id}
    (listed : uid ∈ memberUids lib.named (cachedNames lib passwd) gr) : Lists passwd.kept gr uid := by
  rw [memberUids, List.mem_filterMap] at listed
  obtain ⟨name, inGroup, resolved⟩ := listed
  exact ⟨name, inGroup, user_of_resolveMember sane resolved⟩

/-! ## Soundness -/

theorem member_of_foundMember (sane : lib.Sane) {cache : UserCache} (rebuilt : Rebuilt lib passwd group cache)
    {uid gid : Id} (found : FoundMember lib passwd group cache uid gid) :
    Member passwd.entries group.entries uid gid := by
  rcases found with ⟨uent, lookup, main⟩ | ⟨cell, stored, lookup, listed⟩
  · obtain ⟨key, name, cached⟩ := cell_of_uidCacheLookup sane rebuilt lookup
    obtain ⟨pw, kept, stands⟩ := user_of_cell cached
    exact Or.inl ⟨pw, Enumeration.mem_of_mem_kept kept, stands.1.symm.trans key, stands.2.1.symm.trans main⟩
  · obtain ⟨key, -⟩ := cell_of_gidCacheLookup sane rebuilt lookup
    obtain ⟨gr, kept, same, uids⟩ := group_of_cell lib.named _ stored
    rw [uids] at listed
    obtain ⟨name, inGroup, pw, user, named, equal⟩ := lists_of_memberUids sane listed
    exact Or.inr ⟨gr, Enumeration.mem_of_mem_kept kept, same.symm.trans key, name, inGroup, pw,
      Enumeration.mem_of_mem_kept user, named, equal⟩

end

theorem namesFit_of_total {offset : Nat} {users : List PasswdEntry}
    (small : offset + (nameBytes users).length ≤ INT_MAX) : NamesFit offset users := by
  induction users generalizing offset with
  | nil => trivial
  | cons pw rest ih =>
    have length : (nameBytes (pw :: rest)).length =
        pw.pw_name.bytes.length + 1 + (nameBytes rest).length := by
      rw [nameBytes, List.flatMap_cons, List.length_append, List.length_append, List.length_singleton,
        ← nameBytes]
    exact ⟨by omega, by omega, ih (by omega)⟩

theorem groupsFit_of_total {count : GroupEntry → Nat} {offset : Nat} {groups : List GroupEntry}
    (small : offset + 4 * (groups.map count).sum ≤ INT_MAX)
    (members : ∀ gr ∈ groups, gr.gr_mem.length ≤ INT_MAX) : GroupsFit count offset groups := by
  induction groups generalizing offset with
  | nil => trivial
  | cons gr rest ih =>
    rw [List.map_cons, List.sum_cons] at small
    exact ⟨by omega, members gr (by simp), ih (by omega) fun other member => members other (by simp [member])⟩

/-- For every database whose names and member uids take fewer than 2^31 bytes, after any earlier
rebuilds and however the enumerations end: every positive answer is backed by the database, and
as long as the counts of entries and members fit, the rebuild ends and every query is answered. -/
theorem membership_answers_sound (lib : CacheSorters) (sane : lib.Sane) {cache : UserCache}
    (reached : CacheReachable lib cache) (passwd : Enumeration PasswdEntry) (group : Enumeration GroupEntry)
    (small : databaseBytes passwd.entries group.entries < 2 ^ 31) :
    (∀ cache', rebuildUserCache lib cache passwd group = some cache' →
      ∀ uid gid, queryUserCache lib cache' uid gid = some true →
        Member passwd.entries group.entries uid gid) ∧
      (passwd.entries.length ≤ 2 ^ 27 → group.entries.length ≤ 2 ^ 27 →
        (∀ gr ∈ group.entries, gr.gr_mem.length ≤ INT_MAX) →
          ∃ cache', rebuildUserCache lib cache passwd group = some cache' ∧
            ∀ uid gid, ∃ answer, queryUserCache lib cache' uid gid = some answer) := by
  have grown := reached.grown sane
  constructor
  · intro cache' ran uid gid positive
    have rebuilt := rebuildUserCache_spec lib passwd group sane grown ran
    obtain ⟨answer, answered, meaning⟩ := queryUserCache_answers sane rebuilt uid gid
    obtain rfl := Option.some.inj (positive.symm.trans answered)
    exact member_of_foundMember sane rebuilt (meaning.mp rfl)
  · intro users groups members
    have limit : INT_MAX = 2 ^ 31 - 1 := rfl
    unfold databaseBytes at small
    have fits : RebuildFits lib passwd group :=
      { users := users
        names := namesFit_of_total (by omega)
        groups := groups
        members := (groupsFit_of_total (by omega) members).mono (Nat.le_refl _)
          fun gr _ => length_memberUids_le sane gr }
    obtain ⟨cache', ran, rebuilt⟩ := rebuildUserCache_total lib passwd group sane grown fits
    refine ⟨cache', ran, fun uid gid => ?_⟩
    obtain ⟨answer, answered, -⟩ := queryUserCache_answers sane rebuilt uid gid
    exact ⟨answer, answered⟩

theorem firstSorters_sane : firstSorters.Sane := (conforms_choosingSorters _ _).sane

set_option maxRecDepth 20000 in
/-- A group is added to the database of an earlier rebuild. The second rebuild ends, user `b` is
taken for a member of it, and only members of the database are. -/
theorem membership_answers_sound_of_two_users :
    ∃ cache cache', rebuildUserCache firstSorters emptyUserCache sampleUsers ⟨[], .enoent⟩ = some cache ∧
      rebuildUserCache firstSorters cache sampleUsers sampleGroups = some cache' ∧
      queryUserCache firstSorters cache 1001#32 200#32 = some false ∧
      queryUserCache firstSorters cache' 1001#32 200#32 = some true ∧
      ∀ uid gid, queryUserCache firstSorters cache' uid gid = some true →
        Member sampleUsers.entries sampleGroups.entries uid gid := by
  have earlier : ∃ cache, rebuildUserCache firstSorters emptyUserCache sampleUsers ⟨[], .enoent⟩ = some cache ∧
      queryUserCache firstSorters cache 1001#32 200#32 = some false ∧
      ∃ cache', rebuildUserCache firstSorters cache sampleUsers sampleGroups = some cache' ∧
        queryUserCache firstSorters cache' 1001#32 200#32 = some true := ⟨_, rfl, rfl, _, rfl, rfl⟩
  obtain ⟨cache, ran, unlisted, cache', ran', listed⟩ := earlier
  obtain ⟨sound, -⟩ := membership_answers_sound firstSorters firstSorters_sane (.rebuilt _ _ .initial ran)
    sampleUsers sampleGroups (by decide)
  exact ⟨cache, cache', ran, ran', unlisted, listed, sound cache' ran'⟩

/-! ## Completeness -/

/-- After any earlier rebuilds, a rebuild from this database without an error ends, and the
query then returns 1. -/
def Recognised (users : List PasswdEntry) (groups : List GroupEntry) (uid gid : Id) : Prop :=
  ∀ lib, lib.Conforms → ∀ cache, CacheReachable lib cache →
    ∀ ending ending', ending ≠ .failed → ending' ≠ .failed →
      ∃ cache', rebuildUserCache lib cache ⟨users, ending⟩ ⟨groups, ending'⟩ = some cache' ∧
        queryUserCache lib cache' uid gid = some true

/-- Numbers of entries, offsets, lengths and numbers of members fit an `int`. -/
structure DatabaseFits (users : List PasswdEntry) (groups : List GroupEntry) : Prop where
  userCount : users.length ≤ 2 ^ 27
  names : NamesFit 0 users
  groupCount : groups.length ≤ 2 ^ 27
  members : GroupsFit (namedMembers users) (nameBytes users).length groups

/-- All ids of the database lie below 2^31. -/
structure SmallIds (users : List PasswdEntry) (groups : List GroupEntry) : Prop where
  uids : ∀ pw ∈ users, pw.pw_uid.toNat < 2 ^ 31
  mainGids : ∀ pw ∈ users, pw.pw_gid.toNat < 2 ^ 31
  gids : ∀ gr ∈ groups, gr.gr_gid.toNat < 2 ^ 31

/-- All entries of the user have the gid as their main group, or there are entries of the group
and all of them list the user. -/
def Unambiguous (users : List PasswdEntry) (groups : List GroupEntry) (uid gid : Id) : Prop :=
  (∀ pw ∈ users, pw.pw_uid = uid → pw.pw_gid = gid) ∨
    ((∃ gr ∈ groups, gr.gr_gid = gid) ∧ ∀ gr ∈ groups, gr.gr_gid = gid → Lists users gr uid)

instance (users : List PasswdEntry) (groups : List GroupEntry) (uid gid : Id) :
    Decidable (Unambiguous users groups uid gid) :=
  inferInstanceAs (Decidable (_ ∨ _))

section
variable {lib : CacheSorters} {users : List PasswdEntry} {groups : List GroupEntry}

theorem kept_of_end {α : Type} {entries : List α} {ending : EnumerationEnd} (finished : ending ≠ .failed) :
    (⟨entries, ending⟩ : Enumeration α).kept = entries := by
  cases ending with
  | endOfList => rfl
  | enoent => rfl
  | failed => exact absurd rfl finished

/-- Among distinct names, the search for a name finds its user. -/
theorem resolveMember_of_user (conforms : lib.Conforms) {passwd : Enumeration PasswdEntry}
    (distinct : (passwd.kept.map PasswdEntry.pw_name).Nodup) {pw : PasswdEntry} (member : pw ∈ passwd.kept) :
    resolveMember lib.named (cachedNames lib passwd) pw.pw_name = some pw.pw_uid := by
  have sane := conforms.sane
  have free : ∀ entry ∈ userCells 0 passwd.kept, 0#8 ∉ entry.2 := by
    intro entry stored
    obtain ⟨other, -, stands⟩ := user_of_cell stored
    rw [stands.2.2]
    exact other.pw_name.nul_free
  have sorted := conforms.named.sorted_by_key orders_strcmp Prod.snd free
  obtain ⟨entry, stored, stands⟩ := cell_of_user 0 member
  have present : entry ∈ cachedNames lib passwd := (sane.named.qsort_perm _ _).mem_iff.mpr stored
  obtain ⟨found, search⟩ := conforms.named.finds_by_key orders_strcmp Prod.snd
    (fun entry stored => free entry ((sane.named.qsort_perm _ _).mem_iff.mp stored)) sorted
    pw.pw_name.nul_free present
    ((strcmp_eq_zero pw.pw_name.nul_free (free entry stored)).mpr stands.2.2.symm)
  have resolved : resolveMember lib.named (cachedNames lib passwd) pw.pw_name = some found.1.uid :=
    Option.map_eq_some_iff.mpr ⟨found, search, rfl⟩
  obtain ⟨other, listed, named, uid⟩ := user_of_resolveMember sane resolved
  rw [resolved, ← uid, List.inj_on_of_nodup_map distinct listed member named]

theorem namedMembers_le (conforms : lib.Conforms) (passwd : Enumeration PasswdEntry)
    (distinct : (passwd.kept.map PasswdEntry.pw_name).Nodup) (gr : GroupEntry) :
    namedMembers passwd.kept gr ≤ (memberUids lib.named (cachedNames lib passwd) gr).length := by
  unfold memberUids namedMembers
  rw [List.length_filterMap_eq_countP]
  apply List.countP_mono_left
  intro name _ named
  obtain ⟨pw, listed, same⟩ := List.any_eq_true.mp named
  obtain rfl : pw.pw_name = name := by simpa using same
  rw [resolveMember_of_user conforms distinct listed]
  rfl

/-! ### Databases that are recognised -/

theorem uidCacheLookup_of_user (conforms : lib.Conforms) {passwd : Enumeration PasswdEntry}
    {group : Enumeration GroupEntry} {cache : UserCache} (rebuilt : Rebuilt lib passwd group cache)
    (small : ∀ pw ∈ passwd.kept, pw.pw_uid.toNat < 2 ^ 31) {pw : PasswdEntry} (member : pw ∈ passwd.kept) :
    ∃ uent, uidCacheLookup lib cache pw.pw_uid = some uent := by
  have sane := conforms.sane
  have keys : ∀ uent ∈ (cachedNames lib passwd).map Prod.fst, uent.uid.toNat < 2 ^ 31 := by
    intro uent listed
    obtain ⟨entry, stored, rfl⟩ := List.mem_map.mp listed
    obtain ⟨user, kept, stands⟩ := user_of_cell ((sane.named.qsort_perm _ _).mem_iff.mp stored)
    rw [stands.1]
    exact small user kept
  have sorted := conforms.users.sorted_by_key orders_compareIds UidCacheEntry.uid keys
  have permuted := sane.users.qsort_perm uidCacheUidSortcmp ((cachedNames lib passwd).map Prod.fst)
  obtain ⟨entry, stored, stands⟩ := cell_of_user 0 member
  have present : entry.1 ∈ lib.users.qsort uidCacheUidSortcmp ((cachedNames lib passwd).map Prod.fst) :=
    permuted.mem_iff.mpr (List.mem_map_of_mem ((sane.named.qsort_perm _ _).mem_iff.mpr stored))
  rw [uidCacheLookup, rebuilt.users]
  exact conforms.users.finds_by_key orders_compareIds UidCacheEntry.uid
    (fun uent listed => keys uent (permuted.mem_iff.mp listed)) sorted (small pw member) present
    ((compareIds_eq_zero _ _).mpr stands.1.symm)

theorem gidCacheLookup_of_group (conforms : lib.Conforms) {passwd : Enumeration PasswdEntry}
    {group : Enumeration GroupEntry} {cache : UserCache} (rebuilt : Rebuilt lib passwd group cache)
    (small : ∀ gr ∈ group.kept, gr.gr_gid.toNat < 2 ^ 31) {gr : GroupEntry} (member : gr ∈ group.kept) :
    ∃ gent, gidCacheLookup lib cache gr.gr_gid = some gent := by
  have keys : ∀ gent ∈ (cachedGroups lib passwd group).map Prod.fst, gent.gid.toNat < 2 ^ 31 := by
    intro gent listed
    obtain ⟨cell, stored, rfl⟩ := List.mem_map.mp listed
    obtain ⟨other, kept, same, -⟩ := group_of_cell lib.named _ stored
    rw [same]
    exact small other kept
  have sorted := conforms.groups.sorted_by_key orders_compareIds GidCacheEntry.gid keys
  have permuted := conforms.sane.groups.qsort_perm gidCacheGidSortcmp ((cachedGroups lib passwd group).map Prod.fst)
  obtain ⟨cell, stored, same, -⟩ := cell_of_group lib.named (cachedNames lib passwd)
    (nameBytes passwd.entries).length member
  rw [gidCacheLookup, rebuilt.groups]
  exact conforms.groups.finds_by_key orders_compareIds GidCacheEntry.gid
    (fun gent listed => keys gent (permuted.mem_iff.mp listed)) sorted (small gr member)
    (permuted.mem_iff.mpr (List.mem_map_of_mem stored)) ((compareIds_eq_zero _ _).mpr same.symm)

theorem foundMember_of_unambiguous (conforms : lib.Conforms) {passwd : Enumeration PasswdEntry}
    {group : Enumeration GroupEntry} {cache : UserCache} (rebuilt : Rebuilt lib passwd group cache)
    (small : SmallIds passwd.kept group.kept) (distinct : (passwd.kept.map PasswdEntry.pw_name).Nodup)
    {pw : PasswdEntry} (user : pw ∈ passwd.kept) {gid : Id}
    (clear : Unambiguous passwd.kept group.kept pw.pw_uid gid) :
    FoundMember lib passwd group cache pw.pw_uid gid := by
  rcases clear with main | ⟨⟨gr, member, same⟩, listed⟩
  · obtain ⟨uent, found⟩ := uidCacheLookup_of_user conforms rebuilt small.uids user
    obtain ⟨key, name, cached⟩ := cell_of_uidCacheLookup conforms.sane rebuilt found
    obtain ⟨other, kept, stands⟩ := user_of_cell cached
    exact Or.inl ⟨uent, found, stands.2.1.trans (main other kept (stands.1.symm.trans key))⟩
  · obtain ⟨gent, found⟩ := gidCacheLookup_of_group conforms rebuilt small.gids member
    rw [same] at found
    obtain ⟨key, uids, stored⟩ := cell_of_gidCacheLookup conforms.sane rebuilt found
    obtain ⟨other, kept, gids, members⟩ := group_of_cell lib.named _ stored
    obtain ⟨name, inGroup, owner, isUser, named, owned⟩ := listed other kept (gids.symm.trans key)
    refine Or.inr ⟨(gent, uids), stored, found, ?_⟩
    rw [members, memberUids, List.mem_filterMap]
    refine ⟨name, inGroup, ?_⟩
    rw [← named, resolveMember_of_user conforms distinct isUser, owned]

theorem recognised_of_unambiguous (small : SmallIds users groups)
    (distinct : (users.map PasswdEntry.pw_name).Nodup) {uid gid : Id} (user : ∃ pw ∈ users, pw.pw_uid = uid)
    (fits : DatabaseFits users groups) (clear : Unambiguous users groups uid gid) :
    Recognised users groups uid gid := by
  intro lib conforms cache reached ending ending' finished finished'
  have sane := conforms.sane
  have keptUsers : (⟨users, ending⟩ : Enumeration PasswdEntry).kept = users := kept_of_end finished
  have keptGroups : (⟨groups, ending'⟩ : Enumeration GroupEntry).kept = groups := kept_of_end finished'
  have rebuildFits : RebuildFits lib ⟨users, ending⟩ ⟨groups, ending'⟩ :=
    { users := fits.userCount
      names := fits.names
      groups := fits.groupCount
      members := fits.members.mono (Nat.le_refl _) fun gr _ => length_memberUids_le sane gr }
  obtain ⟨cache', ran, rebuilt⟩ := rebuildUserCache_total lib _ _ sane (reached.grown sane) rebuildFits
  obtain ⟨answer, answered, meaning⟩ := queryUserCache_answers sane rebuilt uid gid
  obtain ⟨pw, member, rfl⟩ := user
  have found : FoundMember lib ⟨users, ending⟩ ⟨groups, ending'⟩ cache' pw.pw_uid gid := by
    apply foundMember_of_unambiguous conforms rebuilt
    · rw [keptUsers, keptGroups]
      exact small
    · rw [keptUsers]
      exact distinct
    · rw [keptUsers]
      exact member
    · rw [keptUsers, keptGroups]
      exact clear
  exact ⟨cache', ran, by rw [answered, meaning.mpr found]⟩

/-! ### Databases that are not -/

theorem Recognised.rebuilt {uid gid : Id} (recognised : Recognised users groups uid gid)
    (user : UidCacheEntry → Bool) (group : GidCacheEntry → Bool) :
    ∃ cache, Rebuilt (choosingSorters user group) ⟨users, .endOfList⟩ ⟨groups, .endOfList⟩ cache ∧
      RebuildFits (choosingSorters user group) ⟨users, .endOfList⟩ ⟨groups, .endOfList⟩ ∧
      FoundMember (choosingSorters user group) ⟨users, .endOfList⟩ ⟨groups, .endOfList⟩ cache uid gid := by
  have conforms := conforms_choosingSorters user group
  have sane := conforms.sane
  have grown : emptyUserCache.Grown := CacheReachable.grown sane .initial
  obtain ⟨cache, ran, positive⟩ := recognised _ conforms _ .initial .endOfList .endOfList (by decide) (by decide)
  have rebuilt := rebuildUserCache_spec _ _ _ sane grown ran
  obtain ⟨answer, answered, meaning⟩ := queryUserCache_answers sane rebuilt uid gid
  obtain rfl := Option.some.inj (positive.symm.trans answered)
  exact ⟨cache, rebuilt, rebuildUserCache_fits _ _ _ sane grown ran, meaning.mp rfl⟩

theorem Recognised.fits {uid gid : Id} (recognised : Recognised users groups uid gid)
    (distinct : (users.map PasswdEntry.pw_name).Nodup) : DatabaseFits users groups := by
  obtain ⟨cache, -, fits, -⟩ := recognised.rebuilt (fun _ => false) (fun _ => false)
  exact
    { userCount := fits.users
      names := fits.names
      groupCount := fits.groups
      members := fits.members.mono (Nat.le_refl _)
        fun gr _ => namedMembers_le (conforms_choosingSorters _ _) ⟨users, .endOfList⟩ distinct gr }

theorem uidCacheLookup_choosing {passwd : Enumeration PasswdEntry} {group : Enumeration GroupEntry}
    {cache : UserCache} {user : UidCacheEntry → Bool} {choice : GidCacheEntry → Bool}
    (rebuilt : Rebuilt (choosingSorters user choice) passwd group cache) {pw : PasswdEntry}
    (member : pw ∈ passwd.kept)
    (chosen : ∀ uent : UidCacheEntry, uent.main_gid = pw.pw_gid → user uent = true) {uent : UidCacheEntry}
    (found : uidCacheLookup (choosingSorters user choice) cache pw.pw_uid = some uent) : user uent = true := by
  have sane := (conforms_choosingSorters user choice).sane
  obtain ⟨entry, stored, stands⟩ := cell_of_user 0 member
  have present : entry.1 ∈ cache.uid_cache.live := by
    rw [rebuilt.users, (sane.users.qsort_perm _ _).mem_iff]
    exact List.mem_map_of_mem ((sane.named.qsort_perm _ _).mem_iff.mpr stored)
  have equal : uidCacheUidSearchcmp pw.pw_uid entry.1 = 0 :=
    (compareIds_eq_zero _ _).mpr stands.1.symm
  obtain ⟨other, -, search, -, wanted⟩ :=
    Sorter.bsearch_preferring user present equal (chosen entry.1 stands.2.1)
  obtain rfl := Option.some.inj (found.symm.trans search)
  exact wanted

theorem gidCacheLookup_choosing {passwd : Enumeration PasswdEntry} {group : Enumeration GroupEntry}
    {cache : UserCache} {user : UidCacheEntry → Bool} {chosen : GidCacheEntry} {uids : List Id}
    (rebuilt : Rebuilt (choosingSorters user fun gent => gent = chosen) passwd group cache)
    (stored : (chosen, uids) ∈ cachedGroups (choosingSorters user fun gent => gent = chosen) passwd group) :
    gidCacheLookup (choosingSorters user fun gent => gent = chosen) cache chosen.gid = some chosen := by
  have sane := (conforms_choosingSorters user fun gent => gent = chosen).sane
  have present : chosen ∈ cache.gid_cache.live := by
    rw [rebuilt.groups, (sane.groups.qsort_perm _ _).mem_iff]
    exact List.mem_map_of_mem stored
  have equal : gidCacheGidSearchcmp chosen.gid chosen = 0 := (compareIds_eq_zero _ _).mpr rfl
  obtain ⟨gent, -, search, -, wanted⟩ := Sorter.bsearch_preferring
    (fun gent => decide (gent = chosen)) present equal (by simp)
  obtain rfl : gent = chosen := by simpa using wanted
  exact search

/-- Where an entry of the user has another main group, the lookup of the user may yield it, and
the lookup of the group alone has to tell. -/
theorem Recognised.listed {pw : PasswdEntry} {gid : Id} (recognised : Recognised users groups pw.pw_uid gid)
    (member : pw ∈ users) (other : pw.pw_gid ≠ gid) (choice : GidCacheEntry → Bool) :
    ∃ cache, Rebuilt (choosingSorters (fun uent => uent.main_gid ≠ gid) choice) ⟨users, .endOfList⟩
        ⟨groups, .endOfList⟩ cache ∧
      ∃ cell ∈ cachedGroups (choosingSorters (fun uent => uent.main_gid ≠ gid) choice)
          ⟨users, .endOfList⟩ ⟨groups, .endOfList⟩,
        gidCacheLookup (choosingSorters (fun uent => uent.main_gid ≠ gid) choice) cache gid = some cell.1 ∧
          pw.pw_uid ∈ cell.2 := by
  obtain ⟨cache, rebuilt, -, main | listed⟩ := recognised.rebuilt (fun uent => uent.main_gid ≠ gid) choice
  · obtain ⟨uent, found, same⟩ := main
    have preferred : ∀ entry : UidCacheEntry, entry.main_gid = pw.pw_gid →
        decide (entry.main_gid ≠ gid) = true := by
      intro entry main
      rw [main]
      simpa using other
    have wanted := uidCacheLookup_choosing rebuilt member preferred found
    simp [same] at wanted
  · exact ⟨cache, rebuilt, listed⟩

/-- Every entry of the group has to list such a user, since the lookup may yield any of them. -/
theorem Recognised.lists {pw : PasswdEntry} {gr : GroupEntry}
    (recognised : Recognised users groups pw.pw_uid gr.gr_gid) (member : pw ∈ users)
    (other : pw.pw_gid ≠ gr.gr_gid) (inGroups : gr ∈ groups) : Lists users gr pw.pw_uid := by
  obtain ⟨⟨gent, uids⟩, stored, same, members⟩ := cell_of_group
    (choosingSorters (fun uent => uent.main_gid ≠ gr.gr_gid) fun _ => false).named
    (cachedNames (choosingSorters (fun uent => uent.main_gid ≠ gr.gr_gid) fun _ => false) ⟨users, .endOfList⟩)
    (nameBytes users).length inGroups
  obtain ⟨cache, rebuilt, cell, listed, lookup, contained⟩ :=
    recognised.listed member other fun entry => entry = gent
  have sane := (conforms_choosingSorters (fun uent => uent.main_gid ≠ gr.gr_gid) fun entry => entry = gent).sane
  have search := gidCacheLookup_choosing rebuilt stored
  rw [same] at search
  have answer := isListedInGroup_eq rebuilt pw.pw_uid (gent, uids) search stored
  rw [isListedInGroup_eq rebuilt pw.pw_uid cell lookup listed] at answer
  have inRun : pw.pw_uid ∈ (gent, uids).2 := by simpa [contained] using answer
  rw [members] at inRun
  exact lists_of_memberUids sane inRun

/-- Where the ids are ambiguous, some conforming functions lead to the wrong entries. -/
theorem Recognised.unambiguous {uid gid : Id} (recognised : Recognised users groups uid gid) :
    Unambiguous users groups uid gid := by
  unfold Unambiguous
  rw [or_iff_not_imp_left]
  intro mixed
  simp only [not_forall] at mixed
  obtain ⟨pw, member, rfl, other⟩ := mixed
  constructor
  · obtain ⟨cache, rebuilt, cell, stored, lookup, -⟩ := recognised.listed member other fun _ => false
    obtain ⟨key, -⟩ := cell_of_gidCacheLookup (conforms_choosingSorters _ _).sane rebuilt lookup
    obtain ⟨gr, inGroups, same, -⟩ := group_of_cell _ _ stored
    exact ⟨gr, inGroups, same.symm.trans key⟩
  · rintro gr inGroups rfl
    exact recognised.lists member other inGroups

end

/-- For every database with distinct names and ids below 2^31 and every member in it: the member
is always recognised if and only if the database fits and the ids are unambiguous. -/
theorem membership_complete_iff (users : List PasswdEntry) (groups : List GroupEntry)
    (small : SmallIds users groups) (distinct : (users.map PasswdEntry.pw_name).Nodup) {uid gid : Id}
    (member : Member users groups uid gid) :
    Recognised users groups uid gid ↔ DatabaseFits users groups ∧ Unambiguous users groups uid gid := by
  have user : ∃ pw ∈ users, pw.pw_uid = uid := by
    rcases member with ⟨pw, listed, same, -⟩ | ⟨-, -, -, -, -, pw, listed, -, same⟩
    · exact ⟨pw, listed, same⟩
    · exact ⟨pw, listed, same⟩
  constructor
  · intro recognised
    exact ⟨recognised.fits distinct, recognised.unambiguous⟩
  · rintro ⟨fits, clear⟩
    exact recognised_of_unambiguous small distinct user fits clear

/-- User `b` is recognised as a member of the main group and of the group that lists both users. -/
theorem membership_complete_iff_of_two_users :
    Recognised sampleUsers.entries sampleGroups.entries 1001#32 100#32 ∧
      Recognised sampleUsers.entries sampleGroups.entries 1001#32 200#32 := by
  have small : SmallIds sampleUsers.entries sampleGroups.entries := ⟨by decide, by decide, by decide⟩
  have fits : DatabaseFits sampleUsers.entries sampleGroups.entries :=
    ⟨by decide, ⟨by decide, by decide, by decide, by decide, trivial⟩, by decide,
      ⟨by decide, by decide, trivial⟩⟩
  constructor
  · exact (membership_complete_iff _ _ small (by decide) (by decide)).mpr ⟨fits, by decide⟩
  · exact (membership_complete_iff _ _ small (by decide) (by decide)).mpr ⟨fits, by decide⟩

/-- Two users share the uid 1000, with main groups 100 and 200. The lookup may yield the second
one, and 1000 is then not taken for a member of 100. -/
theorem shared_uid_hides_main_group :
    ¬ ∀ (users : List PasswdEntry) (groups : List GroupEntry), SmallIds users groups →
      (users.map PasswdEntry.pw_name).Nodup → ∀ uid gid, Member users groups uid gid →
        Recognised users groups uid gid := by
  intro always
  have recognised := always
    [⟨⟨[97#8], by decide⟩, 1000#32, 100#32⟩, ⟨⟨[98#8], by decide⟩, 1000#32, 200#32⟩] []
    ⟨by decide, by decide, by decide⟩ (by decide) 1000#32 100#32
    (Or.inl ⟨_, List.mem_cons_self, rfl, rfl⟩)
  rcases recognised.unambiguous with main | ⟨⟨gr, listed, -⟩, -⟩
  · exact absurd main (by decide)
  · cases listed

end Bindfs.Guarantees.GroupMembership
