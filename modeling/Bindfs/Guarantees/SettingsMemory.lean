import Bindfs.Source.SettingsMemorySpecs

/-!
# The lifetime of the settings

`lifetime_of_settings` is about everything that `main` and the handlers do with the permission
rules and the id maps, from their creation to `atexit_func` and in any order: the linked chains
and the growing arrays give the answers that lists give, no access goes astray, no walk is caught
in a circle, and at the end every block is freed once.

An entry of a map costs one call of `usermap_add_uid` or `usermap_add_gid`, and the capacity of
the arrays is an `int`, so that the calls have to be no more than 2^30.
-/
namespace Bindfs.Guarantees.SettingsMemory
open Bindfs.Source Bindfs.Lib.Effects Bindfs.Lib.OwnedCells Bindfs.Lib.OwnedStructures

abbrev SettingsPart := ChainName ⊕ MapName

/-- The last one created comes first. -/
def settingsParts : List SettingsPart :=
  [.inl .chmodPermchain, .inl .createPermchain, .inr .usermapReverse, .inr .usermap, .inl .permchain]

theorem mem_settingsParts (part : SettingsPart) : part ∈ settingsParts := by
  rcases part with (_ | _ | _) | (_ | _) <;> simp [settingsParts]

theorem nodup_settingsParts : settingsParts.Nodup := by decide

structure LiesIn (pointers : SettingsPointers) (data : SettingsData) (cells : SettingsPart → SettingsCells) :
    Prop where
  chains : ∀ chain, RulesAt (some (pointers.chain chain)) (data.chains chain) (cells (.inl chain))
  maps : ∀ map, MapAt (pointers.map map) (data.maps map) (cells (.inr map))

def SettingsAt (pointers : SettingsPointers) (data : SettingsData) (owned : SettingsCells) : Prop :=
  ∃ cells, LiesIn pointers data cells ∧ owned = settingsParts.flatMap cells

section
variable {W C E : Type} {pointers : SettingsPointers} {data : SettingsData} {cells : SettingsPart → SettingsCells}

theorem LiesIn.setChain (lies : LiesIn pointers data cells) {chain : ChainName} {nodes : PermNodes}
    {own : SettingsCells} (rules : RulesAt (some (pointers.chain chain)) nodes own) :
    LiesIn pointers { data with chains := Function.update data.chains chain nodes }
      (Function.update cells (.inl chain) own) where
  chains other := by
    by_cases same : other = chain
    · subst same
      simpa only [Function.update_self] using rules
    · have apart : (Sum.inl other : SettingsPart) ≠ .inl chain := fun equal => same (Sum.inl.inj equal)
      simpa only [Function.update_of_ne same, Function.update_of_ne apart] using lies.chains other
  maps other := by
    simpa only [Function.update_of_ne Sum.inr_ne_inl] using lies.maps other

theorem LiesIn.setMap (lies : LiesIn pointers data cells) {map : MapName} {entries : UserMap}
    {own : SettingsCells} (entered : MapAt (pointers.map map) entries own) :
    LiesIn pointers { data with maps := Function.update data.maps map entries }
      (Function.update cells (.inr map) own) where
  chains other := by
    simpa only [Function.update_of_ne Sum.inl_ne_inr] using lies.chains other
  maps other := by
    by_cases same : other = map
    · subst same
      simpa only [Function.update_self] using entered
    · have apart : (Sum.inr other : SettingsPart) ≠ .inr map := fun equal => same (Sum.inr.inj equal)
      simpa only [Function.update_of_ne same, Function.update_of_ne apart] using lies.maps other

/-! ## One use -/

/-- No table can outgrow its arrays in so many calls. -/
def Few (data : SettingsData) (calls : Nat) : Prop :=
  ∀ map kind, ((data.maps map).table kind).length + calls ≤ 2 ^ 30

theorem length_tableAdd (table : Lib.InverseTables.Table Id) (fromId toId : Id) :
    (tableAdd table fromId toId).2.length ≤ table.length + 1 := by
  unfold tableAdd
  split
  · exact Nat.le_succ _
  · split
    · exact Nat.le_succ _
    · simp

theorem length_usermapAdd (kind other : IdKind) (map : UserMap) (fromId toId : Id) :
    ((usermapAdd kind map fromId toId).2.table other).length ≤ (map.table other).length + 1 := by
  rw [table_usermapAdd]
  by_cases same : other = kind
  · subst same
    rw [Function.update_self]
    exact length_tableAdd ..
  · rw [Function.update_of_ne same]
    exact Nat.le_succ _

theorem Few.use {use : SettingsUse} {rest : List SettingsUse}
    (few : Few data ((use :: rest).countP SettingsUse.isAdd)) :
    Few (use.run data).2 (rest.countP SettingsUse.isAdd) := by
  intro map kind
  have room := few map kind
  rw [List.countP_cons] at room
  cases use with
  | addRules chain rule => simpa [SettingsUse.run, SettingsUse.isAdd] using room
  | applyRules chain mode => simpa [SettingsUse.run, SettingsUse.isAdd] using room
  | lookUp map' kind' id deflt => simpa [SettingsUse.run, SettingsUse.isAdd] using room
  | addId map' kind' fromId toId =>
    simp only [SettingsUse.isAdd, if_true] at room
    simp only [SettingsUse.run]
    by_cases same : map = map'
    · subst same
      rw [Function.update_self]
      have longer := length_usermapAdd kind' kind (data.maps map) fromId toId
      omega
    · rw [Function.update_of_ne same]
      omega

theorem yields_use (lies : LiesIn pointers data cells) (use : SettingsUse)
    (few : use.isAdd = true → Few data 1) :
    Yields (settingsParts.flatMap cells) (use.runAt pointers : SettingsMem W C E UseReply) fun reply out =>
      reply = (use.run data).1 ∧ SettingsAt pointers (use.run data).2 out := by
  cases use with
  | addRules chain rule =>
    have added := (yields_addChmodRules (W := W) (C := C) (E := E) (lies.chains chain) rule).part
      nodup_settingsParts (mem_settingsParts _)
    refine Yields.bind added fun ret out changed => ?_
    obtain ⟨own, ⟨rfl, rules⟩, rfl⟩ := changed
    exact Yields.pure ⟨rfl, _, lies.setChain rules, rfl⟩
  | applyRules chain mode =>
    have applied := (yields_permchainApply (W := W) (C := C) (E := E) (lies.chains chain) mode).part
      nodup_settingsParts (mem_settingsParts _)
    refine Yields.bind applied fun ret out changed => ?_
    obtain ⟨own, ⟨rfl, rfl⟩, rfl⟩ := changed
    rw [Function.update_eq_self]
    exact Yields.pure ⟨rfl, _, lies, rfl⟩
  | addId map kind fromId toId =>
    have room := few rfl map kind
    have added := (yields_usermapAdd (W := W) (C := C) (E := E) (lies.maps map) kind (by omega) fromId toId).part
      nodup_settingsParts (mem_settingsParts _)
    refine Yields.bind added fun ret out changed => ?_
    obtain ⟨own, ⟨rfl, entered⟩, rfl⟩ := changed
    exact Yields.pure ⟨rfl, _, lies.setMap entered, rfl⟩
  | lookUp map kind id deflt =>
    have found := (yields_lookUp (W := W) (C := C) (E := E) (lies.maps map) kind id deflt).part
      nodup_settingsParts (mem_settingsParts _)
    refine Yields.bind found fun ret out changed => ?_
    obtain ⟨own, ⟨rfl, rfl⟩, rfl⟩ := changed
    rw [Function.update_eq_self]
    exact Yields.pure ⟨rfl, _, lies, rfl⟩

/-! ## All uses -/

theorem yields_uses (settings : List SettingsUse) {data : SettingsData} {owned : SettingsCells}
    (lies : SettingsAt pointers data owned) (few : Few data (settings.countP SettingsUse.isAdd)) :
    Yields owned (usesAt pointers settings : SettingsMem W C E (List UseReply)) fun replies out =>
      replies = uses data settings ∧ ∃ data', SettingsAt pointers data' out := by
  induction settings generalizing data owned with
  | nil => exact Yields.pure ⟨rfl, data, lies⟩
  | cons use rest ih =>
    obtain ⟨cells, liesIn, rfl⟩ := lies
    have now : use.isAdd = true → Few data 1 := by
      intro adds map kind
      have room := few map kind
      rw [List.countP_cons, if_pos adds] at room
      omega
    refine Yields.bind (yields_use liesIn use now) fun reply out used => ?_
    obtain ⟨rfl, lies'⟩ := used
    refine Yields.bind (ih lies' few.use) fun replies out' used' => ?_
    obtain ⟨rfl, lies''⟩ := used'
    exact Yields.pure ⟨rfl, lies''⟩

theorem mapAt_create (p : Nat) :
    MapAt p usermapCreate [(p, .record ⟨⟨none, none, 0, 0⟩, ⟨none, none, 0, 0⟩⟩)] := by
  refine ⟨_, fun _ => [], ?_, rfl⟩
  intro kind
  cases kind with
  | uid => exact .unallocated
  | gid => exact .unallocated

theorem yields_createSettings :
    Yields [] (createSettingsAt : SettingsMem W C E SettingsPointers) fun pointers out =>
      SettingsAt pointers SettingsData.create out := by
  unfold createSettingsAt permchainCreateAt usermapCreateAt
  refine Runs.acquires fun permchain => ?_
  refine Runs.acquires fun usermap => ?_
  refine Runs.acquires fun usermapReverse => ?_
  refine Runs.acquires fun createPermchain => ?_
  refine Runs.acquires fun chmodPermchain => ?_
  refine Yields.pure ⟨fun
    | .inl .permchain => [(permchain, .node permchainCreate none)]
    | .inl .createPermchain => [(createPermchain, .node permchainCreate none)]
    | .inl .chmodPermchain => [(chmodPermchain, .node permchainCreate none)]
    | .inr .usermap => [(usermap, .record ⟨⟨none, none, 0, 0⟩, ⟨none, none, 0, 0⟩⟩)]
    | .inr .usermapReverse => [(usermapReverse, .record ⟨⟨none, none, 0, 0⟩, ⟨none, none, 0, 0⟩⟩)],
    ⟨?_, ?_⟩, rfl⟩
  · intro chain
    cases chain <;> exact rulesAt_single _ _
  · intro map
    cases map <;> exact mapAt_create _

theorem yields_destroySettings (lies : LiesIn pointers data cells) :
    Yields (settingsParts.flatMap cells) (destroySettingsAt pointers : SettingsMem W C E Unit) fun _ out =>
      out = [] := by
  have order : settingsParts.Perm
      [.inr .usermap, .inr .usermapReverse, .inl .permchain, .inl .createPermchain, .inl .chmodPermchain] := by
    decide
  refine Runs.perm (order.flatMap_right cells) ?_
  unfold destroySettingsAt
  refine Yields.bind ((yields_usermapDestroy (lies.maps .usermap)).beside _) fun _ out freed => ?_
  obtain ⟨_, rfl, rfl⟩ := freed
  refine Yields.bind ((yields_usermapDestroy (lies.maps .usermapReverse)).beside _) fun _ out freed => ?_
  obtain ⟨_, rfl, rfl⟩ := freed
  refine Yields.bind ((yields_permchainDestroy (lies.chains .permchain)).beside _) fun _ out freed => ?_
  obtain ⟨_, rfl, rfl⟩ := freed
  refine Yields.bind ((yields_permchainDestroy (lies.chains .createPermchain)).beside _) fun _ out freed => ?_
  obtain ⟨_, rfl, rfl⟩ := freed
  refine (yields_permchainDestroy (lies.chains .chmodPermchain)).among [] (by simp) fun _ own freed => ?_
  exact ⟨own, by simp, freed⟩

theorem yields_lifetime (settings : List SettingsUse) (few : settings.countP SettingsUse.isAdd ≤ 2 ^ 30) :
    Yields [] (lifetimeAt settings : SettingsMem W C E (List UseReply)) fun replies out =>
      replies = uses SettingsData.create settings ∧ out = [] := by
  unfold lifetimeAt
  refine Yields.bind yields_createSettings fun pointers out lies => ?_
  have empty : Few SettingsData.create (settings.countP SettingsUse.isAdd) := by
    intro map kind
    cases kind <;> simpa [SettingsData.create, UserMap.table, usermapCreate] using few
  refine Yields.bind (yields_uses settings lies empty) fun replies out used => ?_
  obtain ⟨rfl, data', cells, lies', rfl⟩ := used
  refine Yields.bind (yields_destroySettings lies') fun _ out freed => ?_
  exact Yields.pure ⟨rfl, freed⟩

end

/-- Whatever is done with the rules and the maps: the answers are those of the lists, nothing is
misused, and the heap ends with the contents it began with. -/
theorem lifetime_of_settings {W C E : Type} (settings : List SettingsUse)
    (few : settings.countP SettingsUse.isAdd ≤ 2 ^ 30) (world : W) {heap : Heap SettingsCell} (valid : heap.Valid) :
    ((lifetimeAt settings : SettingsMem W C E _).exec (world, heap)).result =
        .ok (uses SettingsData.create settings) ∧
      ((lifetimeAt settings : SettingsMem W C E _).exec (world, heap)).world.1 = world ∧
      ((lifetimeAt settings : SettingsMem W C E _).exec (world, heap)).world.2.misused = false ∧
      ((lifetimeAt settings : SettingsMem W C E _).exec (world, heap)).world.2.contents = heap.contents := by
  obtain ⟨replies, heap', cells, result, reached, valid', ⟨rfl, rfl⟩, split⟩ :=
    (yields_lifetime settings few).exec world valid (split_nil heap.contents)
  rw [result, reached]
  exact ⟨rfl, rfl, valid'.unmisused, split.eq_of_nil⟩

/-- A rule is added and applied, another refused, and two ids are mapped. -/
def sampleUses : List SettingsUse :=
  [.addRules .permchain "u=rw,g-w".toList, .addRules .permchain "u=rw,q".toList, .addId .usermap .uid 1#32 2#32,
    .addId .usermap .uid 1#32 3#32, .applyRules .permchain 0o777#32, .lookUp .usermap .uid 1#32 noId]

theorem lifetime_of_settings_of_sample :
    uses SettingsData.create sampleUses =
        [.status 0, .status (-1), .added .ok, .added .duplicateKey, .mode (some 0o657#32), .id 2#32] ∧
      ((lifetimeAt sampleUses : SettingsMem Unit Unit Unit _).exec ((), Heap.empty _)).world.2.misused = false := by
  refine ⟨by decide +kernel, ?_⟩
  exact (lifetime_of_settings sampleUses (by decide) () ⟨rfl, fun _ _ => rfl⟩).2.2.1

end Bindfs.Guarantees.SettingsMemory
