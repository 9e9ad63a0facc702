import Bindfs.Source.HandlerSpecs
import Bindfs.Source.TableHost

/-!
# chown and chmod requests

A chown request is decided as a whole before anything is done: it fails without an lchown(2),
or both of its ids are translated (`chown_translated_or_refused`). A chmod request changes the
permission bits that its policy lets through and no others (`chmod_policies_confine`).
-/
namespace Bindfs.Guarantees.ChangeRequests
open Bindfs.Source Bindfs.Lib.Effects

variable {W : Type}

/-! ## chown -/

def Requested (id : Id) : Prop := id ≠ noId

instance (id : Id) : Decidable (Requested id) := inferInstanceAs (Decidable (_ ≠ _))

/-- The id handed to lchown(2) for a requested one. -/
structure Translated (policy : ChangePolicy) (mapped : Id → Id) (offset : BitVec 64)
    (id out : Id) : Prop where
  unchanged_iff : out = noId ↔ ¬ Requested id ∨ policy = .ignore
  value : out ≠ noId → (out.toNat : Int) = (mapped id).toNat - offset.toInt ∧ out.toNat ≤ 2 ^ 31 - 1

def TranslatedUid (settings : Settings) (uid out : Id) : Prop :=
  Translated settings.chown_policy
    (fun uid => usermapGetUidOrDefault settings.usermap_reverse uid uid) settings.uid_offset uid out

def TranslatedGid (settings : Settings) (gid out : Id) : Prop :=
  Translated settings.chgrp_policy
    (fun gid => usermapGetGidOrDefault settings.usermap_reverse gid gid) settings.gid_offset gid out

/-- Some component is requested and has the given policy. -/
def SomeRequested (settings : Settings) (uid gid : Id) (policy : ChangePolicy) : Prop :=
  Requested uid ∧ settings.chown_policy = policy ∨ Requested gid ∧ settings.chgrp_policy = policy

/-- The owners and groups a run hands to lchown(2). -/
def lchowns (outcome : Outcome W SysCall Errno Unit) : List (Id × Id) :=
  outcome.calls.filterMap lchownOwner

/-- What a chown request may do. -/
structure DecidedAsAWhole (settings : Settings) (uid gid : Id)
    (outcome : Outcome W SysCall Errno Unit) : Prop where
  all_or_nothing : (∃ error, outcome.result = .error error) ∧ lchowns outcome = [] ∨
    outcome.result = .ok () ∧ (lchowns outcome).length ≤ 1 ∧
      (SomeRequested settings uid gid .normal → (lchowns outcome).length = 1)
  eperm_only_if_denied : outcome.result = .error .eperm → SomeRequested settings uid gid .deny
  denied_fails : SomeRequested settings uid gid .deny → ∃ error, outcome.result = .error error
  translated : ∀ owner ∈ lchowns outcome,
    TranslatedUid settings uid owner.1 ∧ TranslatedGid settings gid owner.2

/-- One half of the request: translated, or refused for a reason. -/
theorem chownId_cases (policy : ChangePolicy) (mapped : Id → Id) (offset : BitVec 64) (id : Id) :
    (∃ out, chownId policy (fun id => shiftId (-offset) UID_T_MAX (mapped id)) id = .ok out ∧
        Translated policy mapped offset id out ∧ ¬ (Requested id ∧ policy = .deny)) ∨
      (∃ error, chownId policy (fun id => shiftId (-offset) UID_T_MAX (mapped id)) id = .error error ∧
        (error = .eperm → Requested id ∧ policy = .deny)) := by
  unfold chownId Requested
  by_cases asked : id = noId
  · refine .inl ⟨id, by rw [if_neg (not_not.mpr asked)], ⟨?_, fun changed => absurd asked changed⟩,
      fun denied => denied.1 asked⟩
    simp [Requested, asked]
  · rw [if_pos asked]
    cases policy with
    | normal =>
      cases shifted : shiftId (-offset) UID_T_MAX (mapped id) with
      | none =>
        exact .inr ⟨uidGidOverflowErrno, by simp only [shifted], fun eperm => absurd eperm (by decide)⟩
      | some out =>
        refine .inl ⟨out, by simp only [shifted], ⟨?_, fun _ => (shiftId_neg_iff _ _ _).mp shifted⟩, by simp⟩
        exact iff_of_false (ne_noId_of_shiftId shifted) (by simp [Requested, asked])
    | ignore => exact .inl ⟨noId, rfl, ⟨by simp, fun changed => absurd rfl changed⟩, by simp⟩
    | deny => exact .inr ⟨.eperm, rfl, fun _ => ⟨asked, rfl⟩⟩

/-- A requested id with the normal policy does ask for a change. -/
theorem Translated.changes {policy : ChangePolicy} {mapped : Id → Id} {offset : BitVec 64}
    {id out : Id} (translated : Translated policy mapped offset id out)
    (asked : Requested id) (normal : policy = .normal) : out ≠ noId := by
  intro unchanged
  rcases translated.unchanged_iff.mp unchanged with notAsked | ignored
  · exact notAsked asked
  · rw [normal] at ignored
    cases ignored

/-- What is left of a request once both halves are decided. -/
theorem exec_bindfsChown {host : Host W} {settings : Settings} {world : W} {path realPath : CString}
    {uid gid : Id} (located : requestPath host settings world path = .ok realPath)
    (succeeds : ∀ owner group, ∃ world', host.perform world (.lchown realPath owner group) = .ok world')
    {owner group : Id} (first : chownUid settings uid = .ok owner)
    (second : chownGid settings gid = .ok group) :
    ((bindfsChown host settings path uid gid).exec world).result = .ok () ∧
      lchowns ((bindfsChown host settings path uid gid).exec world) =
        if owner ≠ noId ∨ group ≠ noId then [(owner, group)] else [] := by
  have quiet : (pathCalls settings world path).filterMap lchownOwner = [] := by
    unfold pathCalls
    split <;> rfl
  obtain ⟨world', changed⟩ := succeeds owner group
  unfold bindfsChown lchowns
  by_cases change : owner ≠ noId ∨ group ≠ noId
  · simp [first, second, change, exec_processPath, located, host.exec_issue_ok changed, quiet,
      lchownOwner]
  · simp [first, second, change]

theorem refused_bindfsChown {host : Host W} {settings : Settings} {world : W} {path : CString}
    {uid gid : Id} {error : Errno}
    (refused : chownUid settings uid = .error error ∨
      (∃ owner, chownUid settings uid = .ok owner) ∧ chownGid settings gid = .error error) :
    ((bindfsChown host settings path uid gid).exec world).result = .error error ∧
      lchowns ((bindfsChown host settings path uid gid).exec world) = [] := by
  unfold bindfsChown lchowns
  rcases refused with first | ⟨⟨owner, first⟩, second⟩
  · simp [first]
  · simp [first, second]

/-- A half that is refused ends the request with its error. -/
theorem DecidedAsAWhole.of_refused {settings : Settings} {uid gid : Id}
    {outcome : Outcome W SysCall Errno Unit} {error : Errno} (result : outcome.result = .error error)
    (issued : lchowns outcome = []) (why : error = .eperm → SomeRequested settings uid gid .deny) :
    DecidedAsAWhole settings uid gid outcome := by
  refine ⟨.inl ⟨⟨error, result⟩, issued⟩, fun eperm => why ?_, fun _ => ⟨error, result⟩, ?_⟩
  · rw [result] at eperm
    exact Except.error.inj eperm
  · rw [issued]
    simp

/-- With a path that resolves and an lchown(2) that succeeds, a chown request is translated or
refused as a whole. -/
theorem chown_translated_or_refused {host : Host W} {settings : Settings} {world : W}
    {path realPath : CString} (uid gid : Id)
    (located : requestPath host settings world path = .ok realPath)
    (succeeds : ∀ owner group, ∃ world',
      host.perform world (.lchown realPath owner group) = .ok world') :
    DecidedAsAWhole settings uid gid ((bindfsChown host settings path uid gid).exec world) := by
  have users : (∃ out, chownUid settings uid = .ok out ∧ TranslatedUid settings uid out ∧
        ¬ (Requested uid ∧ settings.chown_policy = .deny)) ∨
      (∃ error, chownUid settings uid = .error error ∧
        (error = .eperm → Requested uid ∧ settings.chown_policy = .deny)) :=
    chownId_cases settings.chown_policy _ settings.uid_offset uid
  have groups : (∃ out, chownGid settings gid = .ok out ∧ TranslatedGid settings gid out ∧
        ¬ (Requested gid ∧ settings.chgrp_policy = .deny)) ∨
      (∃ error, chownGid settings gid = .error error ∧
        (error = .eperm → Requested gid ∧ settings.chgrp_policy = .deny)) :=
    chownId_cases settings.chgrp_policy _ settings.gid_offset gid
  rcases users with ⟨owner, first, owner_ok, allowed⟩ | ⟨error, first, why⟩
  · rcases groups with ⟨group, second, group_ok, allowed'⟩ | ⟨error, second, why⟩
    · obtain ⟨result, issued⟩ := exec_bindfsChown located succeeds first second
      refine ⟨.inr ⟨result, ?_, fun normal => ?_⟩, fun eperm => ?_, fun denied => ?_, ?_⟩
      · rw [issued]
        split <;> simp
      · rw [issued, if_pos, List.length_singleton]
        exact normal.imp (fun asked => owner_ok.changes asked.1 asked.2)
          fun asked => group_ok.changes asked.1 asked.2
      · rw [result] at eperm
        cases eperm
      · exact absurd denied (not_or.mpr ⟨allowed, allowed'⟩)
      · intro handed member
        rw [issued] at member
        split at member
        · rw [List.mem_singleton.mp member]
          exact ⟨owner_ok, group_ok⟩
        · cases member
    · obtain ⟨result, issued⟩ := refused_bindfsChown (.inr ⟨⟨owner, first⟩, second⟩)
      exact .of_refused result issued fun eperm => .inr (why eperm)
  · obtain ⟨result, issued⟩ := refused_bindfsChown (.inl first)
    exact .of_refused result issued fun eperm => .inl (why eperm)

/-- An offset of 10 for owners, changes of group ignored. -/
def shiftedSettings : Settings :=
  { initialSettings 0#32 with uid_offset := 10#64, chgrp_policy := .ignore }

theorem chown_translated_of_shifted :
    requestPath tableHost shiftedSettings TableTree.empty ['/', 'a'] = .ok ['a'] ∧
    (∀ owner group, ∃ world',
      tableHost.perform TableTree.empty (.lchown ['a'] owner group) = .ok world') ∧
    DecidedAsAWhole shiftedSettings 1010#32 1010#32
      ((bindfsChown tableHost shiftedSettings ['/', 'a'] 1010#32 1010#32).exec TableTree.empty) :=
  ⟨rfl, fun _ _ => ⟨_, rfl⟩, chown_translated_or_refused _ _ rfl fun _ _ => ⟨_, rfl⟩⟩

-- the owner moves back by the offset, the group is left alone
example : lchowns ((bindfsChown tableHost shiftedSettings ['/', 'a'] 1010#32 1010#32).exec
    TableTree.empty) = [(1000#32, noId)] := by decide

/-! ## chmod -/

/-- The permission bits of a file: twelve bits, with setuid, setgid and sticky. -/
def HasBits (host : Host W) (world : W) (path : CString) (bits : Mode) : Prop :=
  ∃ stbuf, host.lstat world path = .ok stbuf ∧ stbuf.st_mode &&& 0o7777#32 = bits

/-- What each chmod policy promises for a file of mode `old`, asked to become `mode`. -/
def ChmodConfined (host : Host W) (settings : Settings) (realPath : CString) (old mode : Mode)
    (outcome : Outcome W SysCall Errno Unit) : Prop :=
  match settings.chmod_policy with
  | .normal =>
    outcome.result = .ok () ∧
      HasBits host outcome.world realPath (settings.chmod_permchain.apply mode &&& 0o7777#32) ∧
      settings.chmod_permchain.apply mode &&& 0o7000#32 = mode &&& 0o7000#32
  | .ignore =>
    outcome.result = .ok () ∧
      HasBits host outcome.world realPath
        (if settings.chmod_allow_x ∧ S_ISREG old then
          (old &&& 0o7666#32) ||| (mode &&& 0o111#32)
        else old &&& 0o7777#32)
  | .deny =>
    (outcome.result = .error .eperm ∧ HasBits host outcome.world realPath (old &&& 0o7777#32) ∨
      outcome.result = .ok () ∧ HasBits host outcome.world realPath (mode &&& 0o7777#32)) ∧
    (outcome.result = .ok () ↔ settings.chmod_allow_x = true ∧ S_ISREG old = true ∧
      old &&& 0o7666#32 = mode &&& 0o7666#32)

/-- The parser's chains leave the bits above 0777 alone. -/
theorem apply_special_bits (pc : Permchain) (mode : Mode) :
    pc.apply mode &&& 0o7000#32 = mode &&& 0o7000#32 := by
  apply BitVec.eq_of_getLsbD_eq
  intro i _
  simp only [BitVec.getLsbD_and]
  by_cases high : 9 ≤ i
  · rw [pc.apply_high_bit mode high]
  · have low : (0o7000#32).getLsbD i = false := by
      have small : i < 9 := by omega
      revert i
      decide
    simp [low]

/-- The masks 07666 and 0111 split the permission bits in two. -/
theorem permission_mask_bit {i : Nat} (bound : i < 32) :
    (0o7777#32).getLsbD i = ((0o7666#32).getLsbD i ^^ (0o111#32).getLsbD i) ∧
      ((0o111#32).getLsbD i = true → (0o7666#32).getLsbD i = false) := by
  revert i
  decide

/-- Flipping the execute bits that differ takes them over. -/
theorem flipped_execute_bits (old mode : Mode) :
    (old ^^^ (((old &&& 0o7777#32) ^^^ (mode &&& 0o7777#32)) &&& 0o111#32)) &&& 0o7777#32 =
      (old &&& 0o7666#32) ||| (mode &&& 0o111#32) := by
  apply BitVec.eq_of_getLsbD_eq
  intro i bound
  obtain ⟨whole, disjoint⟩ := permission_mask_bit bound
  simp only [BitVec.getLsbD_and, BitVec.getLsbD_or, BitVec.getLsbD_xor, whole]
  cases executable : (0o111#32).getLsbD i with
  | true => cases old.getLsbD i <;> simp [disjoint executable]
  | false => simp

/-- The masked difference is zero exactly when the masked bits agree. -/
theorem no_other_difference_iff (old mode : Mode) :
    ((old &&& 0o7777#32) ^^^ (mode &&& 0o7777#32)) &&& 0o7666#32 = 0#32 ↔
      old &&& 0o7666#32 = mode &&& 0o7666#32 := by
  have distributes : ((old &&& 0o7777#32) ^^^ (mode &&& 0o7777#32)) &&& 0o7666#32 =
      (old &&& 0o7666#32) ^^^ (mode &&& 0o7666#32) := by
    apply BitVec.eq_of_getLsbD_eq
    intro i bound
    obtain ⟨whole, disjoint⟩ := permission_mask_bit bound
    simp only [BitVec.getLsbD_and, BitVec.getLsbD_xor, whole]
    cases executable : (0o111#32).getLsbD i with
    | true => simp [disjoint executable]
    | false => cases (0o7666#32).getLsbD i <;> simp
  rw [distributes, BitVec.xor_eq_zero_iff]

/-- A request whose path resolves comes down to the policy. -/
theorem exec_bindfsChmod {host : Host W} {settings : Settings} {world : W} {path realPath : CString}
    {stbuf : Stat} (mode : Mode) (located : requestPath host settings world path = .ok realPath)
    (looked : host.lstat world realPath = .ok stbuf) :
    let old := if settings.chmod_allow_x ∧ S_ISREG stbuf.st_mode then some stbuf.st_mode else none
    let decided := (chmodByPolicy host settings realPath mode old).exec world
    ((bindfsChmod host settings path mode).exec world).result = decided.result ∧
      ((bindfsChmod host settings path mode).exec world).world = decided.world := by
  unfold bindfsChmod
  by_cases allowed : settings.chmod_allow_x = true
  · by_cases regular : S_ISREG stbuf.st_mode = true
    · simp [exec_processPath, located, exec_executeOnlyMode, oldMode, looked, allowed, regular,
        Except.map]
    · simp [exec_processPath, located, exec_executeOnlyMode, oldMode, looked, allowed, regular,
        Except.map]
  · simp [exec_processPath, located, exec_executeOnlyMode, oldMode, allowed]

/-- A chmod(2) that succeeds and sets the bits it is given. -/
theorem exec_chmod_bits {host : Host W} {world : W} {realPath : CString} {mode : Mode}
    (sets : ∃ world', host.perform world (.chmod realPath mode) = .ok world' ∧
      HasBits host world' realPath (mode &&& 0o7777#32)) :
    ((host.issue (.chmod realPath mode)).exec world).result = .ok () ∧
      HasBits host ((host.issue (.chmod realPath mode)).exec world).world realPath
        (mode &&& 0o7777#32) := by
  obtain ⟨world', performed, bits⟩ := sets
  rw [host.exec_issue_ok performed]
  exact ⟨rfl, bits⟩

/-- With a path that resolves, to a file that does not change meanwhile, and a chmod(2) that sets
the twelve bits it is given, a chmod request changes what its policy says. -/
theorem chmod_policies_confine {host : Host W} {settings : Settings} {world : W}
    {path realPath : CString} {stbuf : Stat} (mode : Mode)
    (located : requestPath host settings world path = .ok realPath)
    (looked : host.lstat world realPath = .ok stbuf)
    (sets : ∀ mode, ∃ world', host.perform world (.chmod realPath mode) = .ok world' ∧
      HasBits host world' realPath (mode &&& 0o7777#32)) :
    ChmodConfined host settings realPath stbuf.st_mode mode
      ((bindfsChmod host settings path mode).exec world) := by
  have kept : HasBits host world realPath (stbuf.st_mode &&& 0o7777#32) := ⟨stbuf, looked, rfl⟩
  obtain ⟨result, after⟩ := exec_bindfsChmod mode located looked
  unfold ChmodConfined
  rw [result, after]
  unfold chmodByPolicy
  cases settings.chmod_policy with
  | normal =>
    obtain ⟨done, bits⟩ := exec_chmod_bits (sets (settings.chmod_permchain.apply mode))
    exact ⟨done, bits, apply_special_bits settings.chmod_permchain mode⟩
  | ignore =>
    by_cases executeOnly : settings.chmod_allow_x = true ∧ S_ISREG stbuf.st_mode = true
    · simp only [if_pos executeOnly]
      rw [← flipped_execute_bits]
      exact exec_chmod_bits (sets _)
    · simp only [if_neg executeOnly]
      exact ⟨rfl, kept⟩
  | deny =>
    by_cases executeOnly : settings.chmod_allow_x = true ∧ S_ISREG stbuf.st_mode = true
    · simp only [if_pos executeOnly]
      by_cases only : stbuf.st_mode &&& 0o7666#32 = mode &&& 0o7666#32
      · rw [if_pos ((no_other_difference_iff _ _).mpr only)]
        have done := exec_chmod_bits (sets mode)
        exact ⟨.inr done, iff_of_true done.1 ⟨executeOnly.1, executeOnly.2, only⟩⟩
      · rw [if_neg fun zero => only ((no_other_difference_iff _ _).mp zero)]
        exact ⟨.inl ⟨rfl, kept⟩, iff_of_false (fun done => by cases done) fun met => only met.2.2⟩
    · simp only [if_neg executeOnly]
      exact ⟨.inl ⟨rfl, kept⟩, iff_of_false (fun done => by cases done)
        fun met => executeOnly ⟨met.1, met.2.1⟩⟩

/-- Tables in which a change of mode shows. -/
def chmodHost : Host TableTree :=
  { tableHost with
    perform := fun tree c =>
      match c with
      | .chmod path mode => do
        let stbuf ← tableHost.lstat tree path
        let changed := (stbuf.st_mode &&& S_IFMT) ||| (mode &&& 0o7777#32)
        pure { tree with stats := (path, { stbuf with st_mode := changed }) :: tree.stats }
      | c => tableHost.perform tree c }

theorem permission_bits_of_changed (old mode : Mode) :
    ((old &&& S_IFMT) ||| (mode &&& 0o7777#32)) &&& 0o7777#32 = mode &&& 0o7777#32 := by
  apply BitVec.eq_of_getLsbD_eq
  intro i bound
  have apart : (S_IFMT.getLsbD i && (0o7777#32).getLsbD i) = false := by
    revert i
    decide
  simp only [BitVec.getLsbD_and, BitVec.getLsbD_or]
  cases permission : (0o7777#32).getLsbD i with
  | true =>
    rw [permission, Bool.and_true] at apart
    simp [apart]
  | false => simp

/-- A mount that denies changes of other bits than execute bits. -/
def denySettings : Settings :=
  { initialSettings 0#32 with chmod_policy := .deny, chmod_allow_x := true }

/-- A tree with a script that is not executable yet. -/
def scriptTree : TableTree :=
  { TableTree.empty with stats := [(['a'], sampleStat 1000#32 1000#32 (S_IFREG ||| 0o644#32))] }

theorem chmodHost_sets_bits (mode : Mode) :
    ∃ world', chmodHost.perform scriptTree (.chmod ['a'] mode) = .ok world' ∧
      HasBits chmodHost world' ['a'] (mode &&& 0o7777#32) :=
  ⟨_, rfl, _, rfl, permission_bits_of_changed _ mode⟩

theorem chmod_policies_confine_of_script :
    requestPath chmodHost denySettings scriptTree ['/', 'a'] = .ok ['a'] ∧
    chmodHost.lstat scriptTree ['a'] = .ok (sampleStat 1000#32 1000#32 (S_IFREG ||| 0o644#32)) ∧
    (∀ mode, ∃ world', chmodHost.perform scriptTree (.chmod ['a'] mode) = .ok world' ∧
      HasBits chmodHost world' ['a'] (mode &&& 0o7777#32)) ∧
    ChmodConfined chmodHost denySettings ['a'] (S_IFREG ||| 0o644#32) 0o100755#32
      ((bindfsChmod chmodHost denySettings ['/', 'a'] 0o100755#32).exec scriptTree) :=
  ⟨rfl, rfl, chmodHost_sets_bits, chmod_policies_confine _ rfl rfl chmodHost_sets_bits⟩

-- adding execute bits is let through, adding a write bit as well is not
example : ((bindfsChmod chmodHost denySettings ['/', 'a'] 0o100755#32).exec scriptTree).result =
      .ok () ∧
    ((bindfsChmod chmodHost denySettings ['/', 'a'] 0o100775#32).exec scriptTree).result =
      .error .eperm := by decide

end Bindfs.Guarantees.ChangeRequests
