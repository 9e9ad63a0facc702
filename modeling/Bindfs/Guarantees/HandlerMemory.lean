import Bindfs.Source.HandlerMemorySpecs
import Bindfs.Source.Main
import Bindfs.Source.TableHost

/-!
# The memory of a mount

A mount runs for a long time, and its handlers have many ways out. `sessions_balance_memory` says
that none of them leaks a string, a buffer, a stream, a descriptor or a mapping, frees one twice
or uses one that it has freed, and that no transfer goes beyond the end of its mapping. What the
handlers answer is what they answer in the model without memory.
-/
namespace Bindfs.Guarantees.HandlerMemory
open Bindfs.Source Bindfs.Lib.Effects Bindfs.Lib.OwnedCells

theorem parseAlignment_ne_zero {arg : CString} {alignment : Nat}
    (parsed : parseAlignment (some arg) = .ok alignment) : alignment ≠ 0 := by
  unfold parseAlignment at parsed
  obtain ⟨_, -, parsed⟩ := bind_ok_iff.mp parsed
  obtain ⟨_, positive, parsed⟩ := bind_ok_iff.mp parsed
  cases parsed
  exact of_decide_eq_true (check_ok_iff.mp positive)

/-- Whoever forwards O_DIRECT knows an alignment. -/
theorem aligned_of_main {system : System} {commandLine : CommandLine} {settings : Settings}
    (accepted : main system commandLine = .ok settings) :
    settings.forward_odirect = true → settings.odirect_alignment ≠ 0 := by
  unfold main at accepted
  obtain ⟨⟨_, mntsrc⟩, -, accepted⟩ := bind_ok_iff.mp accepted
  obtain ⟨newUid, -, accepted⟩ := bind_ok_iff.mp accepted
  obtain ⟨newGid, -, accepted⟩ := bind_ok_iff.mp accepted
  obtain ⟨-, -, accepted⟩ := bind_ok_iff.mp accepted
  obtain ⟨-, -, accepted⟩ := bind_ok_iff.mp accepted
  obtain ⟨maps, -, accepted⟩ := bind_ok_iff.mp accepted
  obtain ⟨uidOffset, -, accepted⟩ := bind_ok_iff.mp accepted
  obtain ⟨gidOffset, -, accepted⟩ := bind_ok_iff.mp accepted
  obtain ⟨alignment, parsed, accepted⟩ := bind_ok_iff.mp accepted
  obtain ⟨createForUid, -, accepted⟩ := bind_ok_iff.mp accepted
  obtain ⟨createForGid, -, accepted⟩ := bind_ok_iff.mp accepted
  obtain ⟨⟨mirroredUsersOnly, mirrored⟩, -, accepted⟩ := bind_ok_iff.mp accepted
  obtain ⟨permchain, -, accepted⟩ := bind_ok_iff.mp accepted
  obtain ⟨createPermchain, -, accepted⟩ := bind_ok_iff.mp accepted
  obtain ⟨chmodPermchain, -, accepted⟩ := bind_ok_iff.mp accepted
  obtain ⟨deletionPolicy, -, accepted⟩ := bind_ok_iff.mp accepted
  obtain ⟨-, -, accepted⟩ := bind_ok_iff.mp accepted
  obtain ⟨-, -, accepted⟩ := bind_ok_iff.mp accepted
  cases accepted
  intro forwarded
  obtain ⟨arg, given⟩ := Option.isSome_iff_exists.mp forwarded
  rw [given] at parsed
  exact parseAlignment_ne_zero parsed

section
variable {W : Type} {host : Host W} {settings : Settings}

/-- One request leaves the heap with the contents it found. -/
theorem request_balances (aligned : settings.forward_odirect = true → settings.odirect_alignment ≠ 0)
    (within : ReadsWithin host) (fc : FuseContext) (request : Request) (world : W) {heap : Heap Cell}
    (valid : heap.Valid) :
    ∃ heap', ((serveInMemory host settings fc request).exec (world, heap)).world =
        (((serve host settings fc request).exec world).world, heap') ∧
      ((serveInMemory host settings fc request).exec (world, heap)).result =
        ((serve host settings fc request).exec world).result ∧
      heap'.Valid ∧ heap'.contents = heap.contents := by
  have served := balanced_serve host settings aligned within fc request world heap heap.contents valid
    (split_nil heap.contents)
  revert served
  generalize (serveInMemory host settings fc request).exec (world, heap) = outcome
  generalize (serve host settings fc request).exec world = plain
  intro served
  obtain ⟨result, ⟨world', heap'⟩, calls⟩ := outcome
  obtain ⟨result', world'', calls'⟩ := plain
  obtain ⟨rfl, rfl, valid', cells, ends, split⟩ := served
  cases ends with
  | ok values =>
    obtain ⟨rfl, rfl⟩ := values
    exact ⟨heap', rfl, rfl, valid', split.eq_of_nil⟩
  | error left =>
    subst left
    exact ⟨heap', rfl, rfl, valid', split.eq_of_nil⟩

end

/-- For every command line that is accepted: a session of any requests by any callers computes
in memory what the handlers compute without it, misuses no memory and ends with the heap
contents it began with. -/
theorem sessions_balance_memory {system : System} {commandLine : CommandLine} {settings : Settings}
    (accepted : main system commandLine = .ok settings) {W : Type} (host : Host W) (within : ReadsWithin host)
    (visits : List (FuseContext × Request)) (world : W) {heap : Heap Cell} (valid : heap.Valid) :
    (sessionInMemory host settings visits (world, heap)).1.1 = (session host settings visits world).1 ∧
      (sessionInMemory host settings visits (world, heap)).2 = (session host settings visits world).2 ∧
      (sessionInMemory host settings visits (world, heap)).1.2.misused = false ∧
      (sessionInMemory host settings visits (world, heap)).1.2.contents = heap.contents := by
  have aligned := aligned_of_main accepted
  induction visits generalizing world heap with
  | nil => exact ⟨rfl, rfl, valid.unmisused, rfl⟩
  | cons visit rest ih =>
    obtain ⟨fc, request⟩ := visit
    obtain ⟨heap', reached, answered, valid', contents⟩ := request_balances aligned within fc request world valid
    obtain ⟨worlds, replies, unmisused, balanced⟩ :=
      ih ((serve host settings fc request).exec world).world valid'
    simp only [sessionInMemory, session, reached, answered, worlds, replies, unmisused, true_and]
    exact balanced.trans contents

/-- `bindfs --forward-odirect=4096 --resolve-symlinks /s /m`. -/
def directLine : CommandLine where
  od := { OptionData.empty with forward_odirect := some "4096".toList }
  calls := [(.resolveSymlinks, []), (.nonoption, ['/', 's']), (.nonoption, ['/', 'm'])]
  malformed := false

/-- A directory with one link is read, and then a file with O_DIRECT. -/
theorem sessions_balance_memory_of_direct_io : ∃ settings, main rootSystem directLine = .ok settings ∧
    (sessionInMemory tableHost settings
      [(⟨1, 1⟩, .readdir ['/'] (fun _ => .ok ()) true), (⟨1, 1⟩, .read 3 O_DIRECT 100 0)]
      (⟨[(['.', '/', 'a'], sampleStat 0 0 0o120777#32)], [(['.'], .ok ['.'])],
        [(['.'], [⟨['a'], .lnk⟩])], [], []⟩, Heap.empty Cell)).1.2.misused = false := by
  have accepted : ∃ settings, main rootSystem directLine = .ok settings := ⟨_, rfl⟩
  obtain ⟨settings, accepted⟩ := accepted
  have within : ReadsWithin tableHost := by
    intro world fd size offset data world' read
    cases read
    exact Nat.zero_le _
  exact ⟨settings, accepted, (sessions_balance_memory accepted tableHost within _ _
    ⟨rfl, fun _ _ => rfl⟩).2.2.1⟩

end Bindfs.Guarantees.HandlerMemory
