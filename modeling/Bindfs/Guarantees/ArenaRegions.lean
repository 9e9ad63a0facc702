import Bindfs.Source.Arena

/-!
# Regions of an arena

Whatever amounts are asked for, in whatever order: the regions an arena hands out lie in the data
areas of its blocks and never overlap, and `arena_free` gives every block back once. The room of
a block is an unsigned difference; it is the room there is because `used` never passes `size`.
-/
namespace Bindfs.Guarantees.ArenaRegions
open Bindfs.Source
open Bindfs.Lib.HeapCells

section
variable {malloc : Malloc} {amounts : List Nat}

/-- A run that `malloc` does not fail in ends, with everything in order. -/
theorem run_sound (lawful : LawfulMalloc malloc)
    (small : ∀ amount ∈ amounts, amount + sizeofBlock ≤ SIZE_MAX)
    (succeeds : arenaRun malloc arenaInit amounts ≠ .error .nullBlock) :
    ∃ results a, arenaRun malloc arenaInit amounts = .ok (results, a) ∧
      results.length = amounts.length ∧ a.Sound (regionsOf results amounts) := by
  rcases arenaRun_sound lawful amounts small sound_arenaInit with failed | ⟨results, a, ran, count, sound, -⟩
  · exact absurd failed succeeds
  · exact ⟨results, a, ran, count, by simpa using sound⟩

/-- A block that has been added is never lost: what the arena held after the first calls it
holds after all of them. -/
theorem blocks_kept {front rest results : List Nat} {a : ArenaState} (lawful : LawfulMalloc malloc)
    (small : ∀ amount ∈ front ++ rest, amount + sizeofBlock ≤ SIZE_MAX)
    (ran : arenaRun malloc arenaInit (front ++ rest) = .ok (results, a)) :
    ∃ earlier before, arenaRun malloc arenaInit front = .ok (earlier, before) ∧
      addresses before.heap <:+ addresses a.heap := by
  rw [List.forall_mem_append] at small
  rw [arenaRun_append] at ran
  rcases arenaRun_sound lawful front small.1 sound_arenaInit with
    failed | ⟨earlier, before, first, -, sound, -⟩
  · rw [failed] at ran
    cases ran
  · refine ⟨earlier, before, first, ?_⟩
    rw [first] at ran
    rcases arenaRun_sound lawful rest small.2 sound with failed | ⟨later, after, second, -, -, kept⟩
    · simp [failed, bind, Except.bind] at ran
    · simp only [second, bind, Except.bind, pure, Except.pure, Except.ok.injEq, Prod.mk.injEq] at ran
      rw [← ran.2]
      exact kept

end

/-- As long as `malloc` succeeds, a run of calls returns regions in data areas and apart from each
other. Blocks that were there at any time are there at the end, and freed once each. -/
theorem arena_regions_apart {malloc : Malloc} (lawful : LawfulMalloc malloc) (amounts : List Nat)
    (small : ∀ amount ∈ amounts, amount + sizeofBlock ≤ SIZE_MAX)
    (succeeds : arenaRun malloc arenaInit amounts ≠ .error .nullBlock) :
    ∃ results a, arenaRun malloc arenaInit amounts = .ok (results, a) ∧
      results.length = amounts.length ∧
      (∀ region ∈ regionsOf results amounts, ∃ cell ∈ a.heap, region.Within (dataArea cell)) ∧
      (regionsOf results amounts).Pairwise Extent.Apart ∧
      (∀ cell ∈ a.heap, cell.2.used ≤ cell.2.size) ∧
      (∀ front rest, amounts = front ++ rest → ∃ earlier before,
        arenaRun malloc arenaInit front = .ok (earlier, before) ∧
          addresses before.heap <:+ addresses a.heap) ∧
      arenaFree a = .ok (addresses a.heap, arenaInit) ∧ (addresses a.heap).Nodup := by
  obtain ⟨results, a, ran, count, sound⟩ := run_sound lawful small succeeds
  refine ⟨results, a, ran, count, ?_, sound.disjoint, ?_, ?_, sound.arenaFree_eq, sound.linked.nodup⟩
  · intro region member
    obtain ⟨cell, live, within⟩ := sound.placed region member
    exact ⟨cell, live, within.trans (sound.blocks cell live).usedArea_within⟩
  · intro cell live
    exact (sound.blocks cell live).used_le
  · intro front rest split
    subst split
    exact blocks_kept lawful small ran

/-- An allocator that goes upwards in steps of 16 bytes. -/
def upwards : Malloc := fun live bytes =>
  let top := live.foldr (fun e top => max e.last top) 4096
  let address := (top + 15) / 16 * 16
  if address + bytes ≤ SIZE_MAX then address else NULL

theorem le_top (live : List (Extent Nat)) (start : Nat) :
    ∀ e ∈ live, e.last ≤ live.foldr (fun e top => max e.last top) start := by
  induction live with
  | nil => simp
  | cons e live ih =>
    rw [List.forall_mem_cons, List.foldr_cons]
    exact ⟨Nat.le_max_left _ _, fun f member => Nat.le_trans (ih f member) (Nat.le_max_right _ _)⟩

theorem upwards_spec {live : List (Extent Nat)} {bytes : Nat} (valid : upwards live bytes ≠ NULL) :
    live.foldr (fun e top => max e.last top) 4096 ≤ upwards live bytes ∧
      upwards live bytes + bytes ≤ SIZE_MAX := by
  unfold upwards at valid ⊢
  dsimp only at valid ⊢
  split
  · omega
  · rename_i large
    rw [if_neg large] at valid
    exact absurd rfl valid

theorem lawful_upwards : LawfulMalloc upwards := by
  refine ⟨fun live bytes valid => (upwards_spec valid).2, fun live bytes valid e member => .inr ?_⟩
  exact Nat.le_trans (le_top live 4096 e member) (upwards_spec valid).1

/-- Requests that share a block, exceed what is left of one and exceed a whole one. -/
theorem arena_regions_apart_of_requests :
    ∃ results a, arenaRun upwards arenaInit [100, 16300, 20000, 0, 40] = .ok (results, a) ∧
      (regionsOf results [100, 16300, 20000, 0, 40]).Pairwise Extent.Apart ∧
      arenaFree a = .ok (addresses a.heap, arenaInit) := by
  obtain ⟨results, a, ran, -, -, apart, -, -, freed, -⟩ := arena_regions_apart lawful_upwards
    [100, 16300, 20000, 0, 40] (by decide) (by decide +kernel)
  exact ⟨results, a, ran, apart, freed⟩

end Bindfs.Guarantees.ArenaRegions
