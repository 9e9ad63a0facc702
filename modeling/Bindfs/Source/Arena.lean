import Mathlib.Data.Nat.Basic
import Bindfs.Lib.HeapCells
import Bindfs.Source.MemoryBlock

/-!
# arena.c: allocations that are freed together

Blocks live in a heap, by address, and are linked through `next`; sums and differences are those
of `size_t`. `malloc` is a parameter: it is given what the arena has allocated and not freed, and
the number of bytes, and answers with an address or NULL. `LawfulMalloc` is what the C standard
says of it: the bytes it answers with are in the address space, past-the-end pointer included,
and no part of another live allocation.

The source does not check for NULL, and then writes through it: one of the faults
(`ArenaFault`). The others are a dereference or a `free` of an address that is not live, and an
allocation too small for the header.

`ArenaState.Sound` is what every call keeps, together with the regions handed out so far.
-/
namespace Bindfs.Source
open Bindfs.Lib.HeapCells

def NULL : Nat := 0

/-- `struct block`, with the number of bytes that `malloc` was asked for. -/
structure Block where
  bytes : Nat
  size : Nat
  used : Nat
  next : Nat
  deriving DecidableEq, Repr

/-- `sizeof(struct block)`, and the offset of `data_start`. -/
def sizeofBlock : Nat := 24

def minBlockRoom : Nat := 16 * 1024 - sizeofBlock

structure ArenaState where
  heap : List (Nat × Block)
  curBlock : Nat
  deriving DecidableEq, Repr

inductive ArenaFault where
  | nullBlock | notLive | outOfBounds
  deriving DecidableEq, Repr

def allocation (cell : Nat × Block) : Extent Nat := ⟨cell.1, cell.1 + cell.2.bytes⟩

abbrev Malloc := List (Extent Nat) → Nat → Nat

section
variable (malloc : Malloc)

def addBlock (a : ArenaState) (roomWanted : Nat) : Except ArenaFault ArenaState :=
  let roomWanted := if roomWanted < minBlockRoom then minBlockRoom else roomWanted
  let bytes := (sizeofBlock + roomWanted) % 2 ^ 64
  let newBlock := malloc (a.heap.map allocation) bytes
  if newBlock = NULL then .error .nullBlock
  else if bytes < sizeofBlock then .error .outOfBounds
  else .ok ⟨(newBlock, ⟨bytes, roomWanted, 0, a.curBlock⟩) :: a.heap, newBlock⟩

def arenaInit : ArenaState := ⟨[], NULL⟩

def loadBlock (a : ArenaState) : Except ArenaFault Block :=
  match find a.heap a.curBlock with
  | some b => .ok b
  | none => .error .notLive

/-- The arena after `if (b == NULL || b->size - b->used < amount) add_block(a, amount);` -/
def makeRoom (a : ArenaState) (amount : Nat) : Except ArenaFault ArenaState :=
  if a.curBlock = NULL then addBlock malloc a amount
  else do
    let b ← loadBlock a
    if (b.size + (2 ^ 64 - b.used)) % 2 ^ 64 < amount then addBlock malloc a amount else pure a

def arenaMalloc (a : ArenaState) (amount : Nat) : Except ArenaFault (Nat × ArenaState) := do
  let a ← makeRoom malloc a amount
  let b ← loadBlock a
  let result := (a.curBlock + sizeofBlock + b.used) % 2 ^ 64
  let b := { b with used := (b.used + amount) % 2 ^ 64 }
  pure (result, { a with heap := put a.heap a.curBlock b })

/-- Any number of calls: the pointers they return, in order, and the arena afterwards. -/
def arenaRun (a : ArenaState) : List Nat → Except ArenaFault (List Nat × ArenaState)
  | [] => .ok ([], a)
  | amount :: rest => do
    let (result, a) ← arenaMalloc malloc a amount
    let (results, a) ← arenaRun a rest
    pure (result :: results, a)

end

/-- The loop of `arena_free`: the pointers it frees, in order, and the heap it leaves. -/
def freeBlocks (heap : List (Nat × Block)) (b : Nat) :
    Except ArenaFault (List Nat × List (Nat × Block)) :=
  if b = NULL then .ok ([], heap)
  else
    match _live : find heap b with
    | none => .error .notLive
    | some block => do
      let (freed, heap) ← freeBlocks (remove heap b) block.next
      pure (b :: freed, heap)
termination_by heap.length
decreasing_by exact length_remove _live

def arenaFree (a : ArenaState) : Except ArenaFault (List Nat × ArenaState) := do
  let (freed, heap) ← freeBlocks a.heap a.curBlock
  pure (freed, ⟨heap, NULL⟩)

/-! ## What every call keeps -/

structure LawfulMalloc (malloc : Malloc) : Prop where
  inside (live : List (Extent Nat)) (bytes : Nat) :
    malloc live bytes ≠ NULL → malloc live bytes + bytes ≤ SIZE_MAX
  apart (live : List (Extent Nat)) (bytes : Nat) :
    malloc live bytes ≠ NULL → ∀ e ∈ live, Extent.Apart ⟨malloc live bytes, malloc live bytes + bytes⟩ e

/-- The bytes behind the header, and those of them that are handed out. -/
def dataArea (cell : Nat × Block) : Extent Nat :=
  ⟨cell.1 + sizeofBlock, cell.1 + sizeofBlock + cell.2.size⟩

def usedArea (cell : Nat × Block) : Extent Nat :=
  ⟨cell.1 + sizeofBlock, cell.1 + sizeofBlock + cell.2.used⟩

structure SoundBlock (cell : Nat × Block) : Prop where
  bytes_eq : cell.2.bytes = sizeofBlock + cell.2.size
  inside : cell.1 + cell.2.bytes ≤ SIZE_MAX
  used_le : cell.2.used ≤ cell.2.size

structure ArenaState.Sound (a : ArenaState) (regions : List (Extent Nat)) : Prop where
  linked : Linked Block.next NULL a.curBlock a.heap
  blocks : ∀ cell ∈ a.heap, SoundBlock cell
  apart : (a.heap.map allocation).Pairwise Extent.Apart
  placed : ∀ region ∈ regions, ∃ cell ∈ a.heap, region.Within (usedArea cell)
  disjoint : regions.Pairwise Extent.Apart

theorem sound_arenaInit : arenaInit.Sound [] :=
  { linked := .stop
    blocks := by simp [arenaInit]
    apart := .nil
    placed := by simp
    disjoint := .nil }

theorem SoundBlock.usedArea_within {cell : Nat × Block} (sound : SoundBlock cell) :
    (usedArea cell).Within (dataArea cell) := by
  have used := sound.used_le
  refine ⟨Nat.le_refl _, ?_⟩
  simp only [usedArea, dataArea]
  omega

theorem SoundBlock.dataArea_within {cell : Nat × Block} (sound : SoundBlock cell) :
    (dataArea cell).Within (allocation cell) := by
  have bytes := sound.bytes_eq
  refine ⟨Nat.le_add_right _ _, ?_⟩
  simp only [dataArea, allocation]
  omega

/-- The current block has room for `amount` bytes. -/
def HasRoom (a : ArenaState) (amount : Nat) : Prop :=
  ∃ b rest, a.heap = (a.curBlock, b) :: rest ∧ b.used + amount ≤ b.size

section
variable {malloc : Malloc} {a : ArenaState} {regions : List (Extent Nat)}

/-- Bytes that are apart from every allocation start at a new address. -/
theorem ArenaState.Sound.fresh (sound : a.Sound regions) {address bytes : Nat} (positive : 0 < bytes)
    (away : ∀ e ∈ a.heap.map allocation, Extent.Apart ⟨address, address + bytes⟩ e) :
    address ∉ addresses a.heap := by
  intro member
  obtain ⟨cell, live, same⟩ := List.mem_map.mp member
  have header := (sound.blocks cell live).bytes_eq
  have apart := away _ (List.mem_map_of_mem live)
  simp only [Extent.Apart, allocation, same, header, sizeofBlock] at apart
  omega

theorem ArenaState.Sound.push (sound : a.Sound regions) {address room : Nat} (valid : address ≠ NULL)
    (inside : address + (sizeofBlock + room) ≤ SIZE_MAX)
    (away : ∀ e ∈ a.heap.map allocation,
      Extent.Apart ⟨address, address + (sizeofBlock + room)⟩ e) :
    ArenaState.Sound ⟨(address, ⟨sizeofBlock + room, room, 0, a.curBlock⟩) :: a.heap, address⟩
      regions := by
  have positive : 0 < sizeofBlock + room := Nat.lt_add_right room (by decide)
  refine
    { linked := .link valid (sound.fresh positive away) sound.linked
      blocks := List.forall_mem_cons.mpr ⟨⟨rfl, inside, Nat.zero_le _⟩, sound.blocks⟩
      apart := List.pairwise_cons.mpr ⟨away, sound.apart⟩
      placed := fun region member => ?_
      disjoint := sound.disjoint }
  obtain ⟨cell, live, within⟩ := sound.placed region member
  exact ⟨cell, List.mem_cons_of_mem _ live, within⟩

theorem addBlock_sound (lawful : LawfulMalloc malloc) (sound : a.Sound regions) {amount : Nat}
    (small : amount + sizeofBlock ≤ SIZE_MAX) :
    addBlock malloc a amount = .error .nullBlock ∨
      ∃ after, addBlock malloc a amount = .ok after ∧ after.Sound regions ∧ HasRoom after amount ∧
        addresses a.heap <:+ addresses after.heap := by
  unfold addBlock
  dsimp only
  generalize wanted : (if amount < minBlockRoom then minBlockRoom else amount) = room
  have enough : amount ≤ room := by
    rw [← wanted]
    split <;> omega
  have fits : sizeofBlock + room ≤ SIZE_MAX := by
    rw [← wanted]
    split
    · decide
    · omega
  have unwrapped : (sizeofBlock + room) % 2 ^ 64 = sizeofBlock + room := by
    simp only [SIZE_MAX] at fits
    omega
  rw [unwrapped]
  by_cases failed : malloc (a.heap.map allocation) (sizeofBlock + room) = NULL
  · exact .inl (if_pos failed)
  · right
    refine ⟨_, by rw [if_neg failed, if_neg (by omega)], ?_, ⟨_, _, rfl, by simpa using enough⟩,
      List.suffix_cons _ _⟩
    exact sound.push failed (lawful.inside _ _ failed) (lawful.apart _ _ failed)

theorem loadBlock_head {b : Block} {rest : List (Nat × Block)}
    (head : a.heap = (a.curBlock, b) :: rest) : loadBlock a = .ok b := by
  simp [loadBlock, head]

/-- The test of `arena_malloc` is exact: `used` never exceeds `size`, and the difference does not wrap. -/
theorem makeRoom_sound (lawful : LawfulMalloc malloc) (sound : a.Sound regions) {amount : Nat}
    (small : amount + sizeofBlock ≤ SIZE_MAX) :
    makeRoom malloc a amount = .error .nullBlock ∨
      ∃ after, makeRoom malloc a amount = .ok after ∧ after.Sound regions ∧ HasRoom after amount ∧
        addresses a.heap <:+ addresses after.heap := by
  unfold makeRoom
  by_cases empty : a.curBlock = NULL
  · rw [if_pos empty]
    exact addBlock_sound lawful sound small
  · obtain ⟨b, rest, head, -, -⟩ := sound.linked.head empty
    have block := sound.blocks (a.curBlock, b) (by simp [head])
    have bytes := block.bytes_eq
    have inside := block.inside
    have used := block.used_le
    dsimp only at bytes inside used
    have left : (b.size + (2 ^ 64 - b.used)) % 2 ^ 64 = b.size - b.used := by
      simp only [SIZE_MAX, sizeofBlock] at bytes inside
      omega
    simp only [if_neg empty, loadBlock_head head, bind, Except.bind, pure, Except.pure, left]
    by_cases full : b.size - b.used < amount
    · rw [if_pos full]
      exact addBlock_sound lawful sound small
    · rw [if_neg full]
      exact .inr ⟨a, rfl, sound, ⟨b, rest, head, by omega⟩, List.suffix_refl _⟩

/-- The bytes that a call takes from the block at `p`. -/
def taken (p : Nat) (b : Block) (amount : Nat) : Extent Nat :=
  ⟨p + sizeofBlock + b.used, p + sizeofBlock + b.used + amount⟩

theorem taken_within_allocation {p amount : Nat} {b : Block} (block : SoundBlock (p, b))
    (fits : b.used + amount ≤ b.size) : (taken p b amount).Within (allocation (p, b)) := by
  have bytes := block.bytes_eq
  simp only [Extent.Within, allocation, taken] at bytes ⊢
  omega

theorem usedArea_taken (p : Nat) (b : Block) (amount : Nat) :
    (usedArea (p, b)).Within (usedArea (p, { b with used := b.used + amount })) ∧
      (taken p b amount).Within (usedArea (p, { b with used := b.used + amount })) := by
  simp only [Extent.Within, usedArea, taken]
  omega

/-- Moving `used` on hands out the bytes behind what was handed out before. -/
theorem sound_bump {b : Block} {rest : List (Nat × Block)} {amount : Nat} (sound : a.Sound regions)
    (head : a.heap = (a.curBlock, b) :: rest) (fits : b.used + amount ≤ b.size) :
    ArenaState.Sound ⟨(a.curBlock, { b with used := b.used + amount }) :: rest, a.curBlock⟩
      (regions ++ [taken a.curBlock b amount]) := by
  obtain ⟨linked, blocks, apart, placed, disjoint⟩ := sound
  rw [head] at linked blocks apart
  simp only [head] at placed
  rw [List.forall_mem_cons] at blocks
  rw [List.map_cons, List.pairwise_cons] at apart
  have block := blocks.1
  obtain ⟨grown, new_within⟩ := usedArea_taken a.curBlock b amount
  refine ⟨linked.replace rfl, ?_, List.pairwise_cons.mpr apart, ?_, ?_⟩
  · exact List.forall_mem_cons.mpr ⟨⟨block.bytes_eq, block.inside, fits⟩, blocks.2⟩
  · intro region member
    rcases List.mem_append.mp member with old | new
    · obtain ⟨cell, live, within⟩ := placed region old
      rcases List.mem_cons.mp live with rfl | other
      · exact ⟨_, List.mem_cons_self, within.trans grown⟩
      · exact ⟨cell, List.mem_cons_of_mem _ other, within⟩
    · rw [List.mem_singleton.mp new]
      exact ⟨_, List.mem_cons_self, new_within⟩
  · refine List.pairwise_append.mpr ⟨disjoint, List.pairwise_singleton _ _, ?_⟩
    intro region old new member
    rw [List.mem_singleton.mp member]
    obtain ⟨cell, live, within⟩ := placed region old
    rcases List.mem_cons.mp live with rfl | other
    · exact .inl within.2
    · have sound := blocks.2 cell other
      have whole := within.trans (sound.usedArea_within.trans sound.dataArea_within)
      have away := (apart.1 _ (List.mem_map_of_mem other)).symm
      exact away.within whole (taken_within_allocation block fits)

theorem arenaMalloc_sound (lawful : LawfulMalloc malloc) (sound : a.Sound regions) {amount : Nat}
    (small : amount + sizeofBlock ≤ SIZE_MAX) :
    arenaMalloc malloc a amount = .error .nullBlock ∨
      ∃ result after, arenaMalloc malloc a amount = .ok (result, after) ∧
        after.Sound (regions ++ [⟨result, result + amount⟩]) ∧
        addresses a.heap <:+ addresses after.heap := by
  rcases makeRoom_sound lawful sound small with failed | ⟨ready, made, sound, room, kept⟩
  · left
    simp [arenaMalloc, failed, bind, Except.bind]
  · right
    obtain ⟨b, rest, head, fits⟩ := room
    have block := sound.blocks (ready.curBlock, b) (by simp [head])
    have bytes := block.bytes_eq
    have inside := block.inside
    simp only [SIZE_MAX, sizeofBlock] at bytes inside
    have once : ready.curBlock ∉ addresses rest := by
      have distinct := sound.linked.nodup
      rw [head] at distinct
      exact (List.nodup_cons.mp distinct).1
    have pointer : (ready.curBlock + sizeofBlock + b.used) % 2 ^ 64 =
        ready.curBlock + sizeofBlock + b.used := by
      simp only [sizeofBlock]
      omega
    have used : (b.used + amount) % 2 ^ 64 = b.used + amount := by omega
    refine ⟨_, _, ?_, sound_bump sound head fits, ?_⟩
    · simp only [arenaMalloc, made, loadBlock_head head, bind, Except.bind, pure, Except.pure, pointer,
        used, head, put_head once]
    · rwa [head] at kept

/-- The regions of a run, from the pointers and the amounts of its calls. -/
def regionsOf (results amounts : List Nat) : List (Extent Nat) :=
  results.zipWith (fun result amount => ⟨result, result + amount⟩) amounts

theorem arenaRun_sound (lawful : LawfulMalloc malloc) (amounts : List Nat)
    (small : ∀ amount ∈ amounts, amount + sizeofBlock ≤ SIZE_MAX) (sound : a.Sound regions) :
    arenaRun malloc a amounts = .error .nullBlock ∨
      ∃ results after, arenaRun malloc a amounts = .ok (results, after) ∧
        results.length = amounts.length ∧ after.Sound (regions ++ regionsOf results amounts) ∧
        addresses a.heap <:+ addresses after.heap := by
  induction amounts generalizing a regions with
  | nil => exact .inr ⟨[], a, rfl, rfl, by simpa [regionsOf] using sound, List.suffix_refl _⟩
  | cons amount rest ih =>
    rw [List.forall_mem_cons] at small
    rcases arenaMalloc_sound lawful sound small.1 with failed | ⟨result, next, called, sound, kept⟩
    · left
      simp [arenaRun, failed, bind, Except.bind]
    · rcases ih small.2 sound with failed | ⟨results, after, ran, count, sound, kept'⟩
      · left
        simp [arenaRun, called, failed, bind, Except.bind]
      · right
        refine ⟨result :: results, after, ?_, by simp [count], ?_, kept.trans kept'⟩
        · simp [arenaRun, called, ran, bind, Except.bind, pure, Except.pure]
        · simpa [regionsOf] using sound

/-- A longer run goes on where a shorter one stopped. -/
theorem arenaRun_append (front rest : List Nat) :
    arenaRun malloc a (front ++ rest) = (do
      let (earlier, before) ← arenaRun malloc a front
      let (later, after) ← arenaRun malloc before rest
      pure (earlier ++ later, after)) := by
  induction front generalizing a with
  | nil =>
    simp only [List.nil_append, arenaRun, bind, Except.bind]
    cases arenaRun malloc a rest <;> rfl
  | cons amount front ih =>
    simp only [List.cons_append, arenaRun, ih, bind, Except.bind]
    cases arenaMalloc malloc a amount with
    | error fault => rfl
    | ok called =>
      dsimp only
      cases arenaRun malloc called.2 front with
      | error fault => rfl
      | ok ran =>
        dsimp only [pure, Except.pure]
        cases arenaRun malloc ran.2 rest <;> rfl

end

/-! ## Freeing -/

/-- The loop meets every block of a linked heap once and leaves nothing behind. -/
theorem freeBlocks_linked {heap : List (Nat × Block)} {b : Nat}
    (linked : Linked Block.next NULL b heap) : freeBlocks heap b = .ok (addresses heap, []) := by
  induction linked with
  | stop =>
    rw [freeBlocks, if_pos rfl]
    rfl
  | @link b block rest valid once linked ih =>
    rw [freeBlocks, if_neg valid]
    split
    · rename_i gone
      rw [find_head] at gone
      cases gone
    · rename_i live
      rw [find_head] at live
      cases live
      rw [remove_head once, ih]
      rfl

theorem ArenaState.Sound.arenaFree_eq {a : ArenaState} {regions : List (Extent Nat)}
    (sound : a.Sound regions) : arenaFree a = .ok (addresses a.heap, arenaInit) := by
  simp [arenaFree, freeBlocks_linked sound.linked, bind, Except.bind, pure, Except.pure, arenaInit]

end Bindfs.Source
