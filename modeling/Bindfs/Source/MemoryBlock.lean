import Bindfs.Source.Types

/-!
# misc.c: memory blocks and growing arrays

A step without a result (`none`) is an `abort`, an access outside an allocation or to bytes
never written, or a value that does not fit the `int` it is computed in or stored in. `malloc`
and `realloc` succeed; memory they add holds nothing yet.

A block that holds some bytes (`Holds`) has them at the start of its allocation. Appending
keeps what was there and adds the new bytes after it.
-/
namespace Bindfs.Source

def INT_MAX : Nat := 2 ^ 31 - 1
def SIZE_MAX : Nat := 2 ^ 64 - 1

def storeInt (value : Nat) : Option Nat := if value ≤ INT_MAX then some value else none

/-! ## Memory blocks -/

/-- `struct memory_block`: the allocation behind `ptr`, and the size. -/
structure MemoryBlock (β : Type) where
  cells : List (Option β)
  size : Nat

section
variable {β : Type}

def MemoryBlock.capacity (a : MemoryBlock β) : Nat := a.cells.length

def initMemoryBlock (initialCapacity : Nat) : MemoryBlock β :=
  ⟨List.replicate initialCapacity none, 0⟩

/-- The doubling loop of `grow_memory_block`; `none` is "Memory block too large". -/
def newCapacity (newCap size : Nat) : Option Nat :=
  if newCap < size then
    if newCap = 0 then newCapacity 8 size
    else if newCap > SIZE_MAX / 2 then none
    else newCapacity (newCap * 2) size
  else some newCap
  termination_by size - newCap

def growMemoryBlock (a : MemoryBlock β) (amount : Nat) : Option (MemoryBlock β) :=
  let size := (a.size + amount) % 2 ^ 64
  if size ≥ a.capacity then do
    let newCap ← newCapacity a.capacity size
    pure ⟨a.cells ++ List.replicate (newCap - a.capacity) none, size⟩
  else some { a with size := size }

/-- A store of some bytes inside the allocation. -/
def MemoryBlock.write (a : MemoryBlock β) (offset : Nat) (src : List β) : Option (MemoryBlock β) :=
  if offset + src.length ≤ a.capacity then
    some { a with cells := a.cells.take offset ++ src.map some ++ a.cells.drop (offset + src.length) }
  else none

def appendToMemoryBlock (a : MemoryBlock β) (src : List β) : Option (Nat × MemoryBlock β) := do
  let dest := a.size
  let a ← growMemoryBlock a src.length
  let a ← a.write dest src
  let offset ← storeInt dest
  pure (offset, a)

/-- A load of some bytes. -/
def MemoryBlock.read (a : MemoryBlock β) (offset count : Nat) : Option (List β) :=
  let part := (a.cells.drop offset).take count
  if part.length = count then part.mapM id else none

def scanString [DecidableEq β] (nul : β) : List (Option β) → Option (List β)
  | [] => none
  | none :: _ => none
  | some b :: rest => if b = nul then some [] else (scanString nul rest).map (b :: ·)

/-- The C string at an offset. -/
def MemoryBlock.readString [DecidableEq β] (nul : β) (a : MemoryBlock β) (offset : Nat) :
    Option (List β) :=
  scanString nul (a.cells.drop offset)

/-- The block holds these bytes and no others. -/
structure MemoryBlock.Holds (a : MemoryBlock β) (bytes : List β) : Prop where
  size_eq : a.size = bytes.length
  cells_eq : ∃ rest, a.cells = bytes.map some ++ rest

theorem holds_initMemoryBlock (initialCapacity : Nat) :
    (initMemoryBlock initialCapacity : MemoryBlock β).Holds [] :=
  ⟨rfl, _, rfl⟩

theorem newCapacity_total (newCap size : Nat) (small : size ≤ 2 ^ 63) :
    ∃ found, newCapacity newCap size = some found ∧ size ≤ found ∧ newCap ≤ found := by
  fun_induction newCapacity newCap size with
  | case1 less ih =>
    obtain ⟨found, ended, enough, -⟩ := ih
    exact ⟨found, ended, enough, Nat.zero_le found⟩
  | case2 newCap less nonzero large =>
    simp only [SIZE_MAX] at large
    omega
  | case3 newCap less nonzero room ih =>
    obtain ⟨found, ended, enough, grown⟩ := ih
    exact ⟨found, ended, enough, by omega⟩
  | case4 newCap less => exact ⟨newCap, rfl, by omega, Nat.le_refl newCap⟩

/-- Growing keeps the bytes and makes room for `amount` more. -/
theorem growMemoryBlock_spec {a : MemoryBlock β} {bytes : List β} (holds : a.Holds bytes) (amount : Nat)
    (small : bytes.length + amount ≤ 2 ^ 63) :
    ∃ grown, growMemoryBlock a amount = some grown ∧ grown.size = bytes.length + amount ∧
      grown.size ≤ grown.capacity ∧ ∃ rest, grown.cells = bytes.map some ++ rest := by
  obtain ⟨rest, cells⟩ := holds.cells_eq
  have noWrap : (a.size + amount) % 2 ^ 64 = bytes.length + amount := by
    rw [holds.size_eq, Nat.mod_eq_of_lt (by omega)]
  unfold growMemoryBlock
  rw [noWrap]
  by_cases full : bytes.length + amount ≥ a.capacity
  · obtain ⟨newCap, found, enough, -⟩ := newCapacity_total a.capacity _ small
    refine ⟨⟨a.cells ++ List.replicate (newCap - a.capacity) none, bytes.length + amount⟩, ?_, rfl, ?_,
      rest ++ List.replicate (newCap - a.capacity) none, ?_⟩
    · simp only [if_pos full, found]
      rfl
    · simp only [MemoryBlock.capacity, List.length_append, List.length_replicate] at full ⊢
      omega
    · simp only [cells, List.append_assoc]
  · refine ⟨{ a with size := bytes.length + amount }, if_neg full, rfl, ?_, rest, cells⟩
    simp only [MemoryBlock.capacity] at full ⊢
    omega

/-- A store behind the first bytes keeps them and overwrites what follows. -/
theorem MemoryBlock.write_behind {a : MemoryBlock β} {bytes : List β} {spare : List (Option β)}
    (cells : a.cells = bytes.map some ++ spare) (src : List β)
    (room : bytes.length + src.length ≤ a.capacity) :
    ∃ written, a.write bytes.length src = some written ∧ written.size = a.size ∧
      written.capacity = a.capacity ∧ ∃ rest, written.cells = (bytes ++ src).map some ++ rest := by
  refine ⟨_, if_pos room, rfl, ?_, a.cells.drop (bytes.length + src.length), ?_⟩
  · simp only [MemoryBlock.capacity, List.length_append, List.length_take, List.length_map,
      List.length_drop] at room ⊢
    omega
  · simp [cells]

/-- Filling the room after the bytes appends to them. -/
theorem MemoryBlock.write_spec {a : MemoryBlock β} {bytes rest : List β} {spare : List (Option β)}
    (cells : a.cells = bytes.map some ++ spare) (size : a.size = bytes.length + rest.length)
    (room : a.size ≤ a.capacity) :
    ∃ written, a.write bytes.length rest = some written ∧ written.Holds (bytes ++ rest) := by
  obtain ⟨written, wrote, same, -, after⟩ := MemoryBlock.write_behind cells rest (by omega)
  refine ⟨written, wrote, ?_, after⟩
  rw [same, size, List.length_append]

theorem appendToMemoryBlock_spec {a : MemoryBlock β} {bytes : List β} (holds : a.Holds bytes)
    (src : List β) (fits : bytes.length ≤ INT_MAX) (small : src.length ≤ INT_MAX) :
    ∃ grown, appendToMemoryBlock a src = some (bytes.length, grown) ∧ grown.Holds (bytes ++ src) := by
  simp only [INT_MAX] at fits small
  obtain ⟨grown, grew, size, room, spare, cells⟩ := growMemoryBlock_spec holds src.length (by omega)
  obtain ⟨written, wrote, after⟩ := MemoryBlock.write_spec cells size room
  refine ⟨written, ?_, after⟩
  have stored : storeInt bytes.length = some bytes.length := if_pos (by simp only [INT_MAX]; omega)
  unfold appendToMemoryBlock
  rw [holds.size_eq, grew]
  simp [wrote, stored]

/-- An offset beyond `INT_MAX` cannot be returned. -/
theorem appendToMemoryBlock_none {a : MemoryBlock β} {bytes : List β} (holds : a.Holds bytes)
    (src : List β) (large : ¬ bytes.length ≤ INT_MAX) : appendToMemoryBlock a src = none := by
  have lost : storeInt bytes.length = none := if_neg large
  unfold appendToMemoryBlock
  simp only [holds.size_eq, lost]
  cases growMemoryBlock a src.length with
  | none => rfl
  | some grown => cases grown.write bytes.length src <;> simp

theorem MemoryBlock.Holds.read_eq {a : MemoryBlock β} {before bytes after : List β}
    (holds : a.Holds (before ++ bytes ++ after)) :
    a.read before.length bytes.length = some bytes := by
  obtain ⟨rest, cells⟩ := holds.cells_eq
  have part : (a.cells.drop before.length).take bytes.length = bytes.map some := by
    simp [cells]
  have collected : ∀ loaded : List β, (loaded.map some).mapM id = some loaded := by
    intro loaded
    induction loaded with
    | nil => rfl
    | cons b loaded ih => simp [ih]
  unfold MemoryBlock.read
  rw [part]
  simp only [List.length_map, if_true]
  exact collected bytes

theorem scanString_eq [DecidableEq β] {nul : β} {string : List β} (free : nul ∉ string)
    (rest : List (Option β)) :
    scanString nul (string.map some ++ some nul :: rest) = some string := by
  induction string with
  | nil => simp [scanString]
  | cons b string ih =>
    have other : b ≠ nul := fun same => free (by simp [same])
    simp [scanString, other, ih fun member => free (by simp [member])]

theorem MemoryBlock.Holds.readString_eq [DecidableEq β] {nul : β} {a : MemoryBlock β}
    {before string after : List β} (holds : a.Holds (before ++ string ++ nul :: after))
    (free : nul ∉ string) : a.readString nul before.length = some string := by
  obtain ⟨rest, cells⟩ := holds.cells_eq
  have part : a.cells.drop before.length = string.map some ++ some nul :: (after.map some ++ rest) := by
    simp [cells]
  rw [MemoryBlock.readString, part, scanString_eq free]

end

/-! ## Growing arrays -/

/-- An array with `capacity` members allocated: those in use, and those after them, which may
be left over from earlier use or never written. -/
structure GrowingArray (α : Type) where
  live : List α
  stale : List (Option α)

section
variable {α : Type}

def GrowingArray.capacity (array : GrowingArray α) : Nat := array.live.length + array.stale.length

def doubledCapacity (capacity : Nat) : Nat := if capacity = 0 then 8 else capacity * 2

/-- `grow_array_impl`. The product is an `int`; a capacity that leaves its range makes the
product leave it too. -/
def growArrayImpl (array : GrowingArray α) (memberSize : Nat) : Option (GrowingArray α) :=
  let newCap := doubledCapacity array.capacity
  if newCap * memberSize ≤ INT_MAX then
    some { array with stale := array.stale ++ List.replicate (newCap - array.capacity) none }
  else none

/-- `if (size == capacity) grow_array(..)`. -/
def GrowingArray.reserve (array : GrowingArray α) (memberSize : Nat) : Option (GrowingArray α) :=
  if array.stale.isEmpty then growArrayImpl array memberSize else some array

/-- The assignment to `array[size++]`. -/
def GrowingArray.push (array : GrowingArray α) (entry : α) : GrowingArray α :=
  ⟨array.live ++ [entry], array.stale.drop 1⟩

/-- `size = 0`. -/
def GrowingArray.clear (array : GrowingArray α) : GrowingArray α :=
  ⟨[], array.live.map some ++ array.stale⟩

end

end Bindfs.Source
