import Bindfs.Source.MemoryBlock
import Bindfs.Source.OptionFilter

/-!
# filter_o_opts: the output buffer

The list kept of one argument is assembled in `strlen(arg) + 1` fresh bytes. The block's size is
where `filtered_end` points; every token is copied with its terminator, which the next token
overwrites. A run without a result (`none`) has written outside the allocation.

Each token that is written was read from the argument together with the delimiter after it, if
more tokens follow: even all that is left to read would fit as one more option (`Room`).
-/
namespace Bindfs.Source

/-- `*(filtered_end++) = c;` -/
def putChar (filtered : MemoryBlock Char) (c : Char) : Option (MemoryBlock Char) := do
  let filtered ← filtered.write filtered.size [c]
  pure { filtered with size := filtered.size + 1 }

/-- What stands in front of a token: `-o` before the first, a comma before the others. -/
def putLead (filtered : MemoryBlock Char) : Option (MemoryBlock Char) :=
  if filtered.size = 0 then do
    let filtered ← putChar filtered '-'
    putChar filtered 'o'
  else putChar filtered ','

/-- `memcpy(filtered_end, tok, tok_len + 1); filtered_end += tok_len;` -/
def putToken (filtered : MemoryBlock Char) (tok : CString) : Option (MemoryBlock Char) := do
  let filtered ← filtered.write filtered.size (tok ++ [NUL])
  pure { filtered with size := filtered.size + tok.length }

def appendOptionInBuffer (filtered : MemoryBlock Char) (tok : CString) : Option (MemoryBlock Char) := do
  let filtered ← putLead filtered
  putToken filtered tok

/-- The loop over the tokens of one list. -/
def filterTokensInBuffer (keep : CString → Bool) (filtered : MemoryBlock Char) (s : CString) :
    Option (MemoryBlock Char) :=
  match _cut : strtok [','] s with
  | none => some filtered
  | some (tok, rest) =>
    match if keep tok then appendOptionInBuffer filtered tok else some filtered with
    | none => none
    | some filtered => filterTokensInBuffer keep filtered rest
termination_by s.length
decreasing_by exact length_of_strtok _cut

def filterArgInBuffer (keep : CString → Bool) (arg : CString) : Option (MemoryBlock Char) :=
  filterTokensInBuffer keep (initMemoryBlock (arg.length + 1)) (arg.drop 2)

/-! ## One option -/

/-- `text` has been written to the buffer of `room + 1` bytes. -/
structure Written (room : Nat) (filtered : MemoryBlock Char) (text : CString) : Prop where
  size_eq : filtered.size = text.length
  capacity_eq : filtered.capacity = room + 1
  cells_eq : ∃ rest, filtered.cells = text.map some ++ rest

/-- Between two tokens: what has been written is terminated, unless it is nothing. -/
structure Assembled (room : Nat) (filtered : MemoryBlock Char) (text : CString) : Prop
    extends Written room filtered text where
  terminated : text ≠ [] → ∃ rest, filtered.cells = (text ++ [NUL]).map some ++ rest

theorem assembled_init (room : Nat) : Assembled room (initMemoryBlock (room + 1)) [] :=
  ⟨⟨rfl, List.length_replicate, _, rfl⟩, fun nonempty => absurd rfl nonempty⟩

section
variable {room : Nat} {filtered : MemoryBlock Char} {text : CString}

theorem putChar_spec (before : Written room filtered text) (c : Char) (fits : text.length ≤ room) :
    ∃ after, putChar filtered c = some after ∧ Written room after (text ++ [c]) := by
  obtain ⟨rest, cells⟩ := before.cells_eq
  have inside : text.length + [c].length ≤ filtered.capacity := by
    rw [before.capacity_eq, List.length_singleton]
    omega
  obtain ⟨written, wrote, same, capacity, after⟩ := MemoryBlock.write_behind cells [c] inside
  refine ⟨{ written with size := written.size + 1 }, ?_, ?_, ?_, after⟩
  · simp [putChar, before.size_eq, wrote]
  · simp [same, before.size_eq]
  · exact capacity.trans before.capacity_eq

theorem putLead_spec (before : Written room filtered text)
    (fits : (appendOption text []).length ≤ room) :
    ∃ after, putLead filtered = some after ∧ Written room after (appendOption text []) := by
  unfold putLead
  by_cases first : text = []
  · subst first
    simp only [appendOption, dashO, if_true, List.append_nil, List.length_cons, List.length_nil] at fits
    obtain ⟨dashed, wrote, dash⟩ := putChar_spec before '-' (by simp)
    obtain ⟨after, wrote', lead⟩ := putChar_spec dash 'o' (by simp; omega)
    refine ⟨after, ?_, lead⟩
    simp [before.size_eq, wrote, wrote']
  · have later : filtered.size ≠ 0 := by
      rw [before.size_eq]
      exact fun empty => first (List.length_eq_zero_iff.mp empty)
    have lead : appendOption text [] = text ++ [','] := by simp [appendOption, first]
    rw [lead, List.length_append, List.length_singleton] at fits
    rw [if_neg later, lead]
    exact putChar_spec before ',' (by omega)

/-- A token is copied with its terminator. -/
theorem putToken_spec (before : Written room filtered text) (tok : CString)
    (fits : (text ++ tok).length ≤ room) :
    ∃ after, putToken filtered tok = some after ∧ Assembled room after (text ++ tok) := by
  obtain ⟨rest, cells⟩ := before.cells_eq
  rw [List.length_append] at fits
  have inside : text.length + (tok ++ [NUL]).length ≤ filtered.capacity := by
    rw [before.capacity_eq, List.length_append, List.length_singleton]
    omega
  obtain ⟨written, wrote, same, capacity, rest, cells⟩ :=
    MemoryBlock.write_behind cells (tok ++ [NUL]) inside
  rw [← List.append_assoc] at cells
  refine ⟨{ written with size := written.size + tok.length }, ?_, ⟨?_, ?_, some NUL :: rest, ?_⟩,
    fun _ => ⟨rest, cells⟩⟩
  · simp [putToken, before.size_eq, wrote]
  · simp [same, before.size_eq]
  · exact capacity.trans before.capacity_eq
  · simpa using cells

theorem appendOption_eq (text tok : CString) : appendOption text tok = appendOption text [] ++ tok := by
  simp [appendOption]

theorem appendOptionInBuffer_spec (before : Assembled room filtered text) (tok : CString)
    (fits : (appendOption text tok).length ≤ room) :
    ∃ after, appendOptionInBuffer filtered tok = some after ∧
      Assembled room after (appendOption text tok) := by
  rw [appendOption_eq] at fits ⊢
  have lead_fits : (appendOption text []).length ≤ room := by
    rw [List.length_append] at fits
    omega
  obtain ⟨led, wrote, lead⟩ := putLead_spec before.toWritten lead_fits
  obtain ⟨after, copied, assembled⟩ := putToken_spec lead tok fits
  exact ⟨after, by simp [appendOptionInBuffer, wrote, copied], assembled⟩

end

/-! ## All options of an argument -/

/-- All that is left to read would still fit, as one more option. -/
def Room (room : Nat) (text s : CString) : Prop := s ≠ [] → (appendOption text s).length ≤ room

theorem Room.next {room : Nat} {text s tok rest : CString} (left : Room room text s)
    (cut : strtok [','] s = some (tok, rest)) :
    (appendOption text tok).length ≤ room ∧ Room room text rest ∧
      Room room (appendOption text tok) rest := by
  obtain ⟨nonempty, token_le, rest_le⟩ := strtok_lengths cut
  have unread : s ≠ [] := by
    intro empty
    rw [empty] at cut
    cases cut
  have whole := left unread
  have longer : appendOption text tok ≠ [] := by
    simp [appendOption, nonempty]
  rw [appendOption_eq, List.length_append] at whole
  refine ⟨?_, ?_, ?_⟩
  · rw [appendOption_eq, List.length_append]
    omega
  · intro more
    have bound := rest_le more
    rw [appendOption_eq, List.length_append]
    omega
  · intro more
    have bound := rest_le more
    rw [appendOption, if_neg longer, appendOption_eq]
    simp only [List.length_append, List.length_singleton]
    omega

theorem filterTokensInBuffer_stop {s : CString} (stopped : strtok [','] s = none)
    (keep : CString → Bool) (filtered : MemoryBlock Char) :
    filterTokensInBuffer keep filtered s = some filtered := by
  rw [filterTokensInBuffer]
  split
  · rfl
  · rename_i cut
    rw [stopped] at cut
    cases cut

theorem filterTokensInBuffer_next {s tok rest : CString} {keep : CString → Bool}
    {filtered after : MemoryBlock Char} (cut : strtok [','] s = some (tok, rest))
    (written : (if keep tok then appendOptionInBuffer filtered tok else some filtered) = some after) :
    filterTokensInBuffer keep filtered s = filterTokensInBuffer keep after rest := by
  rw [filterTokensInBuffer]
  split
  · rename_i stopped
    rw [stopped] at cut
    cases cut
  · rename_i cut'
    rw [cut'] at cut
    cases cut
    simp only [written]

/-- The loop never leaves the buffer and assembles there what `filterTokens` computes. -/
theorem filterTokensInBuffer_spec {room : Nat} (keep : CString → Bool) (text s : CString)
    (left : Room room text s) {filtered : MemoryBlock Char} (before : Assembled room filtered text) :
    ∃ after, filterTokensInBuffer keep filtered s = some after ∧
      Assembled room after (filterTokens keep text s) := by
  fun_induction filterTokens keep text s generalizing filtered with
  | case1 text s stopped => exact ⟨filtered, filterTokensInBuffer_stop stopped keep filtered, before⟩
  | case2 text s tok rest cut ih =>
    obtain ⟨fits, skipped, behind⟩ := left.next cut
    by_cases kept : keep tok = true
    · obtain ⟨after, wrote, assembled⟩ := appendOptionInBuffer_spec before tok fits
      rw [filterTokensInBuffer_next cut (by rw [if_pos kept, wrote])]
      simp only [kept, if_true, dite_true] at ih ⊢
      exact ih behind assembled
    · rw [filterTokensInBuffer_next cut (if_neg kept)]
      simp only [kept] at ih ⊢
      exact ih skipped before

theorem filterArgInBuffer_spec (keep : CString → Bool) {arg : CString}
    (isO : dashO.isPrefixOf arg = true) :
    ∃ filtered, filterArgInBuffer keep arg = some filtered ∧
      Assembled arg.length filtered (filterArg keep arg) := by
  have left : Room arg.length [] (arg.drop 2) := by
    obtain ⟨body, rfl⟩ := List.isPrefixOf_iff_prefix.mp isO
    intro _
    simp [appendOption, dashO]
  exact filterTokensInBuffer_spec keep [] _ left (assembled_init arg.length)

theorem NUL_not_mem_filterTokens (keep : CString → Bool) (text s : CString) (written : NUL ∉ text)
    (unread : NUL ∉ s) : NUL ∉ filterTokens keep text s := by
  fun_induction filterTokens keep text s with
  | case1 text s stopped => exact written
  | case2 text s tok rest cut ih =>
    obtain ⟨token_mem, rest_mem⟩ := mem_of_strtok cut
    have plain : NUL ∉ appendOption text tok := by
      have dash : NUL ∉ dashO := by decide
      have comma : NUL ≠ ',' := by decide
      have token : NUL ∉ tok := fun member => unread (token_mem NUL member)
      unfold appendOption
      split
      · simp [dash, token]
      · simp [written, comma, token]
    refine ih ?_ fun member => unread (rest_mem NUL member)
    split
    · exact plain
    · exact written

/-- The C string at the start of the buffer, once a token has been kept. -/
theorem Assembled.readString_eq {room : Nat} {filtered : MemoryBlock Char} {text : CString}
    (assembled : Assembled room filtered text) (nonempty : text ≠ []) (plain : NUL ∉ text) :
    filtered.readString NUL 0 = some text := by
  obtain ⟨rest, cells⟩ := assembled.terminated nonempty
  have string : filtered.cells = text.map some ++ some NUL :: rest := by simpa using cells
  rw [MemoryBlock.readString, List.drop_zero, string, scanString_eq plain]

end Bindfs.Source
