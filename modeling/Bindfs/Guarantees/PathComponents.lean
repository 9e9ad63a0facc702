import Bindfs.Source.Libc
import Bindfs.Source.Misc

/-!
# path_starts_with decides the path-component prefix

`path_starts_with` trims slashes, compares characters and then the lengths of one component on
either side. `components` is the independent reading of a path: its names between slashes, in
order. On absolute paths without empty interior components, trailing slashes or not, the
function answers whether the names of one path start with those of the other
(`path_starts_with_decides_components`).
-/
namespace Bindfs.Guarantees.PathComponents
open Bindfs.Source

/-- A path without its trailing slashes. -/
def trimmed (path : CString) : CString := path.rdropWhile (· = '/')

def components (path : CString) : List CString := nonemptyFields '/' path

/-- A path from the root on. Only the end may have several slashes in a row. -/
structure AbsolutePath where
  chars : CString
  absolute : chars.head? = some '/'
  noEmptyInterior : ¬ ['/', '/'] <:+: trimmed chars

/-! ## Components of a path cut at a slash -/

/-- What may follow a complete component. -/
def AtSlash (rest : CString) : Prop := rest = [] ∨ rest.head? = some '/'

theorem components_cut (front rest : CString) :
    components (front ++ '/' :: rest) = components front ++ components rest := by
  unfold components nonemptyFields
  rw [List.splitOnP_append_cons _ _ (by decide), List.filter_append]

theorem components_slash (rest : CString) : components ('/' :: rest) = components rest := by
  have cut := components_cut [] rest
  rwa [List.nil_append, show components [] = [] from rfl, List.nil_append] at cut

theorem components_append {rest : CString} (front : CString) (start : AtSlash rest) :
    components (front ++ rest) = components front ++ components rest := by
  rcases start with rfl | slash
  · rw [show components [] = [] from rfl, List.append_nil, List.append_nil]
  · obtain ⟨tail, rfl⟩ := List.head?_eq_some_iff.mp slash
    rw [components_cut, components_slash]

theorem components_name {name : CString} (noSlash : '/' ∉ name) (nonempty : name ≠ []) :
    components name = [name] := by
  have single : name.splitOnP (· = '/') = [name] := by
    apply List.splitOnP_eq_singleton
    intro c member
    exact decide_eq_false fun slash => noSlash (slash ▸ member)
  rw [components, nonemptyFields, single]
  simp [nonempty]

theorem components_slashes (count : Nat) : components (List.replicate count '/') = [] := by
  induction count with
  | zero => rfl
  | succ count ih => rw [List.replicate_succ, components_slash, ih]

/-- A path is its trimmed form and some slashes. -/
theorem exists_slashes (path : CString) :
    ∃ count, path = trimmed path ++ List.replicate count '/' := by
  refine ⟨(path.rtakeWhile (· = '/')).length, ?_⟩
  have slashes : path.rtakeWhile (· = '/') =
      List.replicate (path.rtakeWhile (· = '/')).length '/' := by
    rw [List.eq_replicate_iff]
    exact ⟨rfl, fun c member => by simpa using List.mem_rtakeWhile_imp member⟩
  rw [← slashes]
  exact List.rdropWhile_append_rtakeWhile.symm

theorem atSlash_replicate (count : Nat) : AtSlash (List.replicate count '/') := by
  cases count with
  | zero => exact .inl rfl
  | succ count => exact .inr rfl

theorem components_trimmed (path : CString) : components (trimmed path) = components path := by
  obtain ⟨count, split⟩ := exists_slashes path
  conv_rhs => rw [split]
  rw [components_append _ (atSlash_replicate count), components_slashes, List.append_nil]

/-! ## Paths written from their components -/

/-- Each name after a slash. -/
def written (names : List CString) : CString := names.flatMap ('/' :: ·)

theorem written_append (names others : List CString) :
    written (names ++ others) = written names ++ written others :=
  List.flatMap_append

theorem atSlash_written_append {rest : CString} (names : List CString) (start : AtSlash rest) :
    AtSlash (written names ++ rest) := by
  cases names with
  | nil => exact start
  | cons name names => exact .inr rfl

/-- The first component of a trimmed path that starts with a slash. -/
theorem first_name_ne_nil {tail : CString} (ends : trimmed ('/' :: tail) = '/' :: tail)
    (noDouble : ¬ ['/', '/'] <:+: '/' :: tail) : tail.takeWhile (· ≠ '/') ≠ [] := by
  intro empty
  cases tail with
  | nil => cases ends
  | cons c tail =>
    have slash : c = '/' := by
      by_contra other
      simp [other] at empty
    subst slash
    exact noDouble ⟨[], tail, rfl⟩

theorem trimmed_of_suffix {path rest : CString} (front : CString) (ends : trimmed path = path)
    (split : path = front ++ rest) : trimmed rest = rest := by
  unfold trimmed at ends ⊢
  rw [List.rdropWhile_eq_self_iff] at ends ⊢
  intro nonempty
  have whole : path ≠ [] := by
    rw [split]
    simp [nonempty]
  have last := ends whole
  simp only [split, List.getLast_append_of_ne_nil _ nonempty] at last
  exact last

/-- A trimmed path without empty components is what its components write. -/
theorem written_components (path : CString) (start : AtSlash path) (ends : trimmed path = path)
    (noDouble : ¬ ['/', '/'] <:+: path) : written (components path) = path := by
  induction size : path.length using Nat.strong_induction_on generalizing path with
  | _ n ih =>
    rcases start with rfl | slash
    · rfl
    · obtain ⟨tail, rfl⟩ := List.head?_eq_some_iff.mp slash
      have nonempty := first_name_ne_nil ends noDouble
      have split := List.takeWhile_append_dropWhile (p := (· ≠ '/')) (l := tail)
      have noSlash : '/' ∉ tail.takeWhile (· ≠ '/') := fun member => by
        simpa using List.mem_takeWhile_imp member
      have next : AtSlash (tail.dropWhile (· ≠ '/')) := by
        have stop := List.head?_dropWhile_not (· ≠ '/') tail
        cases found : tail.dropWhile (· ≠ '/') with
        | nil => exact .inl rfl
        | cons c rest =>
          rw [found] at stop
          exact .inr (by simpa using stop)
      generalize tail.takeWhile (· ≠ '/') = name at split nonempty noSlash
      generalize tail.dropWhile (· ≠ '/') = rest at split next
      subst split
      have inner : ¬ ['/', '/'] <:+: rest := fun double =>
        noDouble (double.trans ⟨'/' :: name, [], by simp⟩)
      have shorter : rest.length < n := by
        simp only [List.length_cons, List.length_append] at size
        omega
      have later := ih rest.length shorter rest next
        (trimmed_of_suffix ('/' :: name) ends (by simp)) inner rfl
      rw [components_slash, components_append name next, components_name noSlash nonempty]
      rw [written_append, later, written, List.flatMap_singleton, List.cons_append]

/-- An absolute path is what its components write, and some slashes. -/
theorem AbsolutePath.exists_written (path : AbsolutePath) :
    trimmed path.chars = written (components path.chars) ∧
      ∃ count, path.chars = written (components path.chars) ++ List.replicate count '/' := by
  obtain ⟨count, split⟩ := exists_slashes path.chars
  have start : AtSlash (trimmed path.chars) := by
    cases shape : trimmed path.chars with
    | nil => exact .inl rfl
    | cons c rest =>
      have first := path.absolute
      rw [split, shape] at first
      exact .inr first
  have idle : trimmed (trimmed path.chars) = trimmed path.chars := List.rdropWhile_idempotent _ _
  have same := written_components (trimmed path.chars) start idle path.noEmptyInterior
  rw [components_trimmed] at same
  rw [same]
  exact ⟨rfl, count, split⟩

/-! ## The two readings agree -/

theorem starts_iff_components (path other : AbsolutePath) :
    pathStartsWith path.chars other.chars = true ↔
      components other.chars <+: components path.chars := by
  obtain ⟨-, count, whole⟩ := path.exists_written
  obtain ⟨there, -⟩ := other.exists_written
  rw [pathStartsWith_iff]
  change path.chars = trimmed other.chars ∨ trimmed other.chars ++ ['/'] <+: path.chars ↔ _
  constructor
  · intro starts
    rcases starts with same | ⟨rest, split⟩
    · have equal : components path.chars = components other.chars := by
        rw [same, components_trimmed]
      exact equal ▸ List.prefix_refl _
    · rw [← split, List.append_assoc, List.singleton_append, components_cut, components_trimmed]
      exact List.prefix_append _ _
  · rintro ⟨names, split⟩
    rw [← split, written_append, List.append_assoc] at whole
    rw [there, whole]
    rcases atSlash_written_append names (atSlash_replicate count) with nothing | slash
    · left
      rw [nothing, List.append_nil]
    · right
      obtain ⟨tail, found⟩ := List.head?_eq_some_iff.mp slash
      exact ⟨tail, by rw [found, List.append_assoc, List.singleton_append]⟩

/-- `path_starts_with` answers for all strings whether `path` is the trimmed prefix or goes on
after it with a slash, and for absolute paths whether the components of the prefix are the
first components of the path. -/
theorem path_starts_with_decides_components :
    (∀ path other : CString, pathStartsWith path other = true ↔
      path = trimmed other ∨ trimmed other ++ ['/'] <+: path) ∧
    ∀ path other : AbsolutePath, pathStartsWith path.chars other.chars = true ↔
      components other.chars <+: components path.chars :=
  ⟨pathStartsWith_iff, starts_iff_components⟩

-- a longer last name is another component; the root directory has none
example : pathStartsWith ['/', 'a', 'b'] ['/', 'a', '/', '/'] = false ∧
    pathStartsWith ['/', 'a', '/', '/'] ['/'] = true := by decide

end Bindfs.Guarantees.PathComponents
