import Dwarf.Text.Path

/-!
# Paths and the texts that name them

A file answers to its path and to whatever a slash precedes at the end of its path, references to
the current directory not counted.  Its name is either preceded by a slash or the path itself, so a
text with one more such reference in front names the same files, except for a file whose whole path
is the text.
-/

namespace Dwarf.Path

theorem toList_current (text : String) : ("./" ++ text).toList = '.' :: '/' :: text.toList :=
  String.toList_append

theorem hasTail_iff {path tail : List Char} : hasTail path tail = true ↔ '/' :: tail <:+ path := by
  rw [hasTail, Bool.and_eq_true, decide_eq_true_eq, List.isSuffixOf_iff_suffix]
  exact and_iff_right_of_imp fun suffix => suffix.length_le

theorem dropCurrent_suffix (text : List Char) : '/' :: dropCurrent text <:+ '/' :: text := by
  fun_induction dropCurrent text with
  | case1 rest ih => exact ih.trans (List.suffix_append ['/', '.'] ('/' :: rest))
  | case2 text _ => exact List.suffix_refl _

theorem dropCurrent_eq_self {text : List Char} (plain : ∀ rest, text ≠ '.' :: '/' :: rest) :
    dropCurrent text = text := by
  unfold dropCurrent
  split
  next rest => exact absurd rfl (plain rest)
  next => rfl

/-- A name stands at the end of its path, behind a slash unless it is the path. -/
theorem join_cases (directory : String) {name : String} (named : name ≠ "") :
    join directory name = name ∨ '/' :: name.toList <:+ (join directory name).toList := by
  unfold join
  split
  next => exact .inl rfl
  next =>
    rw [if_neg (by rwa [String.isEmpty_iff]), String.toList_ofList]
    exact .inr (List.suffix_append ..)

/-- Without its references to the current directory, a text stands behind a slash at the end of a
path. -/
def LeadsTo (text path : List Char) : Prop :=
  '/' :: dropCurrent text <:+ path

theorem leadsTo_of_suffix {text path : List Char} (suffix : '/' :: text <:+ path) :
    LeadsTo text path :=
  (dropCurrent_suffix text).trans suffix

theorem answersTo_iff {path name text : String} :
    answersTo path name text = true ↔
      path = text ∨ name = text ∨ LeadsTo text.toList path.toList := by
  rw [answersTo, Bool.or_eq_true, Bool.or_eq_true, beq_iff_eq, beq_iff_eq, hasTail_iff, or_assoc]
  rfl

section

variable {path name : String} (named : name ≠ "") {directory : String}
  (placed : path = join directory name) (text : String)
include named placed

/-- With a reference to the current directory in front, a file answers to a text that leads to the
end of its path. -/
theorem answersTo_current :
    answersTo path name ("./" ++ text) = true ↔ LeadsTo text.toList path.toList := by
  have step : LeadsTo ("./" ++ text).toList path.toList ↔ LeadsTo text.toList path.toList := by
    rw [toList_current]
    exact Iff.rfl
  have behind : '/' :: text.toList <:+ ("./" ++ text).toList := by
    rw [toList_current]
    exact List.suffix_cons ..
  rw [answersTo_iff, step]
  constructor
  · rintro (whole | same | leads)
    · rw [whole]
      exact leadsTo_of_suffix behind
    · have cases := join_cases directory named
      rw [← placed] at cases
      rcases cases with whole | later
      · rw [whole, same]
        exact leadsTo_of_suffix behind
      · rw [same] at later
        exact leadsTo_of_suffix (behind.trans ((List.suffix_cons ..).trans later))
    · exact leads
  · exact fun leads => .inr (.inr leads)

theorem answersTo_iff_leadsTo :
    answersTo path name text = true ↔ path = text ∨ LeadsTo text.toList path.toList := by
  rw [answersTo_iff]
  constructor
  · rintro (whole | rfl | leads)
    · exact .inl whole
    · rw [placed]
      exact (join_cases directory named).imp id leadsTo_of_suffix
    · exact .inr leads
  · rintro (whole | leads)
    · exact .inl whole
    · exact .inr (.inr leads)

omit named placed in
/-- A text leads to the end of itself if it begins with a reference to the current directory. -/
theorem leadsTo_self_iff : LeadsTo text.toList text.toList ↔ ∃ rest, text = "./" ++ rest := by
  constructor
  · intro leads
    refine Classical.byContradiction fun other => ?_
    have plain : ∀ rest, text.toList ≠ '.' :: '/' :: rest := by
      intro rest same
      refine other ⟨String.ofList rest, ?_⟩
      rw [← String.toList_inj, toList_current, String.toList_ofList, same]
    have longer := leads.length_le
    rw [dropCurrent_eq_self plain] at longer
    exact Nat.not_succ_le_self _ longer
  · rintro ⟨rest, rfl⟩
    rw [toList_current]
    exact (dropCurrent_suffix rest.toList).trans (List.suffix_cons ..)

/-- A file answers to a text with a reference to the current directory in front if it answers to the
text, unless the text is its whole path and does not begin with such a reference. -/
theorem answersTo_current_iff :
    answersTo path name ("./" ++ text) = true ↔
      answersTo path name text = true ∧ (path = text → ∃ rest, text = "./" ++ rest) := by
  rw [answersTo_current named placed, answersTo_iff_leadsTo named placed]
  constructor
  · intro leads
    refine ⟨.inr leads, fun whole => ?_⟩
    rw [whole] at leads
    exact (leadsTo_self_iff text).mp leads
  · rintro ⟨whole | leads, begins⟩
    · rw [whole]
      exact (leadsTo_self_iff text).mpr (begins whole)
    · exact leads

end

end Dwarf.Path
