import Dwarf.Image.Variable
import Dwarf.Proofs.Expression.Inputs
import Dwarf.Proofs.Expression.Reads

/-!
# Frame bases, computed or given

A variable is located with the frame base of the subprogram around it, unless one is given.  To
give the frame base that would have been computed makes no difference but for the reads that the
computation takes, and where the location does not use the frame base it does not matter what is
given.
-/

namespace Dwarf

namespace Image

variable {image : Image}

/-- The expression that locates an entry at an address, if there is one in effect. -/
def InEffect (image : Image) (ref : EntryRef) (pc : UInt64) (expression : LocationExpression) :
    Prop :=
  ∃ holder value, image.inherited? ref .location = some (holder, value) ∧
    image.expressionAt holder value pc = .ok (some expression)

/-- The frame base for an expression: the one that is given, or the one of the subprogram around the
entry if it is used. -/
def frameBaseFor (image : Image) (ref : EntryRef) (pc : UInt64) (expression : LocationExpression)
    (given : Option UInt64) : Access (Option UInt64) :=
  if given.isNone && expression.usesFrameBase then image.frameBase ref pc else pure given

/-- Locate a variable by an expression and a frame base. -/
def locate (image : Image) (offset : Nat) (pc : UInt64) (expression : LocationExpression)
    (frameBase : Option UInt64) : Access Location := do
  let cfa ← image.cfaFor expression pc
  let evaluation := { frameBase, cfa, entry := offset, pc : Evaluation }
  expression.evaluate (evaluation.withLimits image.settings)

theorem appends_cfaFor (expression : LocationExpression) (pc : UInt64) :
    (image.cfaFor expression pc).Appends := by
  unfold cfaFor cfaAt
  split
  next =>
    refine (Access.appends_ofExcept _).bind fun row => ?_
    cases row with
    | none => exact Access.appends_pure none
    | some row => exact row.appends_cfaValue.bind fun _ => Access.appends_pure _
  next => exact Access.appends_pure none

theorem appends_locate (offset : Nat) (pc : UInt64) (expression : LocationExpression)
    (frameBase : Option UInt64) : (image.locate offset pc expression frameBase).Appends :=
  (appends_cfaFor expression pc).bind fun _ => LocationExpression.appends_evaluate

theorem locate_unused {expression : LocationExpression}
    (unused : expression.usesFrameBase = false) (offset : Nat) (pc : UInt64)
    (given : Option UInt64) :
    image.locate offset pc expression given = image.locate offset pc expression none := by
  refine bind_congr fun cfa => ?_
  let evaluation := { cfa, entry := offset, pc : Evaluation }.withLimits image.settings
  exact @LocationExpression.evaluate_give expression evaluation .frameBase given unused

theorem variableLocation_eq {offset : Nat} {ref : EntryRef} {pc : UInt64}
    {expression : LocationExpression} (found : image.entry? offset = some ref)
    (effective : image.InEffect ref pc expression) (given : Option UInt64) :
    image.variableLocation offset pc given =
      image.frameBaseFor ref pc expression given >>= image.locate offset pc expression := by
  obtain ⟨holder, value, inherited, expressed⟩ := effective
  simp only [variableLocation, found, inherited, expressed, Access.ofExcept_ok, pure_bind]
  unfold frameBaseFor
  cases given.isNone && expression.usesFrameBase <;> rfl

/-- Where none is in effect, the frame base is not asked for. -/
theorem variableLocation_of_none {offset : Nat} {ref : EntryRef} {pc : UInt64}
    (found : image.entry? offset = some ref)
    (ineffective : ∀ expression, ¬image.InEffect ref pc expression) (given : Option UInt64) :
    image.variableLocation offset pc given = image.variableLocation offset pc none := by
  unfold variableLocation
  rw [found]
  dsimp only
  cases inherited : image.inherited? ref .location with
  | none => rfl
  | some stated =>
      obtain ⟨holder, value⟩ := stated
      dsimp only
      cases expressed : image.expressionAt holder value pc with
      | error error => rw [Access.ofExcept_error_bind, Access.ofExcept_error_bind]
      | ok selected =>
          cases selected with
          | none => rw [Access.ofExcept_ok, pure_bind, pure_bind]
          | some expression =>
              exact absurd ⟨holder, value, inherited, expressed⟩ (ineffective expression)

/-- If the frame base that would be computed is given instead, the result is the same, and only the
reads of the computation are left out.  If no operation of the expression in effect uses the frame
base, in particular if there is no location attribute, then it does not matter what is given. -/
theorem frameBase_interchangeable {offset : Nat} {ref : EntryRef}
    (found : image.entry? offset = some ref) (pc : UInt64) :
    (∀ expression, image.InEffect ref pc expression →
      (∃ operation ∈ expression.operations, operation.opcode = .fbreg) →
        ∀ target base reads, (image.frameBase ref pc).run target = (.ok (some base), reads) →
          let given := (image.variableLocation offset pc (some base)).run target
          (image.variableLocation offset pc none).run target = (given.1, reads ++ given.2)) ∧
    ((image.inherited? ref .location = none ∨ ∀ expression, image.InEffect ref pc expression →
      ∀ operation ∈ expression.operations, operation.opcode ≠ .fbreg) →
        ∀ given,
          image.variableLocation offset pc given = image.variableLocation offset pc none) := by
  constructor
  · intro expression effective used target base reads computed given
    have uses : expression.usesFrameBase = true := by
      simpa [LocationExpression.usesFrameBase, LocationExpression.uses] using used
    have located : given = (image.locate offset pc expression (some base)).run target := by
      simp only [given, variableLocation_eq found effective, frameBaseFor]
      rfl
    rw [located, variableLocation_eq found effective, frameBaseFor, uses]
    rw [Access.run_eq_resume] at computed ⊢
    rw [Access.resume_bind]
    simp only [Option.isNone_none, Bool.and_true, if_true, computed]
    exact appends_locate offset pc expression (some base) target reads
  · intro unused given
    by_cases ineffective : ∀ expression, ¬image.InEffect ref pc expression
    · exact variableLocation_of_none found ineffective given
    · obtain ⟨expression, effective⟩ := not_forall_not.mp ineffective
      have free : expression.usesFrameBase = false := by
        obtain ⟨_, _, inherited, _⟩ := id effective
        rcases unused with missing | unused
        · rw [missing] at inherited
          cases inherited
        · simpa [LocationExpression.usesFrameBase, LocationExpression.uses]
            using unused expression effective
      have based (given : Option UInt64) :
          image.frameBaseFor ref pc expression given = pure given := by
        rw [frameBaseFor, free, Bool.and_false]
        rfl
      rw [variableLocation_eq found effective, variableLocation_eq found effective, based, based]
      exact locate_unused free offset pc given

/-- A subprogram whose frame base is in register 6, with a variable 16 bytes below it and another
one in register 0. -/
def framedUnit : CompilationUnit where
  header := ⟨0, 18, 4, 0, 8, 4, 11⟩
  order := .little
  abbreviations := ⟨[]⟩
  entries := #[⟨11, .subprogram, true, [⟨.frameBase, .exprloc, .block [0x56]⟩], none, #[1, 2]⟩,
    ⟨14, ⟨0x34⟩, false, [⟨.location, .exprloc, .block [0x91, 0x70]⟩], some 0, #[]⟩,
    ⟨18, ⟨0x34⟩, false, [⟨.location, .exprloc, .block [0x50]⟩], some 0, #[]⟩]

def framedImage : Image :=
  { (default : Image) with units := [⟨framedUnit, none, []⟩] }

theorem frameBase_of_framedImage :
    let target : Target := ⟨fun _ => .ok 0x7000, fun _ _ => .ok []⟩
    (framedImage.variableLocation 14 0x1000 (some 0x7000)).run (some target) =
        (.ok (.whole (.address 0x6ff0)), #[]) ∧
      (framedImage.variableLocation 14 0x1000 none).run (some target) =
        (.ok (.whole (.address 0x6ff0)), #[.register 6]) ∧
      ∀ given, framedImage.variableLocation 18 0x1000 given =
        framedImage.variableLocation 18 0x1000 none := by
  intro target
  let below : EntryRef := ⟨framedUnit, 1, framedUnit.entries[1]⟩
  let other : EntryRef := ⟨framedUnit, 2, framedUnit.entries[2]⟩
  have found : framedImage.entry? 14 = some below := by cbv
  have also_found : framedImage.entry? 18 = some other := by cbv
  have effective : framedImage.InEffect below 0x1000
      ⟨[0x91, 0x70], [⟨0, .fbreg, .signed (-16)⟩], {}⟩ :=
    ⟨below, .block [0x91, 0x70], rfl, by decide +kernel⟩
  have computed : (framedImage.frameBase below 0x1000).run (some target) =
      (.ok (some 0x7000), #[.register 6]) := by
    decide +kernel
  have given : (framedImage.variableLocation 14 0x1000 (some 0x7000)).run (some target) =
      (.ok (.whole (.address 0x6ff0)), #[]) := by
    decide +kernel
  have instead := (frameBase_interchangeable found 0x1000).1 _ effective
    ⟨_, List.mem_singleton_self _, rfl⟩ (some target) 0x7000 _ computed
  rw [given] at instead
  refine ⟨given, instead, (frameBase_interchangeable also_found 0x1000).2 (.inr ?_)⟩
  rintro expression ⟨holder, value, inherited, expressed⟩ operation member
  have register : framedImage.expressionAt other (.block [0x50]) 0x1000 =
      .ok (some ⟨[0x50], [⟨0, ⟨0x50⟩, .none⟩], {}⟩) := by
    decide +kernel
  cases Option.some.inj inherited
  cases expressed.symm.trans register
  rw [List.mem_singleton.mp member]
  decide

end Image

end Dwarf
