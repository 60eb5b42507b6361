import Dwarf.Image.Variable
import Dwarf.Proofs.Except
import Dwarf.Proofs.Expression.Observation
import Dwarf.Proofs.TypeGraph.Resolution

/-!
# The limits of evaluations in an image

Every expression that a query evaluates keeps to limits: those of the image where a variable, a
frame base or a member is located, and the standard ones where a frame is unwound.  An evaluator
that refuses whatever exceeds these limits serves the queries just as well, and it serves to build
the graph of types.
-/

namespace Dwarf

open Access

namespace LocationExpression

/-- Whatever the target, an evaluation executes no more operations and has no more values on its
stack than some settings allow, unless the values were there at the start. -/
def Within (expression : LocationExpression) (evaluation : Evaluation) (settings : Settings) :
    Prop :=
  ∀ target, (expression.observe evaluation target).steps.length ≤ settings.expressionBudget ∧
    ∀ machine, .ok machine ∈ (expression.observe evaluation target).steps →
      machine.stack.length ≤ max settings.stackLimit evaluation.initial.length

theorem within_of_limits {expression : LocationExpression} {evaluation : Evaluation}
    {settings : Settings} (budget : evaluation.budget = settings.expressionBudget)
    (stackLimit : evaluation.stackLimit = settings.stackLimit) :
    expression.Within evaluation settings := by
  intro target
  rw [← budget, ← stackLimit]
  exact expression.observe_bounded evaluation target

open scoped Classical in
/-- Evaluate an expression unless that exceeds the limits of some settings. -/
noncomputable def evaluateWithin (settings : Settings) (refused : Access Location)
    (expression : LocationExpression) (evaluation : Evaluation) : Access Location :=
  if expression.Within evaluation settings then expression.evaluate evaluation else refused

theorem evaluateWithin_of_limits {settings : Settings} {refused : Access Location}
    {expression : LocationExpression} {evaluation : Evaluation}
    (budget : evaluation.budget = settings.expressionBudget)
    (stackLimit : evaluation.stackLimit = settings.stackLimit) :
    expression.evaluateWithin settings refused evaluation = expression.evaluate evaluation :=
  if_pos (within_of_limits budget stackLimit)

theorem evaluateWithin_withLimits {settings : Settings} {refused : Access Location}
    {expression : LocationExpression} {evaluation : Evaluation} :
    expression.evaluateWithin settings refused (evaluation.withLimits settings) =
      expression.evaluate (evaluation.withLimits settings) :=
  evaluateWithin_of_limits rfl rfl

end LocationExpression

open LocationExpression

namespace UnwindRow

variable (row : UnwindRow) (refused : Access Location)

/-- Every expression of a row is evaluated under the standard limits. -/
theorem cfaValue_evaluateWithin : row.cfaValue (evaluateWithin {} refused) = row.cfaValue := by
  unfold cfaValue evaluate
  simp only [evaluateWithin_of_limits]

theorem recover_evaluateWithin (register : Nat) (cfa : UInt64) :
    row.recover register cfa (evaluateWithin {} refused) = row.recover register cfa := by
  unfold recover evaluateWithCfa evaluate
  simp only [evaluateWithin_of_limits]

theorem callerFrame_evaluateWithin :
    row.callerFrame (evaluateWithin {} refused) = row.callerFrame := by
  simp only [callerFrame, cfaValue_evaluateWithin, recover_evaluateWithin]

end UnwindRow

namespace Image

variable (image : Image) (refused : Access Location)

theorem callerFrame_evaluateWithin (pc : UInt64) :
    image.callerFrame pc (evaluateWithin {} refused) = image.callerFrame pc := by
  simp only [callerFrame, UnwindRow.callerFrame_evaluateWithin]

theorem cfaFor_evaluateWithin (expression : LocationExpression) (pc : UInt64) :
    image.cfaFor expression pc (evaluateWithin {} refused) = image.cfaFor expression pc := by
  simp only [cfaFor, cfaAt, UnwindRow.cfaValue_evaluateWithin]

theorem frameBase_evaluateWithin (ref : EntryRef) (pc : UInt64) :
    image.frameBase ref pc (evaluateWithin image.settings refused) (evaluateWithin {} refused) =
      image.frameBase ref pc := by
  simp only [frameBase, cfaFor_evaluateWithin, evaluateWithin_withLimits]

theorem variableLocation_evaluateWithin (offset : Nat) (pc : UInt64) (given : Option UInt64) :
    image.variableLocation offset pc given (evaluateWithin image.settings refused)
        (evaluateWithin {} refused) =
      image.variableLocation offset pc given := by
  simp only [variableLocation, frameBase_evaluateWithin, cfaFor_evaluateWithin,
    evaluateWithin_withLimits]

end Image

/-! ## The graph of types -/

namespace Member

theorem location?_evaluateWithin (settings : Settings) (refused : Access Location)
    (entry : EntryRef) :
    location? settings entry (evaluateWithin settings refused) = location? settings entry := by
  unfold location? byteOffset?
  simp only [evaluateWithin_withLimits]

end Member

namespace TypeSource

variable {source : TypeSource} {evaluator : Evaluator}

/-- An evaluator that locates every member where another one does. -/
def Locates (source : TypeSource) (evaluator : Evaluator) : Prop :=
  ∀ entry, Member.location? source.settings entry evaluator = source.location? entry

variable (locates : source.Locates evaluator)

include locates

theorem Locates.nodeOf {m : Type → Type} [Monad m] [MonadStateOf TypeGraph m]
    [MonadExceptOf Error m] (resolve : Nat → Nat → m TypeId) (entry : EntryRef) :
    ({ source with evaluator }).nodeOf resolve entry = source.nodeOf resolve entry := by
  have described (child : EntryRef) (isBase : Bool) :
      ({ source with evaluator }).describedMember resolve child isBase =
        source.describedMember resolve child isBase := by
    unfold describedMember
    have located : ({ source with evaluator }).location? child = source.location? child :=
      locates child
    rw [located]
  have members : ({ source with evaluator }).members resolve entry =
      source.members resolve entry := by
    unfold TypeSource.members TypeSource.member?
    simp only [described]
  unfold TypeSource.nodeOf
  rw [members]

theorem Locates.resolve (count origin offset : Nat) :
    TypeBuilder.resolve { source with evaluator } count origin offset =
      TypeBuilder.resolve source count origin offset := by
  induction count generalizing origin offset with
  | zero =>
      unfold TypeBuilder.resolve
      rfl
  | succ count ih =>
      have same : TypeBuilder.resolve { source with evaluator } count =
          TypeBuilder.resolve source count := funext fun origin => funext (ih origin)
      unfold TypeBuilder.resolve
      simp only [same, locates.nodeOf]

theorem Locates.build : ({ source with evaluator }).build = source.build := by
  have added : TypeBuilder.addRoot { source with evaluator } = TypeBuilder.addRoot source := by
    funext builder offset
    unfold TypeBuilder.addRoot
    rw [locates.resolve]
  unfold TypeSource.build
  rw [added]
  rfl

end TypeSource

/-! ## Answers that take an evaluator -/

/-- An evaluator that refuses every expression. -/
def Evaluator.refusing (error : Error) : Evaluator :=
  fun _ _ => throw error

/-- The expression for the frame base around an entry, if there is one, does not use the canonical
frame address. -/
def Image.FrameBaseWithoutCfa (image : Image) (ref : EntryRef) (pc : UInt64) : Prop :=
  ∀ subprogram expression,
    image.frameBaseExpression ref pc = .ok (some (subprogram, expression)) →
      expression.usesCfa = false

/-- What an image answers by an expression it has from the evaluators that it is given, and so have
its types the places of their members: an evaluator that refuses every expression leaves only the
answers that take none, and only the types whose members are placed without. -/
structure Image.TakesEvaluators (image : Image) : Prop where
  location : ∀ error rules offset pc given,
    (image.variableLocation offset pc given (.refusing error) rules).Ensures fun location =>
      ∃ ref, image.entry? offset = some ref ∧ image.inherited? ref .location = none ∧
        location = image.constantLocation ref
  frameBase : ∀ error rules ref pc,
    (image.frameBase ref pc (.refusing error) rules).Ensures fun base =>
      image.frameBaseExpression ref pc = .ok none ∧ base = none
  cfa : ∀ error pc row, image.unwindAt pc = .ok (some row) →
    (image.cfaAt pc (.refusing error)).Ensures fun _ => ∀ rule, row.cfa ≠ .expression rule
  frameBaseRules : ∀ error evaluator ref pc row rule,
    image.unwindAt pc = .ok (some row) → row.cfa = .expression rule →
      (image.frameBase ref pc evaluator (.refusing error)).Ensures fun _ =>
        image.FrameBaseWithoutCfa ref pc
  locationRules : ∀ error evaluator offset pc given row rule ref holder value expression,
    image.unwindAt pc = .ok (some row) → row.cfa = .expression rule →
    image.entry? offset = some ref → image.inherited? ref .location = some (holder, value) →
    image.expressionAt holder value pc = .ok (some expression) →
      (image.variableLocation offset pc given evaluator (.refusing error)).Ensures fun _ =>
        expression.usesCfa = false ∧
          (given.isNone → expression.usesFrameBase → image.FrameBaseWithoutCfa ref pc)
  caller : ∀ error pc row, image.unwindAt pc = .ok (some row) →
    (image.callerFrame pc (.refusing error)).Ensures fun _ => ∀ rule,
      row.cfa ≠ .expression rule ∧ row.rule row.returnRegister ≠ .expression rule ∧
        row.rule row.returnRegister ≠ .valExpression rule
  member : ∀ error settings entry location,
    Member.location? settings entry (.refusing error) = .ok location →
      ∀ bytes, entry.value? .dataMemberLocation ≠ some (.block bytes)
  types : ∀ error sections settings offset entry child, child ∈ entry.memberEntries →
    let source : TypeSource :=
      { units := image.unitSet, sections, settings, evaluator := .refusing error }
    source.units.entry? offset = some entry → entry.tag.shape? = some .composite →
      source.build.Knows offset →
        child.IsVirtualBase ∨ ∀ bytes, child.value? .dataMemberLocation ≠ some (.block bytes)

namespace UnwindRow

variable {row : UnwindRow}

theorem ensures_evaluate_refusing (error : Error) (expression : LocationExpression)
    (evaluation : Evaluation) (defect : FrameDefect) (post : UInt64 → Prop) :
    (row.evaluate expression evaluation defect (.refusing error)).Ensures post :=
  Ensures.bind ensures_throw fun _ (never : False) => never.elim

theorem ensures_cfaValue_refusing (error : Error) :
    (row.cfaValue (.refusing error)).Ensures fun _ => ∀ rule, row.cfa ≠ .expression rule := by
  unfold cfaValue
  cases cfa : row.cfa with
  | registerPlus register offset => exact ensures_true.bind fun _ _ => ensures_pure nofun
  | expression rule => exact ensures_evaluate_refusing error rule _ _ _

theorem ensures_recover_refusing (error : Error) (register : Nat) (cfa : UInt64) :
    (row.recover register cfa (.refusing error)).Ensures fun _ => ∀ rule,
      row.rule register ≠ .expression rule ∧ row.rule register ≠ .valExpression rule := by
  unfold recover evaluateWithCfa
  cases row.rule register with
  | undefined => exact ensures_pure fun _ => ⟨nofun, nofun⟩
  | sameValue => exact ensures_true.bind fun _ _ => ensures_pure fun _ => ⟨nofun, nofun⟩
  | offset offset => exact ensures_true.bind fun _ _ => ensures_pure fun _ => ⟨nofun, nofun⟩
  | valOffset offset => exact ensures_pure fun _ => ⟨nofun, nofun⟩
  | register other => exact ensures_true.bind fun _ _ => ensures_pure fun _ => ⟨nofun, nofun⟩
  | expression rule =>
      exact (ensures_evaluate_refusing error rule _ _ fun _ => False).bind fun _ never => never.elim
  | valExpression rule =>
      exact (ensures_evaluate_refusing error rule _ _ fun _ => False).bind fun _ never => never.elim

end UnwindRow

theorem Member.location?_refusing {settings : Settings} {entry : EntryRef} {error : Error}
    {location : Option UInt64}
    (located : Member.location? settings entry (.refusing error) = .ok location)
    (bytes : List UInt8) : entry.value? .dataMemberLocation ≠ some (.block bytes) := by
  intro stated
  unfold Member.location? at located
  rw [stated] at located
  obtain ⟨offset, computed, _⟩ := map_eq_ok_iff.mp located
  obtain ⟨expression, _, evaluated⟩ := bind_eq_ok_iff.mp computed
  cases evaluated

namespace Image

variable (image : Image)

theorem ensures_frameBase_refusing (error : Error) (rules : Evaluator) (ref : EntryRef)
    (pc : UInt64) :
    (image.frameBase ref pc (.refusing error) rules).Ensures fun base =>
      image.frameBaseExpression ref pc = .ok none ∧ base = none := by
  unfold frameBase
  cases found : image.frameBaseExpression ref pc with
  | error => exact ensures_throw
  | ok stated =>
      rw [ofExcept_ok, pure_bind]
      cases stated with
      | none => exact ensures_pure ⟨rfl, rfl⟩
      | some located =>
          refine ensures_true.bind fun cfa _ => ?_
          exact Ensures.bind ensures_throw fun _ (never : False) => never.elim

theorem ensures_variableLocation_refusing (error : Error) (rules : Evaluator) (offset : Nat)
    (pc : UInt64) (given : Option UInt64) :
    (image.variableLocation offset pc given (.refusing error) rules).Ensures fun location =>
      ∃ ref, image.entry? offset = some ref ∧ image.inherited? ref .location = none ∧
        location = image.constantLocation ref := by
  unfold variableLocation
  cases found : image.entry? offset with
  | none => exact ensures_throw
  | some ref =>
      dsimp only
      cases inherited : image.inherited? ref .location with
      | none => exact ensures_pure ⟨ref, rfl, inherited, rfl⟩
      | some stated =>
          refine ensures_true.bind fun expression _ => ?_
          cases expression with
          | none => exact ensures_throw
          | some expression =>
              dsimp only
              split
              next => exact ensures_true.bind fun _ _ => ensures_true.bind fun _ _ => ensures_throw
              next => exact ensures_true.bind fun _ _ => ensures_true.bind fun _ _ => ensures_throw

section

variable {image} {pc : UInt64} {row : UnwindRow} {rule : LocationExpression}
  (unwound : image.unwindAt pc = .ok (some row))

include unwound

theorem ensures_cfaAt_refusing (error : Error) :
    (image.cfaAt pc (.refusing error)).Ensures fun _ => ∀ rule, row.cfa ≠ .expression rule := by
  unfold cfaAt
  rw [unwound, ofExcept_ok, pure_bind]
  exact (row.ensures_cfaValue_refusing error).bind fun _ stated => ensures_pure stated

variable (cfa : row.cfa = .expression rule)

include cfa

theorem ensures_cfaFor_refusing (error : Error) (expression : LocationExpression) :
    (image.cfaFor expression pc (.refusing error)).Ensures fun _ => expression.usesCfa = false := by
  unfold cfaFor
  cases uses : expression.usesCfa with
  | false => exact ensures_pure rfl
  | true =>
      intro target reads value later computed
      exact absurd cfa (ensures_cfaAt_refusing unwound error target reads value later computed rule)

theorem ensures_frameBase_refusing_rules (error : Error) (evaluator : Evaluator) (ref : EntryRef) :
    (image.frameBase ref pc evaluator (.refusing error)).Ensures fun _ =>
      image.FrameBaseWithoutCfa ref pc := by
  unfold frameBase FrameBaseWithoutCfa
  cases found : image.frameBaseExpression ref pc with
  | error => exact ensures_throw
  | ok stated =>
      rw [ofExcept_ok, pure_bind]
      cases stated with
      | none => exact ensures_pure fun _ _ impossible => nomatch impossible
      | some located =>
          refine (ensures_cfaFor_refusing unwound cfa error located.2).bind fun base unused => ?_
          refine ensures_of_forall fun _ subprogram expression same => ?_
          cases same
          exact unused

theorem ensures_variableLocation_refusing_rules (error : Error) (evaluator : Evaluator)
    {offset : Nat} (given : Option UInt64) {ref holder : EntryRef} {value : AttributeValue}
    {expression : LocationExpression} (found : image.entry? offset = some ref)
    (inherited : image.inherited? ref .location = some (holder, value))
    (read : image.expressionAt holder value pc = .ok (some expression)) :
    (image.variableLocation offset pc given evaluator (.refusing error)).Ensures fun _ =>
      expression.usesCfa = false ∧
        (given.isNone → expression.usesFrameBase → image.FrameBaseWithoutCfa ref pc) := by
  have unused := ensures_cfaFor_refusing unwound cfa error expression
  have avoids := ensures_frameBase_refusing_rules unwound cfa error evaluator ref
  unfold variableLocation
  rw [found]
  dsimp only
  rw [inherited]
  dsimp only
  rw [read, ofExcept_ok, pure_bind]
  dsimp only
  split
  next =>
    refine avoids.bind fun _ avoids => unused.bind fun _ unused => ?_
    exact ensures_of_forall fun _ => ⟨unused, fun _ _ => avoids⟩
  next given_or_unused =>
    refine ensures_true.bind fun _ _ => unused.bind fun _ unused => ?_
    refine ensures_of_forall fun _ => ⟨unused, fun missing uses => absurd ?_ given_or_unused⟩
    rw [missing, uses, Bool.and_self]

end

theorem takesEvaluators : image.TakesEvaluators where
  location := image.ensures_variableLocation_refusing
  frameBase := image.ensures_frameBase_refusing
  cfa _ _ _ unwound := ensures_cfaAt_refusing unwound _
  frameBaseRules _ _ _ _ _ _ unwound cfa := ensures_frameBase_refusing_rules unwound cfa _ _ _
  locationRules _ _ _ _ _ _ _ _ _ _ _ unwound cfa found inherited read :=
    ensures_variableLocation_refusing_rules unwound cfa _ _ _ found inherited read
  caller error pc row unwound := by
    unfold callerFrame UnwindRow.callerFrame
    rw [unwound, ofExcept_ok, pure_bind]
    refine (UnwindRow.ensures_cfaValue_refusing error).bind fun cfa stated => ?_
    refine (UnwindRow.ensures_recover_refusing error _ cfa).bind fun pc recovered => ?_
    exact ensures_pure fun rule => ⟨stated rule, recovered rule⟩
  member _ _ _ _ := Member.location?_refusing
  types error sections settings offset entry child below := by
    intro source found composite known
    refine Classical.or_iff_not_imp_left.mpr fun present => ?_
    have placed : source.Places child := Classical.byContradiction fun unplaced =>
      source.not_broken_of_build known
        ⟨offset, entry, .refl, found, .placement composite below unplaced present⟩
    obtain ⟨location, located⟩ := placed
    exact Member.location?_refusing located

end Image

/-! ## Images -/

namespace Image

variable {sections : Sections} {settings : Settings} {image : Image}

theorem types_of_load (loaded : load sections settings = .ok image) :
    image.settings = settings ∧
      image.types = TypeSource.build { units := image.unitSet, sections, settings } := by
  obtain ⟨info, _, loaded⟩ := bind_eq_ok_iff.mp loaded
  obtain ⟨abbreviations, _, loaded⟩ := bind_eq_ok_iff.mp loaded
  cases loaded
  exact ⟨rfl, rfl⟩

/-- No query of a loaded image evaluates an expression beyond the limits that it has been loaded
with, or beyond the standard limits where a frame is unwound, nor has the graph of its types been
built beyond them. -/
theorem queries_within_limits (loaded : load sections settings = .ok image)
    (refused : Access Location) :
    (∀ offset pc given,
      image.variableLocation offset pc given (evaluateWithin settings refused)
        (evaluateWithin {} refused) = image.variableLocation offset pc given) ∧
    (∀ pc, image.callerFrame pc (evaluateWithin {} refused) = image.callerFrame pc) ∧
    image.types =
      TypeSource.build
        { units := image.unitSet, sections, settings
          evaluator := evaluateWithin settings refused } ∧
    image.TakesEvaluators := by
  obtain ⟨own, built⟩ := types_of_load loaded
  have locates : TypeSource.Locates { units := image.unitSet, sections, settings }
      (evaluateWithin settings refused) := Member.location?_evaluateWithin settings refused
  refine ⟨fun offset pc given => ?_, image.callerFrame_evaluateWithin refused, ?_,
    image.takesEvaluators⟩
  · rw [← own, variableLocation_evaluateWithin]
  · rw [built, ← locates.build]

/-- A structure with a member that is located by an expression of one operation. -/
def oneOperation : Sections :=
  ⟨.little, [(.abbreviations, ⟨[1, 0x11, 1, 0, 0, 2, 0x13, 1, 0x0b, 0x0b, 0, 0,
        3, 0x0d, 0, 0x38, 0x18, 0, 0, 0], 0⟩),
      (.info, ⟨[0x10, 0, 0, 0, 4, 0, 0, 0, 0, 0, 8, 1, 2, 8, 3, 2, 0x23, 4, 0, 0], 0⟩)]⟩

/-- The settings allow one operation, and that is enough for the member. -/
theorem queries_within_one_operation :
    ∃ image, load oneOperation { expressionBudget := 1 } = .ok image ∧
      (image.types.members 1).map Member.byteOffset = [4] ∧
      image.types =
        TypeSource.build
          { units := image.unitSet, sections := oneOperation
            settings := { expressionBudget := 1 }
            evaluator := evaluateWithin { expressionBudget := 1 } (throw (.budgetExceeded 1)) } := by
  have offsets : (load oneOperation { expressionBudget := 1 }).map (fun image =>
      (image.types.members 1).map Member.byteOffset) = .ok [4] := by
    decide +kernel
  cases loaded : load oneOperation { expressionBudget := 1 } with
  | error error =>
      rw [loaded] at offsets
      cases offsets
  | ok image =>
      rw [loaded] at offsets
      exact ⟨image, rfl, Except.ok.inj offsets, (queries_within_limits loaded _).2.2.1⟩

/-- Where the rule for the canonical frame address exceeds the settings, refusing to evaluate it
leaves no answer. -/
theorem callerFrame_refused {image : Image} {pc : UInt64} {row : UnwindRow}
    {rule : LocationExpression} (unwound : image.unwindAt pc = .ok (some row))
    (cfa : row.cfa = .expression rule) (beyond : ¬rule.Within {} image.settings) (error : Error) :
    image.callerFrame pc (evaluateWithin image.settings (throw error)) = throw error := by
  have refused : rule.evaluateWithin image.settings (throw error) {} = throw error := if_neg beyond
  have first : row.cfaValue (evaluateWithin image.settings (throw error)) = throw error := by
    simp only [UnwindRow.cfaValue, cfa, UnwindRow.evaluate, refused]
    rfl
  have found (answer : Option UnwindRow → Access (Option CallerFrame)) :
      Access.ofExcept (.ok (some row)) >>= answer = answer (some row) := rfl
  rw [callerFrame, unwound, found]
  simp only [UnwindRow.callerFrame, first]
  rfl

/-- A function whose canonical frame address is computed in three operations. -/
def threeOperations : Sections :=
  ⟨.little, [(.info, ⟨[], 0⟩), (.abbreviations, ⟨[], 0⟩),
    (.frame, ⟨[0x10, 0, 0, 0, 0xff, 0xff, 0xff, 0xff, 1, 0, 1, 0x78, 0x10,
        0x0f, 3, 0x35, 0x96, 0x96, 0, 0,
      0x14, 0, 0, 0, 0, 0, 0, 0, 0, 0x10, 0, 0, 0, 0, 0, 0, 0x10, 0, 0, 0, 0, 0, 0, 0], 0⟩)]⟩

/-- The settings allow one operation, and unwinding executes three. -/
theorem callerFrame_beyond_settings :
    ∃ image, Image.load threeOperations { expressionBudget := 1 } = .ok image ∧
      ∃ refused pc, image.callerFrame pc (evaluateWithin image.settings refused) ≠
        image.callerFrame pc := by
  let rule : LocationExpression :=
    ⟨[0x35, 0x96, 0x96], [⟨0, ⟨0x35⟩, .none⟩, ⟨1, .nop, .none⟩, ⟨2, .nop, .none⟩], {}⟩
  let target : Target := ⟨fun _ => .ok 77, fun _ _ => .ok []⟩
  let row : UnwindRow := ⟨0x1000, 0x1010, .expression rule, ⟨[]⟩, 16, 20, {}⟩
  have facts : (Image.load threeOperations { expressionBudget := 1 }).map (fun image =>
      (image.settings.expressionBudget, image.unwindAt 0x1000,
        ((image.callerFrame 0x1000).run (some target)).1)) =
      .ok (1, .ok (some row), .ok (some ⟨77, 5⟩)) := by
    decide +kernel
  have steps : (rule.observe {} (some target)).steps.length = 3 := by
    decide +kernel
  cases loaded : Image.load threeOperations { expressionBudget := 1 } with
  | error =>
      rw [loaded] at facts
      cases facts
  | ok image =>
      rw [loaded] at facts
      simp only [Except.map, Except.ok.injEq, Prod.mk.injEq] at facts
      obtain ⟨budget, unwound, answered⟩ := facts
      have beyond : ¬rule.Within {} image.settings := by
        intro within
        have few := (within (some target)).1
        rw [steps, budget] at few
        exact absurd few (by decide)
      refine ⟨image, rfl, throw (.budgetExceeded 1), 0x1000, fun same => ?_⟩
      rw [← same, callerFrame_refused unwound rfl beyond] at answered
      cases answered

end Image

end Dwarf
