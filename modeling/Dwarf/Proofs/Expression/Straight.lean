import Dwarf.Proofs.Expression.Branches
import Dwarf.Proofs.Expression.Reads

/-!
# Operations in a straight line

Operations that neither branch nor add a piece are executed one after the other.  They do not look at
the pieces that have been added before, nor at their own offsets unless they fail.  They look at the
stack that they have been given only if they take more values than they have put there.  So what they
do in the middle of an expression they also do alone, after the same reads, unless alone the stack is
too short for them.
-/

namespace Dwarf

namespace Access

variable {α β γ δ : Type} {target : Option Target} {reads later : Array TargetRead}

/-- A computation in two parts succeeds if both do. -/
theorem resume_bind_eq_ok {first : Access α} {second : α → Access β} {value : β} :
    (first >>= second).resume target reads = (.ok value, later) ↔
      ∃ inner middle, first.resume target reads = (.ok inner, middle) ∧
        (second inner).resume target middle = (.ok value, later) := by
  rw [resume_bind]
  obtain ⟨outcome, middle⟩ := first.resume target reads
  cases outcome with
  | error error =>
      constructor
      · exact nofun
      · rintro ⟨_, _, ⟨⟩, _⟩
  | ok inner =>
      constructor
      · exact fun computed => ⟨inner, middle, rfl, computed⟩
      · rintro ⟨_, _, ⟨⟩, computed⟩
        exact computed

/-- Where the first computation succeeds, the second one makes the same reads and delivers a related
value, unless it fails for a cause. -/
def Carries (access : Access α) (other : Access β) (cause : Error → Prop)
    (related : α → β → Prop) : Prop :=
  ∀ target reads value later, access.resume target reads = (.ok value, later) →
    (∃ result, other.resume target reads = (.ok result, later) ∧ related value result) ∨
      ∃ error last, other.resume target reads = (.error error, last) ∧ cause error

variable {cause : Error → Prop}

theorem carries_refl (access : Access α) : access.Carries access cause Eq :=
  fun _ _ value _ computed => .inl ⟨value, computed, rfl⟩

theorem carries_pure {value : α} {result : β} {related : α → β → Prop}
    (holds : related value result) :
    (pure value : Access α).Carries (pure result) cause related := by
  intro _ _ _ _ computed
  cases computed
  exact .inl ⟨result, rfl, holds⟩

theorem carries_throw {error : Error} {other : Access β} {related : α → β → Prop} :
    (throw error : Access α).Carries other cause related := by
  intro _ _ _ _ computed
  cases computed

theorem carries_of_cause {access : Access α} {error : Error} {related : α → β → Prop}
    (caused : cause error) : access.Carries (throw error : Access β) cause related :=
  fun _ reads _ _ _ => .inr ⟨error, reads, rfl, caused⟩

theorem Carries.bind {first : Access α} {other : Access β} {second : α → Access γ}
    {later : β → Access δ} {middle : α → β → Prop} {related : γ → δ → Prop}
    (left : first.Carries other cause middle)
    (right : ∀ value result, middle value result →
      (second value).Carries (later result) cause related) :
    (first >>= second).Carries (other >>= later) cause related := by
  intro target reads value last computed
  obtain ⟨inner, between, begun, computed⟩ := resume_bind_eq_ok.mp computed
  rw [resume_bind]
  obtain ⟨result, other_begun, holds⟩ | ⟨error, failed_at, failed, caused⟩ := left _ _ _ _ begun
  · rw [other_begun]
    exact right inner result holds _ _ _ _ computed
  · rw [failed]
    exact .inr ⟨error, failed_at, rfl, caused⟩

end Access

open Access

theorem Machine.isPiece_iff {operation : Operation} :
    isPiece operation = true ↔ operation.opcode = .piece ∨ operation.opcode = .bitPiece := by
  simp [isPiece]

/-- An operation that neither leads elsewhere nor adds a piece. -/
def Operation.Straight (operation : Operation) : Prop :=
  ¬operation.IsBranch ∧ Machine.isPiece operation = false

instance (operation : Operation) : Decidable operation.Straight :=
  inferInstanceAs (Decidable (_ ∧ _))

/-- The instructions of operations that are not straight. -/
inductive Instruction.Leaves : Instruction → Prop where
  | skip (displacement : Int64) : Leaves (.skip displacement)
  | branch (displacement : Int64) : Leaves (.branch displacement)
  | piece (sizeBits bitOffset : UInt64) : Leaves (.piece sizeBits bitOffset)

theorem Operation.Straight.not_leaves {operation : Operation} (straight : operation.Straight)
    (encoding : Encoding) : ¬(operation.instruction encoding).Leaves := by
  obtain ⟨unbranched, whole⟩ := straight
  intro leaves
  have named := operation.instruction_namedBy encoding
  generalize operation.instruction encoding = instruction at leaves named
  cases leaves with
  | skip => exact unbranched (.inl named)
  | branch => exact unbranched (.inr named)
  | piece =>
      rw [Machine.isPiece_iff.mpr named] at whole
      cases whole

namespace Machine

variable {evaluation : Evaluation} {encoding : Encoding} {operation : Operation}
  {machine : Machine} {distance : Nat} {below : List UInt64} {pieces : List Piece}

/-- The state of an expression in which a part of it has come to a state.  Offsets count from so much
further back, the stack of the part stands above values from before, and there are pieces from
before. -/
def within (distance : Nat) (below : List UInt64) (pieces : List Piece) (machine : Machine) :
    Machine :=
  ⟨machine.stack ++ below,
    machine.pending.map fun (offset, place) => (offset + distance, place), pieces⟩

theorem within_self (machine : Machine) : machine.within 0 [] machine.pieces = machine := by
  obtain ⟨stack, pending, pieces⟩ := machine
  rw [within, List.append_nil]
  cases pending <;> rfl

/-- The error of a part that takes more from the stack than it has put there. -/
def Short (below : List UInt64) (error : Error) : Prop :=
  below ≠ [] ∧ ∃ operation, error = underflow operation

/-- The states that a straight operation leads to in the whole and in a part that keeps its pieces. -/
def Alike (distance : Nat) (below : List UInt64) (pieces own : List Piece) :
    Machine × Option Int64 → Machine × Option Int64 → Prop
  | (next, jump), (other, other_jump) =>
    next = other.within distance below pieces ∧ other.pieces = own ∧ jump = none ∧
      other_jump = none

theorem carries_goOn (next : Machine) :
    (pure (next.within distance below pieces, none) : Access (Machine × Option Int64)).Carries
      (pure (next, none)) (Short below) (Alike distance below pieces next.pieces) :=
  carries_pure ⟨rfl, rfl, rfl, rfl⟩

theorem carries_pushOn (machine : Machine) (value : UInt64) :
    ((machine.within distance below pieces).pushOn evaluation (operation.shift distance) value).Carries
      (machine.pushOn evaluation operation value) (Short below)
      (Alike distance below pieces machine.pieces) := by
  unfold pushOn push
  by_cases room : (machine.within distance below pieces).stack.length < evaluation.stackLimit
  · have own_room : machine.stack.length < evaluation.stackLimit := by
      rw [within, List.length_append] at room
      omega
    rw [if_pos room, if_pos own_room, pure_bind, pure_bind]
    exact carries_goOn { machine with stack := value :: machine.stack }
  · rw [if_neg room]
    exact carries_throw.bind fun _ _ (impossible : False) => impossible.elim

theorem carries_settle (machine : Machine) (place : Place) :
    (pure ((machine.within distance below pieces).settle (operation.shift distance) place, none) :
        Access (Machine × Option Int64)).Carries
      (pure (machine.settle operation place, none)) (Short below)
      (Alike distance below pieces machine.pieces) :=
  carries_goOn (machine.settle operation place)

theorem carries_underflow {whole : Access (Machine × Option Int64)}
    {related : Machine × Option Int64 → Machine × Option Int64 → Prop}
    (empty : below = [] → ∃ error, whole = throw error) :
    whole.Carries (throw (underflow operation)) (Short below) related := by
  by_cases nothing : below = []
  · obtain ⟨error, rfl⟩ := empty nothing
    exact carries_throw
  · exact carries_of_cause ⟨nothing, operation, rfl⟩

/-- A straight operation does alone what it does in the whole. -/
theorem carries_execute (straight : operation.Straight) :
    ((machine.within distance below pieces).execute evaluation encoding
        (operation.shift distance)).Carries
      (machine.execute evaluation encoding operation) (Short below)
      (Alike distance below pieces machine.pieces) := by
  have stays := straight.not_leaves encoding
  have instruction_eq : (operation.shift distance).instruction encoding =
      operation.instruction encoding := rfl
  obtain ⟨stack, pending, own⟩ := machine
  unfold execute
  rw [instruction_eq]
  generalize operation.instruction encoding = instruction at stays ⊢
  dsimp only
  cases instruction with
  | constant value => exact carries_pushOn ⟨stack, pending, own⟩ value
  | registerPlus register offset =>
      refine (carries_refl _).bind ?_
      rintro base _ rfl
      exact carries_pushOn ⟨stack, pending, own⟩ _
  | frameBasePlus offset =>
      cases evaluation.frameBase with
      | some base => exact carries_pushOn ⟨stack, pending, own⟩ _
      | none => exact carries_throw
  | callFrameCfa =>
      cases evaluation.cfa with
      | some cfa => exact carries_pushOn ⟨stack, pending, own⟩ cfa
      | none => exact carries_throw
  | pick depth =>
      dsimp only [within]
      cases found : stack[depth]? with
      | none =>
          refine carries_underflow ?_
          rintro rfl
          rw [List.append_nil, found]
          exact ⟨_, rfl⟩
      | some value =>
          have inside : depth < stack.length := (List.getElem?_eq_some_iff.mp found).1
          rw [List.getElem?_append_left inside, found]
          exact carries_pushOn ⟨stack, pending, own⟩ value
  | drop =>
      obtain _ | ⟨_, stack⟩ := stack
      · exact carries_underflow (by rintro rfl; exact ⟨_, rfl⟩)
      · exact carries_goOn ⟨stack, pending, own⟩
  | swap =>
      obtain _ | ⟨top, _ | ⟨second, stack⟩⟩ := stack
      · exact carries_underflow (by rintro rfl; exact ⟨_, rfl⟩)
      · exact carries_underflow (by rintro rfl; exact ⟨_, rfl⟩)
      · exact carries_goOn ⟨second :: top :: stack, pending, own⟩
  | rotate =>
      obtain _ | ⟨top, _ | ⟨second, _ | ⟨third, stack⟩⟩⟩ := stack
      · exact carries_underflow (by rintro rfl; exact ⟨_, rfl⟩)
      · exact carries_underflow (by rintro rfl; exact ⟨_, rfl⟩)
      · exact carries_underflow (by rintro rfl; exact ⟨_, rfl⟩)
      · exact carries_goOn ⟨second :: third :: top :: stack, pending, own⟩
  | deref size =>
      obtain _ | ⟨address, stack⟩ := stack
      · exact carries_underflow (by rintro rfl; exact ⟨_, rfl⟩)
      · refine (carries_refl _).bind ?_
        rintro value _ rfl
        exact carries_pushOn ⟨stack, pending, own⟩ value
  | unary op =>
      obtain _ | ⟨value, stack⟩ := stack
      · exact carries_underflow (by rintro rfl; exact ⟨_, rfl⟩)
      · exact carries_pushOn ⟨stack, pending, own⟩ _
  | binary op =>
      obtain _ | ⟨rhs, _ | ⟨lhs, stack⟩⟩ := stack
      · exact carries_underflow (by rintro rfl; exact ⟨_, rfl⟩)
      · exact carries_underflow (by rintro rfl; exact ⟨_, rfl⟩)
      · simp only [within, List.cons_append]
        cases op.apply encoding lhs rhs with
        | none => exact carries_throw
        | some value => exact carries_pushOn ⟨stack, pending, own⟩ value
  | nop => exact carries_goOn ⟨stack, pending, own⟩
  | inRegister register => exact carries_settle ⟨stack, pending, own⟩ _
  | stackValue =>
      obtain _ | ⟨value, stack⟩ := stack
      · exact carries_underflow (by rintro rfl; exact ⟨_, rfl⟩)
      · exact carries_settle ⟨stack, pending, own⟩ _
  | implicitValue bytes => exact carries_settle ⟨stack, pending, own⟩ _
  | unsupported => exact carries_throw
  | skip displacement => exact absurd (.skip displacement) stays
  | branch displacement => exact absurd (.branch displacement) stays
  | piece sizeBits bitOffset => exact absurd (.piece sizeBits bitOffset) stays

theorem obstacle?_of_supported {signature : Signature}
    (free : machine.pending = none ∨ isPiece operation = true)
    (signed : operation.opcode.signature? = some signature) (supported : signature.supported = true) :
    machine.obstacle? operation =
      if machine.stack.length < signature.pops then some (underflow operation) else none := by
  unfold obstacle?
  cases pending : machine.pending <;> cases piece : isPiece operation <;>
    simp_all

/-- An operation to which there is no obstacle may follow, is supported, and finds what it takes on
the stack. -/
theorem supported_of_clear :
    machine.obstacle? operation = none →
      (machine.pending = none ∨ isPiece operation = true) ∧
        ∃ signature, operation.opcode.signature? = some signature ∧
          signature.supported = true ∧ signature.pops ≤ machine.stack.length := by
  unfold obstacle?
  cases operation.opcode.signature? with
  | none => cases machine.pending <;> cases isPiece operation <;> simp
  | some signature =>
      cases supported : signature.supported <;> cases machine.pending <;>
        cases isPiece operation <;> simp [supported]

/-- What may be executed in the whole may be executed alone, unless the stack is too short. -/
theorem obstacle?_of_within
    (clear : (machine.within distance below pieces).obstacle? (operation.shift distance) = none) :
    machine.obstacle? operation = none ∨
      machine.obstacle? operation = some (underflow operation) ∧ below ≠ [] := by
  obtain ⟨free, signature, signed, supported, deep⟩ := supported_of_clear clear
  have own_free : machine.pending = none ∨ isPiece operation = true :=
    free.imp_left Option.map_eq_none_iff.mp
  rw [obstacle?_of_supported own_free signed supported]
  by_cases shallow : machine.stack.length < signature.pops
  · rw [if_pos shallow]
    refine .inr ⟨rfl, ?_⟩
    rintro rfl
    rw [within, List.append_nil] at deep
    exact Nat.not_lt_of_le deep shallow
  · exact .inl (if_neg shallow)

theorem carries_step (straight : operation.Straight) :
    ((machine.within distance below pieces).step evaluation encoding
        (operation.shift distance)).Carries
      (machine.step evaluation encoding operation) (Short below)
      (Alike distance below pieces machine.pieces) := by
  unfold step
  cases found : (machine.within distance below pieces).obstacle? (operation.shift distance) with
  | some error => exact carries_throw
  | none =>
      obtain clear | ⟨short, nonempty⟩ := obstacle?_of_within found
      · rw [clear]
        exact carries_execute straight
      · rw [short]
        exact carries_of_cause ⟨nonempty, operation, rfl⟩

theorem ensures_straight (straight : operation.Straight) :
    (machine.step evaluation encoding operation).Ensures fun result => result.2 = none := by
  intro target reads result later computed
  have carries := @carries_step evaluation encoding operation machine 0 [] machine.pieces straight
  rw [within_self] at carries
  obtain ⟨_, _, _, _, onward, _⟩ | ⟨_, _, _, nonempty, _⟩ := carries _ _ _ _ computed
  · exact onward
  · exact absurd rfl nonempty

/-! ## Several operations -/

/-- Execute operations one after the other, wherever they lead. -/
def executeAll (evaluation : Evaluation) (encoding : Encoding) :
    List Operation → Machine → Access Machine
  | [], machine => return machine
  | operation :: rest, machine => do
    let (next, _) ← machine.step evaluation encoding operation
    executeAll evaluation encoding rest next

theorem carries_executeAll {operations : List Operation}
    (straight : ∀ operation ∈ operations, operation.Straight) (machine : Machine) :
    (executeAll evaluation encoding (operations.map (Operation.shift distance))
        (machine.within distance below pieces)).Carries
      (executeAll evaluation encoding operations machine) (Short below)
      fun next other => next = other.within distance below pieces ∧
        other.pieces = machine.pieces := by
  induction operations generalizing machine with
  | nil => exact carries_pure ⟨rfl, rfl⟩
  | cons operation rest ih =>
      obtain ⟨first, others⟩ := List.forall_mem_cons.mp straight
      refine (carries_step first).bind ?_
      rintro ⟨_, jump⟩ ⟨other, other_jump⟩ ⟨rfl, kept, _, _⟩
      have rest_carries := ih others other
      rw [kept] at rest_carries
      exact rest_carries

theorem appends_executeAll (operations : List Operation) (machine : Machine) :
    (executeAll evaluation encoding operations machine).Appends := by
  induction operations generalizing machine with
  | nil => exact appends_pure _
  | cons operation rest ih => exact appends_step.bind fun (next, _) => ih next

end Machine

namespace LocationExpression

variable {expression : LocationExpression} {evaluation : Evaluation} {target : Option Target}
  {operations : List Operation} {location : Location}

/-- A run that succeeds has executed its first operation, and had the budget for it. -/
theorem stepped_of_run {budget : Nat} {operation : Operation} {rest : List Operation}
    {machine : Machine} {reads later : Array TargetRead}
    (ran : (expression.run evaluation budget (operation :: rest) machine).resume target reads =
      (.ok location, later)) :
    ∃ left next jump middle, budget = left + 1 ∧
      (machine.step evaluation expression.encoding operation).resume target reads =
        (.ok (next, jump), middle) ∧
      (jump = none →
        (expression.run evaluation left rest next).resume target middle = (.ok location, later)) := by
  cases budget with
  | zero => cases ran
  | succ left =>
      rw [run] at ran
      obtain ⟨⟨next, jump⟩, middle, stepped, onward⟩ := resume_bind_eq_ok.mp ran
      refine ⟨left, next, jump, middle, rfl, stepped, ?_⟩
      rintro rfl
      exact onward

/-- A run that succeeds has executed its straight operations first, and had the budget for them. -/
theorem executed_of_run (straight : ∀ operation ∈ operations, operation.Straight)
    {budget : Nat} {more : List Operation} {machine : Machine} {reads later : Array TargetRead}
    (ran : (expression.run evaluation budget (operations ++ more) machine).resume target reads =
      (.ok location, later)) :
    ∃ left next middle, budget = left + operations.length ∧
      (Machine.executeAll evaluation expression.encoding operations machine).resume target reads =
        (.ok next, middle) ∧
      (expression.run evaluation left more next).resume target middle = (.ok location, later) := by
  induction operations generalizing budget machine reads with
  | nil => exact ⟨budget, machine, reads, rfl, rfl, ran⟩
  | cons operation rest ih =>
      obtain ⟨first, others⟩ := List.forall_mem_cons.mp straight
      obtain ⟨budget, next, jump, between, rfl, stepped, onward⟩ := stepped_of_run ran
      have straight_on : jump = none := Machine.ensures_straight first _ _ _ _ stepped
      obtain ⟨left, last, middle, rfl, executed, remaining⟩ := ih others (onward straight_on)
      exact ⟨left, last, middle, rfl, resume_bind_eq_ok.mpr ⟨_, between, stepped, executed⟩, remaining⟩

/-- To run straight operations alone is to execute them, if the budget allows it, and to look where
they have led. -/
theorem resume_run_straight {encoding : Encoding} (same : expression.encoding = encoding)
    (straight : ∀ operation ∈ operations, operation.Straight) {budget : Nat}
    (affordable : operations.length ≤ budget) (machine : Machine) (reads : Array TargetRead) :
    (expression.run evaluation budget operations machine).resume target reads =
      (Machine.executeAll evaluation encoding operations machine >>= fun next =>
        Access.ofExcept next.location).resume target reads := by
  subst same
  induction operations generalizing budget machine reads with
  | nil => cases budget <;> rfl
  | cons operation rest ih =>
      obtain ⟨first, others⟩ := List.forall_mem_cons.mp straight
      obtain ⟨budget, rfl⟩ := Nat.exists_eq_add_of_le' (Nat.le_trans (Nat.le_add_left 1 _) affordable)
      rw [run, Machine.executeAll, bind_assoc, resume_bind, resume_bind]
      cases stepped : (machine.step evaluation expression.encoding operation).resume target reads with
      | mk outcome between =>
          cases outcome with
          | error error => rfl
          | ok result =>
              obtain ⟨next, jump⟩ := result
              cases Machine.ensures_straight first _ _ _ _ stepped
              exact ih others (Nat.le_of_succ_le_succ affordable) next between

end LocationExpression

end Dwarf
