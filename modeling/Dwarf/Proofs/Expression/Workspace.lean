import Dwarf.Proofs.Expression.Effect
import Dwarf.Proofs.Expression.Inputs

/-!
# Work on a stack in place

An evaluation can be carried out on one stack that is changed in place, its values addressed from
the bottom.  Then a part of the work may fault, since it asks for a value below the bottom of the
stack.  Where it does not fault it does what the machine does to its list of values.
-/

namespace Dwarf

open Access

/-- Why work in place ends early. -/
inductive Stop where
  | error (error : Error)
  /-- A value below the bottom of the stack is asked for, or an operand of another kind. -/
  | fault
  deriving DecidableEq, Repr

/-- What an evaluation in place works on. -/
structure Workspace where
  /-- The values on the stack, the bottom first. -/
  values : List UInt64
  pending : Option (Nat × Place)
  pieces : List Piece
  /-- What the target has been asked for. -/
  reads : Array TargetRead
  deriving DecidableEq, Repr

/-- The state of an evaluation and the reads so far, laid out for work in place. -/
def Machine.laid (machine : Machine) (reads : Array TargetRead) : Workspace :=
  ⟨machine.stack.reverse, machine.pending, machine.pieces, reads⟩

/-- The state of an evaluation in place. -/
def Workspace.machine (workspace : Workspace) : Machine :=
  ⟨workspace.values.reverse, workspace.pending, workspace.pieces⟩

@[simp]
theorem Machine.laid_values_length (machine : Machine) (reads : Array TargetRead) :
    (machine.laid reads).values.length = machine.stack.length :=
  List.length_reverse

@[simp]
theorem Machine.laid_machine (machine : Machine) (reads : Array TargetRead) :
    (machine.laid reads).machine = machine := by
  rw [laid, Workspace.machine, List.reverse_reverse]

/-- Work in place that may ask a target and may end early. -/
abbrev Work (α : Type) : Type :=
  ReaderT (Option Target) (ExceptT Stop (StateM Workspace)) α

namespace Work

variable {α β : Type}

/-- What work comes to, and what it leaves. -/
def resume (work : Work α) (target : Option Target) (workspace : Workspace) :
    Except Stop α × Workspace :=
  (ReaderT.run work target).run.run workspace

/-- A computation that may read the target and does not touch anything else. -/
def reading (access : Access α) : Work α :=
  fun target => ExceptT.mk fun workspace =>
    let (result, reads) := access.resume target workspace.reads
    (result.mapError .error, { workspace with reads := reads })

/-- Take the last value. -/
def pop : Work UInt64 := do
  let workspace ← get
  match workspace.values.getLast? with
  | some value =>
    set { workspace with values := workspace.values.dropLast }
    return value
  | none => throw .fault

/-- Look at a value that is so much below the last one. -/
def peek (depth : Nat) : Work UInt64 := do
  let values := (← get).values
  if within : depth < values.length then return values[values.length - 1 - depth]
  else throw .fault

/-- Move the last value below as many values as are rotated with it. -/
def rotate (count : Nat) : Work Unit := do
  let workspace ← get
  let values := workspace.values
  if count ≤ values.length then
    let kept := values.length - count
    set { workspace with values := values.take kept ++ (values.drop kept).rotateRight }
  else throw .fault

/-- Put a value behind the last one. -/
def push (evaluation : Evaluation) (operation : Operation) (value : UInt64) : Work Unit := do
  let workspace ← get
  if workspace.values.length < evaluation.stackLimit then
    set { workspace with values := workspace.values ++ [value] }
  else throw (.error (.stackOverflow operation.offset evaluation.stackLimit))

/-- End the current piece with a place. -/
def settle (operation : Operation) (place : Place) : Work Unit :=
  modify fun workspace => { workspace with pending := some (operation.offset, place) }

/-- The place of the current piece, which ends here. -/
def takePlace : Work Place := do
  let workspace ← get
  match workspace.pending, workspace.values.getLast? with
  | some (_, place), _ =>
    set { workspace with pending := none }
    return place
  | none, some top =>
    set { workspace with values := workspace.values.dropLast }
    return .address top
  | none, none => return .unavailable

/-- Add a piece. -/
def addPiece (sizeBits bitOffset : UInt64) : Work Unit := do
  let place ← takePlace
  modify fun workspace =>
    { workspace with pieces := ⟨place, sizeBits, bitOffset⟩ :: workspace.pieces }

/-- Put a value on the stack and go on behind the operation. -/
def pushOn (evaluation : Evaluation) (operation : Operation) (value : UInt64) :
    Work (Option Int64) := do
  push evaluation operation value
  return none

/-- Put a value that is already on the stack there again.  One opcode finds the depth of the value in
its operand, and it checks the depth itself. -/
def pick (evaluation : Evaluation) (operation : Operation) (depth : Nat) :
    Work (Option Int64) := do
  if operation.opcode = .pick ∧ (← get).values.length ≤ depth then
    throw (.error (Machine.underflow operation))
  else pushOn evaluation operation (← peek depth)

/-! ## Parts of work -/

variable {target : Option Target} {workspace : Workspace} {reads : Array TargetRead}

@[simp]
theorem resume_pure (value : α) :
    (pure value : Work α).resume target workspace = (.ok value, workspace) :=
  rfl

@[simp]
theorem resume_reading (access : Access α) :
    (reading access).resume target workspace =
      ((access.resume target workspace.reads).1.mapError .error,
        { workspace with reads := (access.resume target workspace.reads).2 }) :=
  rfl

theorem resume_bind (first : Work α) (second : α → Work β) :
    (first >>= second).resume target workspace =
      match first.resume target workspace with
      | (.ok value, later) => (second value).resume target later
      | (.error stop, later) => (.error stop, later) := by
  unfold resume
  rw [ReaderT.run_bind, ExceptT.run_bind, StateT.run_bind]
  generalize (ReaderT.run first target).run.run workspace = result
  cases result with
  | mk outcome later => cases outcome <;> rfl

theorem resume_get_bind (second : Workspace → Work β) :
    (get >>= second).resume target workspace = (second workspace).resume target workspace :=
  rfl

section

variable {stack : List UInt64} {pending : Option (Nat × Place)} {pieces : List Piece}

theorem resume_pop (value : UInt64) :
    pop.resume target ((⟨value :: stack, pending, pieces⟩ : Machine).laid reads) =
      (.ok value, (⟨stack, pending, pieces⟩ : Machine).laid reads) := by
  rw [pop, resume_get_bind, Machine.laid]
  dsimp only
  rw [List.getLast?_reverse, List.dropLast_reverse]
  rfl

theorem resume_peek {machine : Machine} {depth : Nat} {value : UInt64}
    (found : machine.stack[depth]? = some value) :
    (peek depth).resume target (machine.laid reads) = (.ok value, machine.laid reads) := by
  obtain ⟨within, value_eq⟩ := List.getElem?_eq_some_iff.mp found
  have bound : depth < machine.stack.reverse.length := by rwa [List.length_reverse]
  have below : machine.stack.reverse.length - 1 - depth < machine.stack.reverse.length := by omega
  have same : machine.stack.reverse[machine.stack.reverse.length - 1 - depth] = value := by
    have place : machine.stack.length - 1 - (machine.stack.reverse.length - 1 - depth) = depth := by
      rw [List.length_reverse]
      omega
    simp only [List.getElem_reverse, place, value_eq]
  rw [peek, resume_get_bind, Machine.laid]
  dsimp only
  rw [dif_pos bound, resume_pure, same]

theorem resume_rotate (top moved : List UInt64) (rotated : top.reverse.rotateRight = moved.reverse) :
    (rotate top.length).resume target ((⟨top ++ stack, pending, pieces⟩ : Machine).laid reads) =
      (.ok (), (⟨moved ++ stack, pending, pieces⟩ : Machine).laid reads) := by
  have length : (top ++ stack).reverse.length - top.length = stack.reverse.length := by simp
  rw [rotate, resume_get_bind, Machine.laid]
  dsimp only
  rw [if_pos (by simp), length, List.reverse_append, List.take_left, List.drop_left, rotated,
    ← List.reverse_append]
  rfl

theorem resume_addPiece (sizeBits bitOffset : UInt64) (machine : Machine) :
    (addPiece sizeBits bitOffset).resume target (machine.laid reads) =
      (.ok (), (machine.addPiece sizeBits bitOffset).laid reads) := by
  obtain ⟨stack, pending, pieces⟩ := machine
  cases pending with
  | some settled => rfl
  | none =>
      cases stack with
      | nil => rfl
      | cons top stack =>
          rw [addPiece, resume_bind, takePlace, resume_get_bind, Machine.laid]
          dsimp only
          rw [List.getLast?_reverse, List.dropLast_reverse]
          rfl

end

/-! ## Work and computations -/

/-- Work does in place what a computation does, with the same reads of the target.  It leaves the next
state and goes on at the same displacement, or it fails with the same error, which has a cause. -/
def Mirrors (cause : Error → Prop) (target : Option Target) (workspace : Workspace)
    (work : Work (Option Int64)) (access : Access (Machine × Option Int64)) : Prop :=
  match access.resume target workspace.reads with
  | (.ok (next, jump), later) => work.resume target workspace = (.ok jump, next.laid later)
  | (.error error, later) =>
    cause error ∧ ∃ left, work.resume target workspace = (.error (.error error), left) ∧
      left.reads = later

variable {cause : Error → Prop} {work : Work (Option Int64)}
  {access : Access (Machine × Option Int64)}

theorem mirrors_goOn {next : Machine} {jump : Option Int64}
    (worked : work.resume target workspace = (.ok jump, next.laid workspace.reads)) :
    Mirrors cause target workspace work (pure (next, jump)) :=
  worked

theorem mirrors_change {first : Work Unit} {next : Machine}
    (worked : first.resume target workspace = (.ok (), next.laid workspace.reads)) :
    Mirrors cause target workspace (first >>= fun _ => pure none) (pure (next, none)) := by
  refine mirrors_goOn ?_
  rw [resume_bind, worked]
  rfl

theorem mirrors_throw {error : Error} (caused : cause error) :
    Mirrors cause target workspace (throw (.error error)) (throw error) :=
  ⟨caused, workspace, rfl, rfl⟩

theorem Mirrors.mono {other : Error → Prop} (mirrors : Mirrors cause target workspace work access)
    (weaker : ∀ error, cause error → other error) :
    Mirrors other target workspace work access := by
  unfold Mirrors at mirrors ⊢
  generalize access.resume target workspace.reads = computed at mirrors ⊢
  obtain ⟨outcome, later⟩ := computed
  cases outcome with
  | error error => exact mirrors.imp_left (weaker error)
  | ok value => exact mirrors

theorem Mirrors.of_ok (mirrors : Mirrors cause target workspace work access) {next : Machine}
    {jump : Option Int64}
    (computed : access.resume target workspace.reads = (.ok (next, jump), reads)) :
    work.resume target workspace = (.ok jump, next.laid reads) := by
  unfold Mirrors at mirrors
  rw [computed] at mirrors
  exact mirrors

theorem Mirrors.of_error (mirrors : Mirrors cause target workspace work access) {error : Error}
    (failed : access.resume target workspace.reads = (.error error, reads)) :
    cause error ∧ ∃ left, work.resume target workspace = (.error (.error error), left) ∧
      left.reads = reads := by
  unfold Mirrors at mirrors
  rw [failed] at mirrors
  exact mirrors

theorem Mirrors.caused (mirrors : Mirrors cause target workspace work access) {error : Error}
    (failed : (work.resume target workspace).1 = .error (.error error)) : cause error := by
  rcases computed : access.resume target workspace.reads with ⟨found | ⟨next, jump⟩, later⟩
  · obtain ⟨caused, left, worked, _⟩ := mirrors.of_error computed
    rw [worked] at failed
    cases failed
    exact caused
  · rw [mirrors.of_ok computed] at failed
    cases failed

theorem Mirrors.faultless (mirrors : Mirrors cause target workspace work access) :
    (work.resume target workspace).1 ≠ .error .fault := by
  rcases computed : access.resume target workspace.reads with ⟨found | ⟨next, jump⟩, later⟩
  · obtain ⟨_, left, worked, _⟩ := mirrors.of_error computed
    rw [worked]
    exact nofun
  · rw [mirrors.of_ok computed]
    exact nofun

theorem mirrors_pop {second : UInt64 → Work (Option Int64)} {value : UInt64} {stack : List UInt64}
    {pending : Option (Nat × Place)} {pieces : List Piece}
    (mirrors : Mirrors cause target ((⟨stack, pending, pieces⟩ : Machine).laid reads)
      (second value) access) :
    Mirrors cause target ((⟨value :: stack, pending, pieces⟩ : Machine).laid reads) (pop >>= second)
      access := by
  unfold Mirrors at mirrors ⊢
  rw [resume_bind, resume_pop]
  exact mirrors

theorem mirrors_reading {first : Access α} {second : α → Work (Option Int64)}
    {following : α → Access (Machine × Option Int64)} (raises : first.Raises cause)
    (mirrors : ∀ value later,
      Mirrors cause target { workspace with reads := later } (second value) (following value)) :
    Mirrors cause target workspace (reading first >>= second) (first >>= following) := by
  unfold Mirrors
  rw [Access.resume_bind, resume_bind, resume_reading]
  rcases read : first.resume target workspace.reads with ⟨outcome, later⟩
  cases outcome with
  | error error => exact ⟨raises _ _ _ _ read, _, rfl, rfl⟩
  | ok value => exact mirrors value later

variable {evaluation : Evaluation} {encoding : Encoding} {operation : Operation}
  {machine : Machine}

theorem mirrors_pushOn (caused : ∀ offset limit, cause (.stackOverflow offset limit))
    (value : UInt64) :
    Mirrors cause target (machine.laid reads) (pushOn evaluation operation value)
      (machine.pushOn evaluation operation value) := by
  have depth : machine.stack.reverse.length = machine.stack.length := List.length_reverse
  have pushed : machine.stack.reverse ++ [value] = (value :: machine.stack).reverse :=
    List.reverse_cons.symm
  unfold Mirrors Machine.pushOn Machine.push pushOn push
  rw [resume_bind, resume_get_bind, Machine.laid]
  dsimp only
  rw [depth, pushed]
  by_cases room : machine.stack.length < evaluation.stackLimit
  · rw [if_pos room, if_pos room]
    rfl
  · rw [if_neg room, if_neg room]
    exact ⟨caused _ _, _, rfl, rfl⟩

end Work

end Dwarf
