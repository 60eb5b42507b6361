import Dwarf.Proofs.Expression.Straight

/-!
# Pieces and the operations before them

A location in pieces is described by segments: operations in a straight line, and an operation that
adds a piece for the place they leave.  All segments share one stack.  So a piece takes what the
segments before it have left behind if its own operations leave nothing, or take more values than they
have put on the stack.  Otherwise it describes its own operations alone.
-/

namespace Dwarf

open Access

/-- The size of the piece that an operation adds and where it begins within its place, in bits. -/
def Operation.extent (operation : Operation) : UInt64 × UInt64 :=
  if operation.opcode = .piece then (Operation.bitCount operation.operand.toUnsigned, 0)
  else
    match operation.operand with
    | .unsignedPair sizeBits bitOffset => (sizeBits, bitOffset)
    | _ => (0, 0)

namespace Machine

variable {evaluation : Evaluation} {encoding : Encoding} {operation : Operation}
  {machine next : Machine} {target : Option Target} {reads later : Array TargetRead}

theorem start_of_initial_nil (empty : evaluation.initial = []) :
    start evaluation = ⟨[], none, []⟩ := by
  rw [start, empty]
  rfl

theorem addPiece_eq (machine : Machine) (sizeBits bitOffset : UInt64) :
    machine.addPiece sizeBits bitOffset =
      ⟨machine.takePlace.2.stack, none,
        ⟨machine.takePlace.1, sizeBits, bitOffset⟩ :: machine.pieces⟩ := by
  obtain ⟨stack, pending, pieces⟩ := machine
  cases pending with
  | some settled => rfl
  | none => cases stack <;> rfl

/-- The place that a part has come to is the place of the whole, unless the part has come to none and
finds a value below its stack. -/
theorem takePlace_within (machine : Machine) (distance : Nat) (below : List UInt64)
    (pieces : List Piece) :
    ((machine.within distance below pieces).takePlace.1 = machine.takePlace.1 ∧
        (machine.within distance below pieces).takePlace.2.stack =
          machine.takePlace.2.stack ++ below) ∨
      machine.takePlace.1 = .unavailable ∧ below ≠ [] ∧
        ∃ word, (machine.within distance below pieces).takePlace.1 = .address word := by
  obtain ⟨stack, pending, own⟩ := machine
  cases pending with
  | some settled => exact .inl ⟨rfl, rfl⟩
  | none =>
      cases stack with
      | cons top stack => exact .inl ⟨rfl, rfl⟩
      | nil =>
          cases below with
          | nil => exact .inl ⟨rfl, rfl⟩
          | cons word below => exact .inr ⟨rfl, List.cons_ne_nil word below, word, rfl⟩

theorem location_of_pieces_nil (unsplit : machine.pieces = []) :
    machine.location = .ok (.whole machine.takePlace.1) := by
  obtain ⟨stack, pending, pieces⟩ := machine
  cases unsplit
  cases pending with
  | some settled => rfl
  | none => rfl

/-- An operation that adds a piece does nothing else. -/
theorem eq_addPiece_of_step {jump : Option Int64} (closes : isPiece operation = true)
    (stepped : (machine.step evaluation encoding operation).resume target reads =
      (.ok (next, jump), later)) :
    next = machine.addPiece operation.extent.1 operation.extent.2 ∧ jump = none ∧ later = reads := by
  unfold step at stepped
  cases found : machine.obstacle? operation with
  | some error =>
      rw [found] at stepped
      cases stepped
  | none =>
      rw [found] at stepped
      obtain ⟨offset, opcode, operand⟩ := operation
      have named : opcode = .piece ∨ opcode = .bitPiece := isPiece_iff.mp closes
      rcases named with rfl | rfl
      · cases stepped
        exact ⟨rfl, rfl, rfl⟩
      · cases operand with
        | unsignedPair sizeBits bitOffset =>
            cases stepped
            exact ⟨rfl, rfl, rfl⟩
        | _ => cases stepped

end Machine

/-- A run that succeeds goes on behind the operation that adds a piece. -/
theorem LocationExpression.closed_of_run {expression : LocationExpression}
    {evaluation : Evaluation} {target : Option Target} {operation : Operation}
    (closes : Machine.isPiece operation = true) {budget : Nat} {rest : List Operation}
    {machine : Machine} {reads later : Array TargetRead} {location : Location}
    (ran : (expression.run evaluation budget (operation :: rest) machine).resume target reads =
      (.ok location, later)) :
    ∃ left, budget = left + 1 ∧
      (expression.run evaluation left rest
        (machine.addPiece operation.extent.1 operation.extent.2)).resume target reads =
          (.ok location, later) := by
  obtain ⟨left, next, jump, middle, rfl, stepped, onward⟩ := stepped_of_run ran
  obtain ⟨rfl, rfl, rfl⟩ := Machine.eq_addPiece_of_step closes stepped
  exact ⟨left, rfl, onward rfl⟩

/-! ## Segments -/

/-- Operations in a straight line, which are an expression of their own, and an operation that adds a
piece. -/
structure Segment (encoding : Encoding) where
  body : LocationExpression
  body_decoded : LocationExpression.decode body.bytes encoding = .ok body
  straight : ∀ operation ∈ body.operations, operation.Straight
  /-- The bytes of the operation that adds the piece. -/
  closing : List UInt8
  operation : Operation
  closing_decoded :
    LocationExpression.decode closing encoding = .ok ⟨closing, [operation], encoding⟩
  closes : Machine.isPiece operation = true

namespace Segment

variable {encoding : Encoding} {evaluation : Evaluation} {target : Option Target}

def bytes (segment : Segment encoding) : List UInt8 :=
  segment.body.bytes ++ segment.closing

/-- The place that a segment finds above a stack, and what it leaves of the stack. -/
def place (evaluation : Evaluation) (segment : Segment encoding) (stack : List UInt64) :
    Access (Place × List UInt64) := do
  let machine ← Machine.executeAll evaluation encoding segment.body.operations ⟨stack, none, []⟩
  return (machine.takePlace.1, machine.takePlace.2.stack)

/-- The pieces of segments in a row.  Each segment goes on with the stack that the ones before it have
left. -/
def pieces (evaluation : Evaluation) :
    List (Segment encoding) → List UInt64 → Access (List Piece)
  | [], _ => return []
  | segment :: rest, stack => do
    let (place, left) ← segment.place evaluation stack
    let later ← pieces evaluation rest left
    return ⟨place, segment.operation.extent.1, segment.operation.extent.2⟩ :: later

/-- The operations of segments in a row. -/
def operationsOf : List (Segment encoding) → List Operation
  | [] => []
  | segment :: rest =>
    segment.body.operations ++ segment.operation.shift segment.body.bytes.length ::
      (operationsOf rest).map (Operation.shift segment.bytes.length)

theorem decode_segments (segments : List (Segment encoding)) :
    LocationExpression.decode (segments.flatMap bytes) encoding =
      .ok ⟨segments.flatMap bytes, operationsOf segments, encoding⟩ := by
  induction segments with
  | nil => exact (Operation.Stored.nil 0).decoded
  | cons segment rest ih =>
      have closed := LocationExpression.decode_append segment.closing_decoded (rest.flatMap bytes)
      rw [ih] at closed
      have whole := LocationExpression.decode_append segment.body_decoded
        (segment.closing ++ rest.flatMap bytes)
      rw [closed] at whole
      have size : segment.closing.length + segment.body.bytes.length = segment.bytes.length := by
        rw [bytes, List.length_append, Nat.add_comm]
      rw [List.flatMap_cons, bytes, List.append_assoc, whole, operationsOf, ← size,
        ← Operation.map_shift_shift]
      rfl

/-! ## Running segments -/

/-- A segment finds its place where its operations are executed in the whole. -/
theorem placed_of_executed {segment : Segment encoding} {machine next : Machine}
    {reads later : Array TargetRead} {distance : Nat} (settled : machine.pending = none)
    (executed : (Machine.executeAll evaluation encoding
        (segment.body.operations.map (Operation.shift distance)) machine).resume target reads =
      (.ok next, later)) :
    (segment.place evaluation machine.stack).resume target reads =
        (.ok (next.takePlace.1, next.takePlace.2.stack), later) ∧
      next.pieces = machine.pieces := by
  have start : machine = Machine.within distance [] machine.pieces ⟨machine.stack, none, []⟩ := by
    obtain ⟨stack, pending, earlier⟩ := machine
    cases settled
    rw [Machine.within, List.append_nil]
    rfl
  rw [start] at executed
  obtain ⟨own, alone, rfl, _⟩ | ⟨_, _, _, nonempty, _⟩ :=
    Machine.carries_executeAll segment.straight _ _ _ _ _ executed
  · refine ⟨?_, rfl⟩
    obtain ⟨place_eq, stack_eq⟩ | ⟨_, nonempty, _⟩ :=
      Machine.takePlace_within own distance [] machine.pieces
    · rw [List.append_nil] at stack_eq
      rw [place, resume_bind, alone]
      dsimp only
      rw [resume_pure, place_eq, stack_eq]
    · exact absurd rfl nonempty
  · exact absurd rfl nonempty

/-- A run through segments that succeeds adds their pieces to those found before. -/
theorem pieces_of_run {expression : LocationExpression} (same : expression.encoding = encoding)
    (segments : List (Segment encoding)) {distance budget : Nat} {machine : Machine}
    {reads later : Array TargetRead} {location : Location} (settled : machine.pending = none)
    (ran : (expression.run evaluation budget
        ((operationsOf segments).map (Operation.shift distance)) machine).resume target reads =
      (.ok location, later)) :
    ∃ found, (pieces evaluation segments machine.stack).resume target reads = (.ok found, later) ∧
      (machine.pieces.reverse ++ found ≠ [] →
        location = .split (machine.pieces.reverse ++ found)) ∧
      ∀ segment ∈ segments, segment.body.operations.length ≤ budget := by
  induction segments generalizing distance budget machine reads with
  | nil =>
      have ended : (machine.location, reads) = (.ok location, later) := by
        cases budget <;> exact ran
      obtain ⟨stack, pending, earlier⟩ := machine
      cases settled
      cases earlier with
      | nil =>
          cases ended
          exact ⟨[], rfl, fun some_piece => absurd rfl some_piece, nofun⟩
      | cons piece earlier =>
          cases ended
          refine ⟨[], rfl, fun _ => ?_, nofun⟩
          rw [List.append_nil]
  | cons segment rest ih =>
      obtain ⟨stack, pending, earlier⟩ := machine
      cases settled
      rw [operationsOf, List.map_append, List.map_cons, Operation.map_shift_shift] at ran
      have straight : ∀ operation ∈ segment.body.operations.map (Operation.shift distance),
          operation.Straight := by
        intro operation member
        obtain ⟨inner, inside, rfl⟩ := List.mem_map.mp member
        exact segment.straight inner inside
      obtain ⟨left, next, middle, rfl, executed, remaining⟩ :=
        LocationExpression.executed_of_run straight ran
      rw [same] at executed
      obtain ⟨placed, kept⟩ := placed_of_executed rfl executed
      have closes : Machine.isPiece ((segment.operation.shift segment.body.bytes.length).shift
          distance) = true := segment.closes
      obtain ⟨left, rfl, onward⟩ := LocationExpression.closed_of_run closes remaining
      rw [Machine.addPiece_eq, kept] at onward
      obtain ⟨found, rest_found, split, affordable⟩ := ih rfl onward
      dsimp only at placed rest_found split
      refine ⟨⟨next.takePlace.1, segment.operation.extent.1, segment.operation.extent.2⟩ :: found,
        ?_, fun _ => ?_, ?_⟩
      · rw [pieces, resume_bind, placed]
        dsimp only
        rw [resume_bind, rest_found]
        rfl
      · rw [List.reverse_cons, List.append_assoc] at split
        exact split (by simp)
      · rw [List.length_map]
        refine List.forall_mem_cons.mpr ⟨Nat.le_add_left _ _, fun later member => ?_⟩
        have within := affordable later member
        omega

variable {segment : Segment encoding} {stack : List UInt64} {reads later : Array TargetRead}
  {found : List Piece}

theorem pieces_cons_eq_ok {rest : List (Segment encoding)}
    (computed : (pieces evaluation (segment :: rest) stack).resume target reads =
      (.ok found, later)) :
    ∃ place left middle others,
      (segment.place evaluation stack).resume target reads = (.ok (place, left), middle) ∧
      (pieces evaluation rest left).resume target middle = (.ok others, later) ∧
      found = ⟨place, segment.operation.extent.1, segment.operation.extent.2⟩ :: others := by
  obtain ⟨⟨place, left⟩, middle, placed, rest_computed⟩ := resume_bind_eq_ok.mp computed
  obtain ⟨others, _, rest_found, delivered⟩ := resume_bind_eq_ok.mp rest_computed
  cases delivered
  exact ⟨place, left, middle, others, placed, rest_found, rfl⟩

theorem extent_of_pieces {segments : List (Segment encoding)}
    (computed : (pieces evaluation segments stack).resume target reads = (.ok found, later)) :
    found.map (fun piece => (piece.sizeBits, piece.bitOffset)) =
      segments.map fun segment => segment.operation.extent := by
  induction segments generalizing stack reads found with
  | nil =>
      cases computed
      rfl
  | cons segment rest ih =>
      obtain ⟨place, left, middle, others, _, rest_found, rfl⟩ := pieces_cons_eq_ok computed
      rw [List.map_cons, List.map_cons, ih rest_found]

theorem appends_place (segment : Segment encoding) (stack : List UInt64) :
    (segment.place evaluation stack).Appends :=
  (Machine.appends_executeAll _ _).bind fun _ => appends_pure _

/-- From the empty stack the segment finds its place, and it leaves nothing of the stack. -/
def Balanced (evaluation : Evaluation) (target : Option Target) (segment : Segment encoding) :
    Prop :=
  ∃ place, ((segment.place evaluation []).run target).1 = .ok (place, [])

/-- A segment takes its place from what the segments before it have left, which is nothing if they are
balanced. -/
theorem placed_of_pieces {before after : List (Segment encoding)}
    (computed : (pieces evaluation (before ++ segment :: after) stack).resume target reads =
      (.ok found, later)) :
    ∃ piece given left middle last, found[before.length]? = some piece ∧
      (segment.place evaluation given).resume target middle = (.ok (piece.place, left), last) ∧
      (stack = [] → (∀ earlier ∈ before, earlier.Balanced evaluation target) → given = []) := by
  induction before generalizing stack reads found with
  | nil =>
      obtain ⟨place, left, middle, others, placed, _, rfl⟩ := pieces_cons_eq_ok computed
      exact ⟨_, stack, left, reads, middle, rfl, placed, fun empty _ => empty⟩
  | cons earlier before ih =>
      obtain ⟨place, left, middle, others, placed, rest_found, rfl⟩ := pieces_cons_eq_ok computed
      obtain ⟨piece, given, rest, between, last, at_index, found_there, balanced⟩ := ih rest_found
      refine ⟨piece, given, rest, between, last, at_index, found_there, ?_⟩
      rintro rfl all_balanced
      obtain ⟨⟨other, nothing_left⟩, others_balanced⟩ := List.forall_mem_cons.mp all_balanced
      have repeated := @appends_place encoding evaluation earlier [] target reads
      rw [placed, nothing_left] at repeated
      cases repeated
      exact balanced rfl others_balanced

/-- The place has been taken from what was on the stack before: alone, the operations leave nothing, or
take more values from the stack than they have put there. -/
def TakenFromBefore (place : Place) (alone : Except Error Location) : Prop :=
  alone = .ok (.whole .unavailable) ∧ (∃ word, place = .address word) ∨
    ∃ offset opcode, alone = .error (.stackUnderflow offset opcode)

/-- The operations of a segment denote its place alone, unless the place has been taken from what was on
the stack before. -/
theorem evaluate_body {left : List UInt64} {place : Place}
    (empty : evaluation.initial = [])
    (affordable : segment.body.operations.length ≤ evaluation.budget)
    (placed : (segment.place evaluation stack).resume target reads = (.ok (place, left), later)) :
    ((segment.body.evaluate evaluation).run target).1 = .ok (.whole place) ∨
      stack ≠ [] ∧ TakenFromBefore place ((segment.body.evaluate evaluation).run target).1 := by
  obtain ⟨machine, middle, executed, delivered⟩ := resume_bind_eq_ok.mp placed
  cases delivered
  have encoded : segment.body.encoding = encoding :=
    LocationExpression.encoding_of_decode segment.body_decoded
  have denoted : ((segment.body.evaluate evaluation).run target).1 =
      ((Machine.executeAll evaluation encoding segment.body.operations ⟨[], none, []⟩ >>= fun next =>
        Access.ofExcept next.location).resume target reads).1 := by
    rw [← LocationExpression.resume_run_straight encoded segment.straight affordable,
      ← Machine.start_of_initial_nil empty]
    exact (congrArg Prod.fst (LocationExpression.appends_evaluate target reads)).symm
  have carries := @Machine.carries_executeAll evaluation encoding 0 stack [] _ segment.straight
    ⟨[], none, []⟩
  rw [Operation.map_shift_zero] at carries
  rw [denoted, resume_bind]
  obtain ⟨own, alone, rfl, unsplit⟩ | ⟨_, _, failed, nonempty, _, rfl⟩ := carries _ _ _ _ executed
  · rw [alone]
    dsimp only
    rw [resume_ofExcept, Machine.location_of_pieces_nil unsplit]
    obtain ⟨place_eq, _⟩ | ⟨nothing, nonempty, taken⟩ := Machine.takePlace_within own 0 stack []
    · rw [place_eq]
      exact .inl rfl
    · rw [nothing]
      exact .inr ⟨nonempty, .inl ⟨rfl, taken⟩⟩
  · rw [failed]
    exact .inr ⟨nonempty, .inr ⟨_, _, rfl⟩⟩

/-! ## Rows of segments -/

/-- Operations without branches, the last of which adds a piece. -/
structure Split (operations : List Operation) : Prop where
  unbranched : ∀ operation ∈ operations, ¬operation.IsBranch
  closed : ∀ operation ∈ operations.getLast?, Machine.isPiece operation = true

theorem Split.of_append {before after : List Operation} (split : Split (before ++ after)) :
    Split after where
  unbranched operation member := split.unbranched operation (List.mem_append_right before member)
  closed operation last := split.closed operation (List.mem_getLast?_append_of_mem_getLast? last)

theorem Split.of_shift {operations : List Operation} {distance : Nat}
    (split : Split (operations.map (Operation.shift distance))) : Split operations where
  unbranched operation member :=
    split.unbranched (operation.shift distance) (List.mem_map_of_mem member)
  closed operation last := by
    refine split.closed (operation.shift distance) ?_
    rw [List.getLast?_map, Option.mem_def.mp last]
    rfl

/-- The operations up to the first piece are a segment, and the others are split as well. -/
theorem exists_first_segment {bytes : List UInt8} {operations : List Operation}
    (stored : Operation.Stored encoding 0 bytes operations) (split : Split operations)
    (nonempty : operations ≠ []) :
    ∃ (segment : Segment encoding) (rest : List UInt8) (others : List Operation),
      bytes = segment.bytes ++ rest ∧ Operation.Stored encoding 0 rest others ∧ Split others ∧
        others.length < operations.length := by
  cases first : operations.find? Machine.isPiece with
  | none =>
      have closed := split.closed _ (List.getLast?_eq_some_getLast nonempty)
      exact absurd closed (List.find?_eq_none.mp first _ (List.getLast_mem nonempty))
  | some piece =>
      obtain ⟨closes, before, after, rfl, earlier⟩ := List.find?_eq_some_iff_append.mp first
      obtain ⟨front, back, rfl, left, right⟩ := stored.of_append
      obtain ⟨nearer, placed, near_stored⟩ := right.unshift
      cases nearer with
      | nil => cases placed
      | cons operation nearer =>
          obtain ⟨rfl, rfl⟩ := List.cons.inj placed
          have apart : Operation.Stored encoding 0 back ([operation] ++ nearer) := near_stored
          obtain ⟨closing, rest, rfl, single, behind⟩ := apart.of_append
          obtain ⟨others, rfl, rest_stored⟩ := behind.unshift
          have straight : ∀ operation ∈ before, operation.Straight := fun operation member =>
            ⟨split.unbranched operation (List.mem_append_left _ member),
              by simpa using earlier operation member⟩
          have behind_split : Split ([operation.shift front.length] ++
              (others.map (Operation.shift closing.length)).map (Operation.shift front.length)) :=
            split.of_append
          refine ⟨⟨⟨front, before, encoding⟩, left.decoded, straight, closing, operation,
            single.decoded, closes⟩, rest, others, (List.append_assoc ..).symm, rest_stored,
            behind_split.of_append.of_shift.of_shift, ?_⟩
          simp only [List.length_append, List.length_cons, List.length_map]
          omega

/-- An expression of operations without branches, the last of which adds a piece, is a row of
segments. -/
theorem exists_segments {bytes : List UInt8} {expression : LocationExpression}
    (decoded : LocationExpression.decode bytes encoding = .ok expression)
    (split : Split expression.operations) :
    ∃ segments : List (Segment encoding), bytes = segments.flatMap Segment.bytes := by
  have stored := LocationExpression.stored_of_decode decoded
  clear decoded
  generalize expression.operations = operations at stored split
  induction length : operations.length using Nat.strongRecOn generalizing bytes operations with
  | ind length ih =>
      by_cases nonempty : operations = []
      · subst nonempty
        cases stored
        exact ⟨[], rfl⟩
      · obtain ⟨segment, rest, others, rfl, rest_stored, rest_split, shorter⟩ :=
          exists_first_segment stored split nonempty
        obtain ⟨segments, rfl⟩ := ih _ (length ▸ shorter) others rest_stored rest_split rfl
        exact ⟨segment :: segments, rfl⟩

end Segment

open Segment

namespace LocationExpression

/-- A branch-free expression whose last operation adds a piece, evaluated without initial values.  It
is a row of segments, and if the evaluation succeeds, there is one piece for each segment, in order
and of its size, whose place is the one that the segment finds above what the segments before it have
left.  This is the place that the operations of the segment denote alone, unless a segment before it
has left something and the place has been taken from there. -/
theorem evaluate_segments {encoding : Encoding} {bytes : List UInt8}
    {expression : LocationExpression} (decoded : decode bytes encoding = .ok expression)
    (split : Split expression.operations) (nonempty : expression.operations ≠ [])
    {evaluation : Evaluation} (empty : evaluation.initial = []) {target : Option Target}
    {location : Location} {reads : Array TargetRead}
    (evaluated : (expression.evaluate evaluation).run target = (.ok location, reads)) :
    (∃ segments : List (Segment encoding), bytes = segments.flatMap Segment.bytes) ∧
    ∀ segments : List (Segment encoding), bytes = segments.flatMap Segment.bytes →
      ∃ found, location = .split found ∧
        found.map (fun piece => (piece.sizeBits, piece.bitOffset)) =
          segments.map (fun segment => segment.operation.extent) ∧
        (pieces evaluation segments []).run target = (.ok found, reads) ∧
        ∀ before segment after, segments = before ++ segment :: after →
          ∃ piece, found[before.length]? = some piece ∧
            (((segment.body.evaluate evaluation).run target).1 = .ok (.whole piece.place) ∨
              (∃ earlier ∈ before, ¬earlier.Balanced evaluation target) ∧
                TakenFromBefore piece.place
                  ((segment.body.evaluate evaluation).run target).1) := by
  refine ⟨exists_segments decoded split, ?_⟩
  rintro segments rfl
  have whole : expression = ⟨segments.flatMap Segment.bytes, operationsOf segments, encoding⟩ :=
    Except.ok.inj (decoded.symm.trans (decode_segments segments))
  have operations_eq : expression.operations =
      (operationsOf segments).map (Operation.shift 0) := by
    rw [whole, Operation.map_shift_zero]
  rw [operations_eq] at nonempty
  rw [evaluate, Machine.start_of_initial_nil empty, run_eq_resume, operations_eq] at evaluated
  obtain ⟨found, computed, split, affordable⟩ :=
    pieces_of_run (encoding_of_decode decoded) segments rfl evaluated
  have extents := extent_of_pieces computed
  have some_piece : [] ++ found ≠ [] := by
    rintro rfl
    cases segments with
    | nil => exact nonempty rfl
    | cons segment rest => cases extents
  refine ⟨found, split some_piece, extents, computed, ?_⟩
  rintro before segment after rfl
  obtain ⟨piece, given, left, middle, last, at_index, placed, balanced⟩ := placed_of_pieces computed
  have member : segment ∈ before ++ segment :: after :=
    List.mem_append_right _ List.mem_cons_self
  refine ⟨piece, at_index, ?_⟩
  obtain denoted | ⟨given_something, taken⟩ := evaluate_body empty (affordable segment member) placed
  · exact .inl denoted
  · refine .inr ⟨?_, taken⟩
    by_contra none_left
    push Not at none_left
    exact given_something (balanced rfl none_left)

/-- A segment from its operations and the number of bytes of its piece. -/
def segmentOf (bytes : List UInt8) (operations : List Operation) (size : UInt8)
    (body_decoded : decode bytes {} = .ok ⟨bytes, operations, {}⟩)
    (straight : ∀ operation ∈ operations, operation.Straight)
    (closing_decoded : decode [0x93, size] {} =
      .ok ⟨[0x93, size], [⟨0, .piece, .unsigned size.toUInt64⟩], {}⟩) : Segment {} where
  body := ⟨bytes, operations, {}⟩
  body_decoded := body_decoded
  straight := straight
  closing := [0x93, size]
  operation := ⟨0, .piece, .unsigned size.toUInt64⟩
  closing_decoded := closing_decoded
  closes := rfl

/-- Four bytes in a register. -/
def inRegister : Segment {} :=
  segmentOf [0x50] [⟨0, ⟨0x50⟩, .none⟩] 4 (by decide +kernel) (by decide) (by decide +kernel)

/-- Four bytes in the frame. -/
def inFrame : Segment {} :=
  segmentOf [0x91, 0x70] [⟨0, .fbreg, .signed (-16)⟩] 4 (by decide +kernel) (by decide)
    (by decide +kernel)

/-- Four bytes that are nowhere. -/
def nowhere : Segment {} :=
  segmentOf [] [] 4 (by decide +kernel) (by decide) (by decide +kernel)

/-- A value of twelve bytes, of which four are nowhere. -/
def scattered : LocationExpression :=
  ⟨[0x50, 0x93, 4, 0x91, 0x70, 0x93, 4, 0x93, 4],
    [⟨0, ⟨0x50⟩, .none⟩, ⟨1, .piece, .unsigned 4⟩, ⟨3, .fbreg, .signed (-16)⟩,
      ⟨5, .piece, .unsigned 4⟩, ⟨7, .piece, .unsigned 4⟩], {}⟩

/-- Each of its pieces describes its own operations. -/
theorem evaluate_segments_scattered :
    decode scattered.bytes {} = .ok scattered ∧ Split scattered.operations ∧
      (scattered.evaluate { frameBase := some 0x8000 }).run none =
        (.ok (.split [⟨.register 0, 32, 0⟩, ⟨.address 0x7ff0, 32, 0⟩, ⟨.unavailable, 32, 0⟩]), #[]) ∧
      ((inFrame.body.evaluate { frameBase := some 0x8000 }).run none).1 =
        .ok (.whole (.address 0x7ff0)) := by
  have decoded : decode scattered.bytes {} = .ok scattered := by decide +kernel
  have split : Split scattered.operations := ⟨by decide, by decide⟩
  have evaluated : (scattered.evaluate { frameBase := some 0x8000 }).run none =
      (.ok (.split [⟨.register 0, 32, 0⟩, ⟨.address 0x7ff0, 32, 0⟩, ⟨.unavailable, 32, 0⟩]),
        #[]) := by
    decide +kernel
  obtain ⟨_, cuts⟩ := evaluate_segments decoded split (by decide) rfl evaluated
  obtain ⟨_, ⟨⟩, _, _, alone⟩ := cuts [inRegister, inFrame, nowhere] rfl
  have balanced : inRegister.Balanced { frameBase := some 0x8000 } none := ⟨.register 0, rfl⟩
  obtain ⟨_, ⟨⟩, denoted | ⟨⟨earlier, member, unbalanced⟩, _⟩⟩ :=
    alone [inRegister] inFrame [nowhere] rfl
  · exact ⟨decoded, split, evaluated, denoted⟩
  · cases List.mem_singleton.mp member
    exact absurd balanced unbalanced

/-- Two literals before the first of two pieces. -/
def twoLiterals : Segment {} :=
  segmentOf [0x31, 0x32] [⟨0, ⟨0x31⟩, .none⟩, ⟨1, ⟨0x32⟩, .none⟩] 4 (by decide +kernel) (by decide)
    (by decide +kernel)

/-- A piece without operations of its own takes what the segment before it has left, though its
operations alone denote nothing. -/
theorem leftover_taken :
    ([0x31, 0x32, 0x93, 4, 0x93, 4] : List UInt8) = [twoLiterals, nowhere].flatMap Segment.bytes ∧
      (do (← decode [0x31, 0x32, 0x93, 4, 0x93, 4] {}).evaluate {} |>.run none |>.1) =
        .ok (.split [⟨.address 2, 32, 0⟩, ⟨.address 1, 32, 0⟩]) ∧
      ((nowhere.body.evaluate {}).run none).1 = .ok (.whole .unavailable) := by
  refine ⟨rfl, ?_, ?_⟩
  · decide +kernel
  · decide +kernel

end LocationExpression

end Dwarf
