import Dwarf.Proofs.Bisection
import Dwarf.Proofs.Expression.Limits
import Dwarf.Proofs.Expression.Tiling

/-!
# Where branches lead

A branch leads to the operation whose bytes begin at its destination, ends the evaluation if the
destination is the end of the expression, and is refused otherwise.  The operations of a decoded
expression tile its bytes, so a search by halving finds the destination, the destination can be
computed in words, and every operation that is executed begins where the decoder has found one.
-/

namespace Dwarf

/-! ## The operations of branches -/

namespace Decoder

variable {α : Type} {encoding : Encoding}

theorem Plain.length_eq {decoder : Decoder α} {count : Nat} (plain : decoder.Plain count)
    {bytes : List UInt8} {value : α} (recognizes : decoder.Recognizes encoding bytes value) :
    bytes.length = count := by
  obtain ⟨_, read, next⟩ := recognizes (Cursor.under_cursor encoding bytes 0)
    (List.append_nil bytes).symm
  have passed := (plain.next read).1
  rw [next] at passed
  simp only [Cursor.offset, Cursor.forward] at passed
  omega

end Decoder

namespace Operation

/-- An operation that leads elsewhere. -/
def IsBranch (operation : Operation) : Prop :=
  operation.opcode = .skip ∨ operation.opcode = .bra

instance (operation : Operation) : Decidable operation.IsBranch :=
  inferInstanceAs (Decidable (_ ∨ _))

/-- The byte offset to which an operation leads.  The displacement counts from the end of its
two-byte operand. -/
def destination (operation : Operation) : Int :=
  operation.offset + 3 + operation.operand.toSigned.toInt

section

open Decoder

variable {encoding : Encoding} {offset : Nat} {bytes : List UInt8} {operations : List Operation}

/-- A branch has three bytes, and its displacement has sixteen bits. -/
theorem Stored.branch (stored : Stored encoding offset bytes operations) {operation : Operation}
    (member : operation ∈ operations) (branches : operation.IsBranch) :
    operation.offset + 3 ≤ offset + bytes.length ∧
      -(2 ^ 15 : Int) ≤ operation.operand.toSigned.toInt ∧
      operation.operand.toSigned.toInt < 2 ^ 15 := by
  induction stored with
  | nil => cases member
  | @cons offset opcode signature operand front back operations signed recognizes _ ih =>
      rcases List.mem_cons.mp member with rfl | later
      · have shape : signature.shape = .i16 := by
          rcases branches with rfl | rfl
          · cases signed
            rfl
          · cases signed
            rfl
        rw [shape] at recognizes
        have plain : (OperandShape.decode .i16).Plain 2 := (plain_uint16.map _).map _
        have size := plain.length_eq recognizes
        obtain ⟨word, _, rfl⟩ := recognizes.of_map (local_uint16.map _)
        refine ⟨?_, ?_, ?_⟩
        · simp only [List.length_append, List.length_cons]
          omega
        · exact (Int16.toInt_toInt64 word).symm ▸ word.le_toInt
        · exact (Int16.toInt_toInt64 word).symm ▸ word.toInt_lt
      · obtain ⟨inside, least, most⟩ := ih later
        refine ⟨?_, least, most⟩
        rw [List.length_append]
        omega

theorem Stored.offset_lt (stored : Stored encoding offset bytes operations) {operation : Operation}
    (member : operation ∈ operations) : operation.offset < offset + bytes.length := by
  induction stored with
  | nil => cases member
  | @cons offset opcode signature operand front back operations signed recognizes _ ih =>
      rw [List.length_append]
      rcases List.mem_cons.mp member with rfl | later
      · simp only [List.length_cons]
        omega
      · have below := ih later
        omega

variable {before after : List Operation} {other : Operation}

theorem Stored.lt_of_mem_before
    (stored : Stored encoding offset bytes (before ++ other :: after)) {operation : Operation}
    (member : operation ∈ before) : operation.offset < other.offset := by
  have ascending := List.pairwise_map.mp stored.ascending
  exact (List.pairwise_append.mp ascending).2.2 operation member other List.mem_cons_self

theorem Stored.lt_of_mem_after
    (stored : Stored encoding offset bytes (before ++ other :: after)) {operation : Operation}
    (member : operation ∈ after) : other.offset < operation.offset := by
  have ascending := List.pairwise_map.mp stored.ascending
  have behind := (List.pairwise_append.mp ascending).2.1
  exact (List.pairwise_cons.mp behind).1 operation member

end

end Operation

namespace Machine

/-- In this state the operation leads elsewhere, and execution goes on in the other state. -/
inductive Jumps (machine : Machine) (operation : Operation) : Machine → Prop where
  | skip (settled : machine.pending = none) (named : operation.opcode = .skip) :
      Jumps machine operation machine
  | branch {condition : UInt64} {rest : List UInt64} (settled : machine.pending = none)
      (named : operation.opcode = .bra) (stacked : machine.stack = condition :: rest)
      (taken : condition ≠ 0) : Jumps machine operation { machine with stack := rest }

variable {machine next : Machine} {operation : Operation}

theorem Jumps.isBranch (jumps : machine.Jumps operation next) : operation.IsBranch := by
  cases jumps with
  | skip _ named => exact .inl named
  | branch _ named => exact .inr named

theorem Jumps.settled (jumps : machine.Jumps operation next) : next.pending = none := by
  cases jumps with
  | skip settled => exact settled
  | branch settled => exact settled

theorem Jumps.step_eq (jumps : machine.Jumps operation next) (evaluation : Evaluation)
    (encoding : Encoding) :
    machine.step evaluation encoding operation = pure (next, some operation.operand.toSigned) := by
  obtain ⟨offset, opcode, operand⟩ := operation
  obtain ⟨stack, pending, pieces⟩ := machine
  cases jumps with
  | skip settled named =>
      cases settled
      cases named
      rfl
  | @branch condition rest settled named stacked taken =>
      cases settled
      cases named
      cases stacked
      change (if condition = 0 then _ else _) = _
      rw [if_neg taken]

theorem exists_location (settled : machine.pending = none) :
    ∃ location, machine.location = .ok location := by
  obtain ⟨stack, pending, pieces⟩ := machine
  cases settled
  cases pieces with
  | nil => exact ⟨_, rfl⟩
  | cons piece pieces => exact ⟨_, rfl⟩

end Machine

namespace LocationExpression

variable {expression : LocationExpression} {evaluation : Evaluation} {bytes : List UInt8}
  {encoding : Encoding}

/-! ## Destinations -/

theorem following_eq (operation : Operation) :
    expression.following operation operation.operand.toSigned =
      match expression.operationsFrom? operation.destination with
      | some operations => .ok operations
      | none => .error (.invalidBranch operation.offset operation.destination) :=
  rfl

/-- An operation is found at its own offset. -/
theorem operationsFrom?_offset (decoded : decode bytes encoding = .ok expression)
    {before after : List Operation} {other : Operation}
    (split : expression.operations = before ++ other :: after) :
    expression.operationsFrom? other.offset = some (other :: after) := by
  have stored := stored_of_decode decoded
  rw [split] at stored
  have inside := stored.offset_lt (List.mem_append_right before List.mem_cons_self)
  have unfinished : (other.offset : Int) ≠ bytes.length := by omega
  have passed : ∀ operation ∈ before, ((operation.offset : Int) != other.offset) = true := by
    intro operation member
    have below := stored.lt_of_mem_before member
    exact bne_iff_ne.mpr (by omega)
  have found : ¬((other.offset : Int) != other.offset) = true := by simp
  have reached : (before ++ other :: after).dropWhile
      (fun operation => (operation.offset : Int) != other.offset) = other :: after := by
    rw [List.dropWhile_append_of_pos passed]
    exact List.dropWhile_cons_of_neg found
  rw [decode_ok decoded, operationsFrom?, if_neg unfinished]
  dsimp only
  rw [split, reached]

theorem operationsFrom?_of_ne {destination : Int}
    (unfinished : destination ≠ expression.bytes.length)
    (others : ∀ other ∈ expression.operations, (other.offset : Int) ≠ destination) :
    expression.operationsFrom? destination = none := by
  have nothing : expression.operations.dropWhile
      (fun operation => (operation.offset : Int) != destination) = [] :=
    List.dropWhile_eq_nil_iff.mpr fun other member => bne_iff_ne.mpr (others other member)
  rw [operationsFrom?, if_neg unfinished, nothing]

/-- The operations from a byte offset on, found by halving. -/
def halve? (expression : LocationExpression) (destination : Int) : Option (List Operation) :=
  if destination < 0 ∨ expression.bytes.length < destination then none
  else if destination = expression.bytes.length then some []
  else
    let items := expression.operations.toArray
    let position :=
      Bisection.narrow (fun operation => (operation.offset : Int) ≤ destination) items 0 items.size
    match expression.operations.drop position with
    | [] => none
    | operation :: rest =>
      if (operation.offset : Int) = destination then some (operation :: rest) else none

/-- Halving ends at the operation that begins at the destination. -/
theorem narrow_offset (decoded : decode bytes encoding = .ok expression)
    {before after : List Operation} {other : Operation}
    (split : expression.operations = before ++ other :: after) :
    Bisection.narrow (fun operation => (operation.offset : Int) ≤ other.offset)
      expression.operations.toArray 0 expression.operations.toArray.size = before.length := by
  have stored := stored_of_decode decoded
  have inside : before.length < expression.operations.toArray.size := by
    rw [split, List.size_toArray, List.length_append, List.length_cons]
    omega
  rw [split] at stored
  have front_holds : ∀ operation ∈ before ++ [other],
      decide ((operation.offset : Int) ≤ other.offset) = true := by
    intro operation member
    rcases List.mem_append.mp member with earlier | last
    · have below := stored.lt_of_mem_before earlier
      exact decide_eq_true (by omega)
    · cases List.mem_singleton.mp last
      exact decide_eq_true (Int.le_refl _)
  have back_fails : ∀ operation ∈ after,
      decide ((operation.offset : Int) ≤ other.offset) = false := by
    intro operation member
    have above := stored.lt_of_mem_after member
    exact decide_eq_false (by omega)
  have splits := Bisection.splits_append front_holds back_fails
  rw [List.append_assoc, List.singleton_append, ← split, List.length_append,
    List.length_singleton] at splits
  exact splits.narrow_eq inside

/-- Halving finds the same operations as going through them. -/
theorem halve?_eq (decoded : decode bytes encoding = .ok expression) (destination : Int) :
    expression.halve? destination = expression.operationsFrom? destination := by
  have kept : expression.bytes = bytes := bytes_of_decode decoded
  by_cases finished : destination = expression.bytes.length
  · have within : ¬(destination < 0 ∨ expression.bytes.length < destination) := by omega
    rw [halve?, if_neg within, if_pos finished, operationsFrom?, if_pos finished]
  · by_cases found : ∃ other ∈ expression.operations, (other.offset : Int) = destination
    · obtain ⟨other, member, rfl⟩ := found
      obtain ⟨before, after, split⟩ := List.append_of_mem member
      have inside := (stored_of_decode decoded).offset_lt member
      have within : ¬((other.offset : Int) < 0 ∨ expression.bytes.length < (other.offset : Int)) := by
        rw [kept]
        omega
      rw [operationsFrom?_offset decoded split, halve?, if_neg within, if_neg finished]
      dsimp only
      rw [narrow_offset decoded split, split, List.drop_left]
      exact if_pos rfl
    · have others : ∀ other ∈ expression.operations, (other.offset : Int) ≠ destination :=
        fun other member same => found ⟨other, member, same⟩
      rw [operationsFrom?_of_ne finished others, halve?, if_neg finished]
      split
      · rfl
      · dsimp only
        split
        · rfl
        next operation rest dropped =>
          have member : operation ∈ expression.operations :=
            List.mem_of_mem_drop (dropped ▸ List.mem_cons_self)
          rw [if_neg (others operation member)]

section

variable {machine next : Machine} {operation : Operation} (jumps : machine.Jumps operation next)
  (budget : Nat) (rest : List Operation)
include jumps

theorem run_jump :
    expression.run evaluation (budget + 1) (operation :: rest) machine =
      Access.ofExcept (expression.following operation operation.operand.toSigned) >>=
        fun following => expression.run evaluation budget following next := by
  rw [run, jumps.step_eq]
  rfl

theorem run_jump_to (decoded : decode bytes encoding = .ok expression)
    {before after : List Operation} {other : Operation}
    (split : expression.operations = before ++ other :: after)
    (lands : (other.offset : Int) = operation.destination) :
    expression.run evaluation (budget + 1) (operation :: rest) machine =
      expression.run evaluation budget (other :: after) next := by
  rw [run_jump jumps, following_eq, ← lands, operationsFrom?_offset decoded split]
  rfl

theorem run_jump_to_end (ends : operation.destination = expression.bytes.length) :
    ∃ location, next.location = .ok location ∧
      expression.run evaluation (budget + 1) (operation :: rest) machine = pure location := by
  obtain ⟨location, located⟩ := Machine.exists_location jumps.settled
  refine ⟨location, located, ?_⟩
  rw [run_jump jumps, following_eq, operationsFrom?, if_pos ends]
  change expression.run evaluation budget [] next = pure location
  rw [run, located]
  rfl

theorem run_jump_astray (unfinished : operation.destination ≠ expression.bytes.length)
    (others : ∀ other ∈ expression.operations, (other.offset : Int) ≠ operation.destination) :
    expression.run evaluation (budget + 1) (operation :: rest) machine =
      throw (.invalidBranch operation.offset operation.destination) := by
  rw [run_jump jumps, following_eq, operationsFrom?_of_ne unfinished others]
  rfl

end

/-! ## Where execution comes -/

/-- The operations begin at a byte offset: the bytes before it are decoded as the operations before
them, and the bytes from it on are decoded as these operations, at offsets that count from it. -/
def BeginAt (expression : LocationExpression) (offset : Nat) (operations : List Operation) : Prop :=
  ∃ before front back later, expression.operations = before ++ operations ∧
    expression.bytes = front ++ back ∧ front.length = offset ∧
    decode front expression.encoding = .ok ⟨front, before, expression.encoding⟩ ∧
    decode back expression.encoding = .ok ⟨back, later, expression.encoding⟩ ∧
    operations = later.map (Operation.shift offset)

/-- Every operation begins at its offset, and nothing is left at the end. -/
theorem exists_beginAt (decoded : decode bytes encoding = .ok expression)
    {operations : List Operation} (suffix : operations <:+ expression.operations) :
    ∃ offset, expression.BeginAt offset operations ∧
      (∀ operation ∈ operations.head?, operation.offset = offset) ∧
      (operations = [] → offset = bytes.length) := by
  obtain ⟨before, split⟩ := suffix
  have stored := stored_of_decode decoded
  rw [← split] at stored
  obtain ⟨front, back, rfl, left, right⟩ := stored.of_append
  have first := right.head_offset
  obtain ⟨later, placed, alone⟩ := right.unshift
  rw [Nat.zero_add] at first
  refine ⟨front.length, ⟨before, front, back, later, split.symm, ?_, rfl, ?_, ?_, placed⟩, first, ?_⟩
  · rw [decode_ok decoded]
  · rw [decode_ok decoded]
    exact left.decoded
  · rw [decode_ok decoded]
    exact alone.decoded
  · rintro rfl
    cases right
    rw [List.append_nil]

/-- A branch leads to the last operations of an expression. -/
theorem following_suffix {operation : Operation} {displacement : Int64}
    {following : List Operation}
    (found : expression.following operation displacement = .ok following) :
    following <:+ expression.operations := by
  unfold LocationExpression.following operationsFrom? at found
  dsimp only at found
  split at found
  next operations somewhere =>
    cases found
    split at somewhere
    next =>
      cases somewhere
      exact List.nil_suffix
    next =>
      split at somewhere
      next => cases somewhere
      next tail =>
        cases somewhere
        exact List.dropWhile_suffix _
  next => cases found

variable {target : Option Target}

/-- With a target an evaluation comes to a state, in which so much of the budget and these operations
are left, after some reads. -/
inductive ComesTo (expression : LocationExpression) (evaluation : Evaluation)
    (target : Option Target) : Nat → List Operation → Machine → Array TargetRead → Prop where
  | start : ComesTo expression evaluation target evaluation.budget expression.operations
      (.start evaluation) #[]
  | step {budget : Nat} {operation : Operation} {rest following : List Operation}
      {machine next : Machine} {reads later : Array TargetRead}
      (came : ComesTo expression evaluation target (budget + 1) (operation :: rest) machine reads)
      (advanced : (expression.advance evaluation operation rest machine).resume target reads =
        (.ok (following, next), later)) :
      ComesTo expression evaluation target budget following next later

theorem ensures_advance_suffix {operation : Operation} {rest : List Operation} {machine : Machine}
    (suffix : operation :: rest <:+ expression.operations) :
    (expression.advance evaluation operation rest machine).Ensures fun result =>
      result.1 <:+ expression.operations := by
  refine Access.ensures_true.bind fun (next, jump) _ => ?_
  cases jump with
  | none => exact Access.ensures_pure ((List.suffix_cons operation rest).trans suffix)
  | some displacement =>
      dsimp only [goOn]
      cases found : expression.following operation displacement with
      | error => exact Access.ensures_throw
      | ok following => exact Access.ensures_pure (following_suffix found)

/-- What is left to execute are the last operations of the expression, and executing them is what is
left of the evaluation. -/
theorem ComesTo.left {budget : Nat} {operations : List Operation} {machine : Machine}
    {reads : Array TargetRead}
    (comes : expression.ComesTo evaluation target budget operations machine reads) :
    operations <:+ expression.operations ∧
      (expression.evaluate evaluation).run target =
        (expression.run evaluation budget operations machine).resume target reads := by
  induction comes with
  | start => exact ⟨List.suffix_refl _, rfl⟩
  | step _ advanced ih =>
      obtain ⟨suffix, same⟩ := ih
      rw [resume_run_cons, advanced] at same
      exact ⟨ensures_advance_suffix suffix _ _ _ _ advanced, same⟩

/-! ## Destinations in words -/

theorem toInt_add_of_fits {first second : Int64}
    (least : -(2 ^ 63 : Int) ≤ first.toInt + second.toInt)
    (most : first.toInt + second.toInt < 2 ^ 63) :
    (first + second).toInt = first.toInt + second.toInt := by
  rw [Int64.toInt_add]
  apply Int.bmod_eq_of_le
  · exact least
  · exact most

/-- In the expressions that fit into memory no sum overflows on the way to a destination. -/
theorem destination_in_words (decoded : decode bytes encoding = .ok expression)
    (short : bytes.length + 2 ^ 15 ≤ 2 ^ 63) {operation : Operation}
    (member : operation ∈ expression.operations) (branches : operation.IsBranch) :
    (Int64.ofNat bytes.length).toInt = bytes.length ∧
      (Int64.ofNat operation.offset).toInt = operation.offset ∧
      (Int64.ofNat operation.offset + 3).toInt = operation.offset + 3 ∧
      (Int64.ofNat operation.offset + 3 + operation.operand.toSigned).toInt =
        operation.destination := by
  obtain ⟨inside, least, most⟩ := (stored_of_decode decoded).branch member branches
  have three : (3 : Int64).toInt = 3 := rfl
  have length_eq : (Int64.ofNat bytes.length).toInt = bytes.length :=
    Int64.toInt_ofNat_of_lt (by omega)
  have offset_eq : (Int64.ofNat operation.offset).toInt = operation.offset :=
    Int64.toInt_ofNat_of_lt (by omega)
  have behind : (Int64.ofNat operation.offset + 3).toInt = operation.offset + 3 := by
    rw [toInt_add_of_fits, offset_eq, three]
    · omega
    · omega
  refine ⟨length_eq, offset_eq, behind, ?_⟩
  rw [toInt_add_of_fits, behind]
  · rfl
  · omega
  · omega

/-! ## Branches -/

/-- Where branches lead in an expression that has been decoded.  A branch leads to the operation that
begins at its destination, or ends the evaluation normally at the end of the expression, or is refused
where no operation begins.  To find the destination by halving is to find it, and to compute it in
words does not overflow.  Whatever state an evaluation comes to, what is left to execute begins where
the decoder has found an operation, or at the end. -/
theorem branches_land (decoded : decode bytes encoding = .ok expression)
    (evaluation : Evaluation) (target : Option Target) :
    (∀ (machine next : Machine) (operation : Operation), machine.Jumps operation next →
      ∀ (budget : Nat) (rest : List Operation),
      (∀ before other after, expression.operations = before ++ other :: after →
        (other.offset : Int) = operation.destination →
        expression.run evaluation (budget + 1) (operation :: rest) machine =
          expression.run evaluation budget (other :: after) next) ∧
      (operation.destination = bytes.length → ∃ location, next.location = .ok location ∧
        expression.run evaluation (budget + 1) (operation :: rest) machine = pure location) ∧
      (operation.destination ≠ bytes.length →
        (∀ other ∈ expression.operations, (other.offset : Int) ≠ operation.destination) →
        expression.run evaluation (budget + 1) (operation :: rest) machine =
          throw (.invalidBranch operation.offset operation.destination))) ∧
    (∀ destination, expression.halve? destination = expression.operationsFrom? destination) ∧
    (bytes.length + 2 ^ 15 ≤ 2 ^ 63 →
      ∀ operation ∈ expression.operations, operation.IsBranch →
        (Int64.ofNat bytes.length).toInt = bytes.length ∧
        (Int64.ofNat operation.offset).toInt = operation.offset ∧
        (Int64.ofNat operation.offset + 3).toInt = operation.offset + 3 ∧
        (Int64.ofNat operation.offset + 3 + operation.operand.toSigned).toInt =
          operation.destination) ∧
    (∀ budget operations machine reads,
      expression.ComesTo evaluation target budget operations machine reads →
      (expression.evaluate evaluation).run target =
          (expression.run evaluation budget operations machine).resume target reads ∧
        ∃ offset, expression.BeginAt offset operations ∧
          (∀ operation ∈ operations.head?, operation.offset = offset) ∧
          (operations = [] → offset = bytes.length)) := by
  have kept : expression.bytes = bytes := bytes_of_decode decoded
  refine ⟨?_, halve?_eq decoded,
    fun short operation member branches => destination_in_words decoded short member branches, ?_⟩
  · intro machine next operation jumps budget rest
    refine ⟨fun before other after split lands => run_jump_to jumps budget rest decoded split lands,
      fun ends => ?_, fun unfinished others => ?_⟩
    · exact run_jump_to_end jumps budget rest (kept ▸ ends)
    · exact run_jump_astray jumps budget rest (kept ▸ unfinished) others
  · intro budget operations machine reads comes
    obtain ⟨suffix, same⟩ := comes.left
    exact ⟨same, exists_beginAt decoded suffix⟩

/-- The loop branches back to its second operation; a displacement of zero would end it, and one byte
further back there is the operand of a register. -/
theorem branches_land_countdown :
    decode countdown.bytes countdown.encoding = .ok countdown ∧
      Machine.Jumps ⟨[1, 7], none, []⟩ ⟨5, .bra, .signed (-6)⟩ ⟨[7], none, []⟩ ∧
      countdown.run {} 10 [⟨5, .bra, .signed (-6)⟩] ⟨[1, 7], none, []⟩ =
        countdown.run {} 9 (countdown.operations.drop 1) ⟨[7], none, []⟩ ∧
      (∃ location, (⟨[7], none, []⟩ : Machine).location = .ok location ∧
        countdown.run {} 10 [⟨5, .bra, .signed 0⟩] ⟨[1, 7], none, []⟩ = pure location) ∧
      countdown.run {} 10 [⟨5, .bra, .signed (-7)⟩] ⟨[1, 7], none, []⟩ =
        throw (.invalidBranch 5 1) ∧
      countdown.halve? 2 = countdown.operationsFrom? 2 ∧
      (Int64.ofNat 5 + 3 + (-6)).toInt = 2 ∧
      ∃ offset, countdown.BeginAt offset countdown.operations := by
  have decoded : decode countdown.bytes countdown.encoding = .ok countdown := by decide +kernel
  have jumps (displacement : Int64) :
      Machine.Jumps ⟨[1, 7], none, []⟩ ⟨5, .bra, .signed displacement⟩ ⟨[7], none, []⟩ :=
    .branch rfl rfl rfl (by decide)
  obtain ⟨lands, halves, words, comes⟩ := branches_land decoded {} none
  have back := (lands _ _ _ (jumps (-6)) 9 []).1 [⟨0, ⟨0x77⟩, .signed 0⟩] _ _ rfl (by decide)
  have ended := (lands _ _ _ (jumps 0) 9 []).2.1 (by decide)
  have astray := (lands _ _ _ (jumps (-7)) 9 []).2.2 (by decide) (by decide)
  have exact_sum := (words (by decide) ⟨5, .bra, .signed (-6)⟩ (by decide) (jumps (-6)).isBranch).2.2.2
  obtain ⟨_, offset, begins, _⟩ := comes _ _ _ _ .start
  exact ⟨decoded, jumps (-6), back, ended, astray, halves 2, exact_sum, offset, begins⟩

end LocationExpression

end Dwarf
