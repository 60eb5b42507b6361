import Dwarf.Proofs.Decoder.Integer
import Dwarf.Proofs.Expression.Observation
import Dwarf.Proofs.Expression.Width

/-!
# Staying in the address space

Unless an operation reads more bytes than an address has, no evaluation leaves the address space of
the target: no value on its stack is above the largest address, and neither is any address or value
that it finds.
-/

namespace Dwarf

/-- The address or value of a place is below a bound, if it has one. -/
def Place.Below (bound : Nat) (place : Place) : Prop :=
  ∀ word ∈ place.word?, word.toNat < bound

/-- Every address and every value of a location is below a bound. -/
def Location.Below (bound : Nat) : Location → Prop
  | .whole place => place.Below bound
  | .split pieces => ∀ piece ∈ pieces, piece.place.Below bound

namespace Machine

/-- Every value of a state is below a bound. -/
structure Below (bound : Nat) (machine : Machine) : Prop where
  stack : ∀ value ∈ machine.stack, value.toNat < bound
  pending : ∀ settled ∈ machine.pending, settled.2.Below bound
  pieces : ∀ piece ∈ machine.pieces, piece.place.Below bound

variable {bound : Nat} {machine : Machine}

theorem Below.takePlace (below : machine.Below bound) :
    machine.takePlace.1.Below bound ∧ machine.takePlace.2.Below bound := by
  obtain ⟨stack, pending, pieces⟩ := machine
  cases pending with
  | some settled => exact ⟨below.pending settled rfl, below.stack, nofun, below.pieces⟩
  | none =>
      cases stack with
      | nil => exact ⟨nofun, below⟩
      | cons top rest =>
          refine ⟨?_, fun value member => below.stack value (.tail _ member), nofun, below.pieces⟩
          rintro _ ⟨⟩
          exact below.stack top List.mem_cons_self

theorem Below.location (below : machine.Below bound) {location : Location}
    (found : machine.location = .ok location) : location.Below bound := by
  obtain ⟨stack, pending, pieces⟩ := machine
  cases pieces with
  | nil =>
      cases pending with
      | some settled =>
          cases found
          exact below.pending settled rfl
      | none =>
          cases found
          exact below.takePlace.1
  | cons piece pieces =>
      cases pending with
      | some => cases found
      | none =>
          cases found
          exact fun piece member => below.pieces piece (List.mem_reverse.mp member)

section

variable {evaluation : Evaluation} {encoding : Encoding} {operation : Operation}
  (sized : encoding.Sized)
  (narrow : operation.opcode = .derefSize →
    operation.operand.toUnsigned.toNat ≤ encoding.addressSize)
  (cfa : ∀ cfa ∈ evaluation.cfa, cfa.toNat < 2 ^ encoding.width)
  (inside : machine.Below (2 ^ encoding.width))
include sized narrow cfa inside

theorem Given.toNat_lt {value : UInt64}
    (given : machine.Given evaluation encoding operation value) :
    value.toNat < 2 ^ encoding.width := by
  cases given with
  | stack member => exact inside.stack value member
  | cfa known => exact cfa value known
  | truncated word =>
      rw [Encoding.truncate_eq sized, Word.ofBits_toNat sized]
      exact BitVec.isLt _
  | small small => exact Nat.lt_of_lt_of_le small sized.literals_fit
  | @read bytes read =>
      have short : bytes.length ≤ encoding.addressSize := by
        obtain ⟨-, whole⟩ | ⟨sized_read, part⟩ := read
        · exact Nat.le_of_eq whole
        · exact part ▸ narrow sized_read
      calc (UInt64.ofNat (encoding.order.value bytes)).toNat
        _ ≤ encoding.order.value bytes := by
          rw [UInt64.toNat_ofNat']
          exact Nat.mod_le _ _
        _ < 2 ^ (8 * bytes.length) := ByteOrder.value_lt _ _
        _ ≤ 2 ^ encoding.width :=
          Nat.pow_le_pow_right (by decide) (Nat.mul_le_mul_left 8 short)

/-- Every change of a state keeps its values in the address space. -/
theorem Change.below {next : Machine} (change : machine.Change evaluation encoding operation next) :
    next.Below (2 ^ encoding.width) := by
  cases change with
  | push from_stack room given =>
      refine ⟨fun value member => ?_, inside.pending, inside.pieces⟩
      obtain rfl | member := List.mem_cons.mp member
      · exact given.toNat_lt sized narrow cfa inside
      · exact inside.stack value (from_stack.subset member)
  | keep from_stack =>
      exact ⟨fun value member => inside.stack value (from_stack.subset member), inside.pending,
        inside.pieces⟩
  | settle from_stack word =>
      refine ⟨fun value member => inside.stack value (from_stack.subset member), ?_, inside.pieces⟩
      rintro _ ⟨⟩
      exact fun value member => inside.stack value (word value member)
  | piece sizeBits bitOffset =>
      obtain ⟨place, rest⟩ := inside.takePlace
      refine ⟨rest.stack, rest.pending, fun piece member => ?_⟩
      obtain rfl | member := List.mem_cons.mp member
      · exact place
      · exact rest.pieces piece member

end

end Machine

/-- An evaluation that reads no more bytes than an address has stays in the address space. -/
theorem LocationExpression.evaluate_below (expression : LocationExpression)
    (evaluation : Evaluation) (target : Option Target) (sized : expression.encoding.Sized)
    (narrow : ∀ operation ∈ expression.operations, operation.opcode = .derefSize →
      operation.operand.toUnsigned.toNat ≤ expression.encoding.addressSize)
    (cfa : ∀ cfa ∈ evaluation.cfa, cfa.toNat < 2 ^ expression.encoding.width)
    (initial : ∀ value ∈ evaluation.initial, value.toNat < 2 ^ expression.encoding.width) :
    (∀ location reads, (expression.evaluate evaluation).run target = (.ok location, reads) →
        location.Below (2 ^ expression.encoding.width)) ∧
      ∀ machine, .ok machine ∈ (expression.observe evaluation target).steps →
        ∀ value ∈ machine.stack, value.toNat < 2 ^ expression.encoding.width := by
  have start : (Machine.start evaluation).Below (2 ^ expression.encoding.width) :=
    ⟨fun value member => initial value (List.mem_reverse.mp member), nofun, nofun⟩
  obtain ⟨states, outcome⟩ := observeFrom_invariant
    (fun operation member machine next below change =>
      change.below sized (narrow operation member) cfa below)
    target evaluation.budget expression.operations (.start evaluation) #[] (List.Subset.refl _)
    start
  refine ⟨fun location reads evaluated => ?_, fun machine member => (states machine member).stack⟩
  rw [← observe_eq_run] at evaluated
  obtain ⟨machine, below, found⟩ := outcome location (congrArg Prod.fst evaluated)
  exact below.location found

/-- A target whose memory is full of set bits. -/
def Target.saturated : Target where
  register _ := .ok 0
  memory _ length := .ok (List.replicate length 0xff)

/-- Four bytes are read at address 4096. -/
theorem evaluate_derefSize_within_address :
    let expression : LocationExpression :=
      ⟨[0x0c, 0x00, 0x10, 0x00, 0x00, 0x94, 0x04],
        [⟨0, .const4u, .unsigned 0x1000⟩, ⟨5, .derefSize, .unsigned 4⟩], { addressSize := 4 }⟩
    LocationExpression.decode expression.bytes expression.encoding = .ok expression ∧
      expression.encoding.Sized ∧
      (∀ operation ∈ expression.operations, operation.opcode = .derefSize →
        operation.operand.toUnsigned.toNat ≤ expression.encoding.addressSize) ∧
      (∀ cfa ∈ ({} : Evaluation).cfa, cfa.toNat < 2 ^ expression.encoding.width) ∧
      (∀ value ∈ ({} : Evaluation).initial, value.toNat < 2 ^ expression.encoding.width) ∧
      ((expression.evaluate {}).run (some .saturated)).1 = .ok (.whole (.address 0xffffffff)) ∧
      Location.Below (2 ^ 32) (.whole (.address 0xffffffff)) := by
  intro expression
  have decoded : LocationExpression.decode expression.bytes expression.encoding =
      .ok expression := by
    decide +kernel
  have sized : expression.encoding.Sized := ⟨by decide, by decide⟩
  have narrow : ∀ operation ∈ expression.operations, operation.opcode = .derefSize →
      operation.operand.toUnsigned.toNat ≤ expression.encoding.addressSize := by
    decide
  have evaluated : (expression.evaluate {}).run (some .saturated) =
      (.ok (.whole (.address 0xffffffff)), #[.memory 0x1000 4]) := by
    decide +kernel
  have below := LocationExpression.evaluate_below expression {} (some .saturated) sized narrow
    nofun nofun
  exact ⟨decoded, sized, narrow, nofun, nofun, congrArg Prod.fst evaluated,
    below.1 _ _ evaluated⟩

/-- Eight bytes are read at address 4096, and the address that they make is none of four bytes. -/
theorem evaluate_derefSize_beyond_address :
    let expression : LocationExpression :=
      ⟨[0x0c, 0x00, 0x10, 0x00, 0x00, 0x94, 0x08],
        [⟨0, .const4u, .unsigned 0x1000⟩, ⟨5, .derefSize, .unsigned 8⟩], { addressSize := 4 }⟩
    LocationExpression.decode expression.bytes expression.encoding = .ok expression ∧
      ((expression.evaluate {}).run (some .saturated)).1 =
        .ok (.whole (.address 0xffffffffffffffff)) ∧
      ¬Location.Below (2 ^ expression.encoding.width) (.whole (.address 0xffffffffffffffff)) := by
  intro expression
  refine ⟨by decide +kernel, by decide +kernel, fun below => ?_⟩
  have small : 0xffffffffffffffff < 2 ^ 32 := below 0xffffffffffffffff rfl
  exact absurd small (by decide)

end Dwarf
