import Dwarf.Proofs.Expression.Decoding
import Dwarf.Proofs.Expression.Refinement

/-!
# Evaluation at a narrower width

The low bits of a sum, a product or a complement depend on the low bits of the operands only, and
moving values on the stack does not look at them.  An expression that is made of nothing else finds
at a narrow width what it finds at a wide one, modulo the narrow width, and fails where and as it
fails there.
-/

namespace Dwarf

open Word

/-! ## Locations modulo a bound -/

/-- The same place with its address or value modulo a bound. -/
def Place.modulo (bound : Nat) : Place → Place
  | .address word => .address (UInt64.ofNat (word.toNat % bound))
  | .value word => .value (UInt64.ofNat (word.toNat % bound))
  | place => place

/-- The same location with its addresses and values modulo a bound. -/
def Location.modulo (bound : Nat) : Location → Location
  | .whole place => .whole (place.modulo bound)
  | .split pieces => .split (pieces.map fun piece => { piece with place := piece.place.modulo bound })

/-! ## Operations -/

/-- The opcodes whose results keep their low bits at a narrower width, apart from the literals. -/
def Opcode.linear : List Opcode :=
  [.const1u, .const1s, .const2u, .const2s, .const4u, .const4s, .const8u, .const8s, .constu,
    .consts, .dup, .drop, .dupSecond, .pick, .swap, .rot, .plus, .minus, .mul, .neg, .not, .and,
    .or, .xor, .plusUconst, .stackValue]

/-- An operation of a straight line that adds, multiplies, complements or moves values. -/
def Operation.Linear (operation : Operation) : Prop :=
  operation.opcode ∈ Opcode.linear ∨ ∃ number, operation.opcode.series? = some (.literal, number)

variable {wide narrow : Nat} {operation : Operation}

theorem Operation.Linear.computes (linear : operation.Linear) : operation.Computes := by
  have included : ∀ opcode ∈ Opcode.linear, opcode ∈ Opcode.computing := by decide
  exact linear.imp_left (included operation.opcode)

theorem Operation.Linear.ne_addr (linear : operation.Linear) : operation.opcode ≠ .addr := by
  have excluded : Opcode.addr ∉ Opcode.linear := by decide
  intro same
  rw [Operation.Linear, same] at linear
  obtain member | ⟨number, literal⟩ := linear
  · exact excluded member
  · cases literal

/-- Two actions move values alike, and what the one computes has the low bits that the other
computes from the low bits. -/
inductive BitAction.Narrows : BitAction wide → BitAction narrow → Prop where
  | push {value : BitVec wide} {other : BitVec narrow} (low : value.setWidth narrow = other) :
      Narrows (.push value) (.push other)
  | copy (depth : Nat) : Narrows (.copy depth) (.copy depth)
  | drop : Narrows .drop .drop
  | swap : Narrows .swap .swap
  | rotate : Narrows .rotate .rotate
  | unary {f : BitVec wide → BitVec wide} {g : BitVec narrow → BitVec narrow}
      (low : ∀ x, (f x).setWidth narrow = g (x.setWidth narrow)) : Narrows (.unary f) (.unary g)
  | total {f : BitVec wide → BitVec wide → BitVec wide}
      {g : BitVec narrow → BitVec narrow → BitVec narrow}
      (low : ∀ x y, (f x y).setWidth narrow = g (x.setWidth narrow) (y.setWidth narrow)) :
      Narrows (.total f) (.total g)
  | answer : Narrows .answer .answer

theorem setWidth_ofInt (le : narrow ≤ wide) (number : Int) :
    (BitVec.ofInt wide number).setWidth narrow = BitVec.ofInt narrow number := by
  apply BitVec.eq_of_toInt_eq
  rw [Encoding.setWidth_toInt le, BitVec.toInt_ofInt, BitVec.toInt_ofInt,
    Int.bmod_bmod_of_dvd (Nat.pow_dvd_pow 2 le)]

theorem setWidth_sub (le : narrow ≤ wide) (x y : BitVec wide) :
    (x - y).setWidth narrow = x.setWidth narrow - y.setWidth narrow := by
  rw [BitVec.sub_eq_add_neg, BitVec.setWidth_add _ _ le, BitVec.setWidth_neg_of_le le,
    BitVec.sub_eq_add_neg]

/-- The actions of an operation at two widths. -/
theorem narrows (le : narrow ≤ wide) (linear : operation.Linear) :
    ∃ action other, BitAction.of? wide operation = some action ∧
      BitAction.of? narrow operation = some other ∧ action.Narrows other := by
  have unsigned (number : Nat) :
      (BitVec.ofNat wide number).setWidth narrow = BitVec.ofNat narrow number :=
    BitVec.setWidth_ofNat_of_le le number
  have signed (number : Int) := setWidth_ofInt le number
  obtain member | ⟨number, literal⟩ := linear
  · obtain ⟨offset, opcode, operand⟩ := operation
    simp only [Opcode.linear, List.mem_cons, List.not_mem_nil, or_false] at member
    rcases member with rfl | rfl | rfl | rfl | rfl | rfl | rfl | rfl | rfl | rfl | rfl | rfl |
      rfl | rfl | rfl | rfl | rfl | rfl | rfl | rfl | rfl | rfl | rfl | rfl | rfl | rfl
    · exact ⟨_, _, rfl, rfl, .push (unsigned _)⟩
    · exact ⟨_, _, rfl, rfl, .push (signed _)⟩
    · exact ⟨_, _, rfl, rfl, .push (unsigned _)⟩
    · exact ⟨_, _, rfl, rfl, .push (signed _)⟩
    · exact ⟨_, _, rfl, rfl, .push (unsigned _)⟩
    · exact ⟨_, _, rfl, rfl, .push (signed _)⟩
    · exact ⟨_, _, rfl, rfl, .push (unsigned _)⟩
    · exact ⟨_, _, rfl, rfl, .push (signed _)⟩
    · exact ⟨_, _, rfl, rfl, .push (unsigned _)⟩
    · exact ⟨_, _, rfl, rfl, .push (signed _)⟩
    · exact ⟨_, _, rfl, rfl, .copy 0⟩
    · exact ⟨_, _, rfl, rfl, .drop⟩
    · exact ⟨_, _, rfl, rfl, .copy 1⟩
    · exact ⟨_, _, rfl, rfl, .copy _⟩
    · exact ⟨_, _, rfl, rfl, .swap⟩
    · exact ⟨_, _, rfl, rfl, .rotate⟩
    · exact ⟨_, _, rfl, rfl, .total fun _ _ => BitVec.setWidth_add _ _ le⟩
    · exact ⟨_, _, rfl, rfl, .total fun _ _ => setWidth_sub le _ _⟩
    · exact ⟨_, _, rfl, rfl, .total fun _ _ => BitVec.setWidth_mul _ _ le⟩
    · exact ⟨_, _, rfl, rfl, .unary fun _ => BitVec.setWidth_neg_of_le le⟩
    · exact ⟨_, _, rfl, rfl, .unary fun _ => BitVec.setWidth_not le⟩
    · exact ⟨_, _, rfl, rfl, .total fun _ _ => BitVec.setWidth_and⟩
    · exact ⟨_, _, rfl, rfl, .total fun _ _ => BitVec.setWidth_or⟩
    · exact ⟨_, _, rfl, rfl, .total fun _ _ => BitVec.setWidth_xor⟩
    · exact ⟨_, _, rfl, rfl, .unary fun _ => by rw [BitVec.setWidth_add _ _ le, unsigned]⟩
    · exact ⟨_, _, rfl, rfl, .answer⟩
  · refine ⟨.push (BitVec.ofNat wide number), .push (BitVec.ofNat narrow number), ?_, ?_,
      .push (unsigned number)⟩ <;>
    simp only [BitAction.of?, literal]

/-! ## Runs -/

namespace BitMachine

/-- The same state with the low bits of its values. -/
def narrowTo (narrow : Nat) (machine : BitMachine wide) : BitMachine narrow where
  place := machine.place
  stack := machine.stack.map (BitVec.setWidth narrow)
  answer := machine.answer.map fun (offset, value) => (offset, value.setWidth narrow)

variable {expression other : LocationExpression} {limit : Nat}

theorem push_narrowTo {value : BitVec wide} {low : BitVec narrow}
    (same : value.setWidth narrow = low) (machine : BitMachine wide) (stack : List (BitVec wide)) :
    (machine.narrowTo narrow).push limit operation (stack.map (BitVec.setWidth narrow)) low =
      (machine.push limit operation stack value).map (narrowTo narrow) := by
  subst same
  unfold push
  rw [List.length_map]
  split <;> rfl

theorem act_narrowTo {action : BitAction wide} {low : BitAction narrow} (narrows : action.Narrows low)
    (machine : BitMachine wide) :
    (machine.narrowTo narrow).act other limit operation low =
      (machine.act expression limit operation action).map (narrowTo narrow) := by
  obtain ⟨place, stack, answer⟩ := machine
  cases narrows with
  | push same => exact push_narrowTo same ⟨place, stack, answer⟩ stack
  | copy depth =>
      simp only [act, narrowTo, List.getElem?_map]
      cases stack[depth]? with
      | none => rfl
      | some value => exact push_narrowTo rfl ⟨place, stack, answer⟩ stack
  | drop =>
      obtain _ | ⟨x, stack⟩ := stack
      · rfl
      · rfl
  | swap =>
      obtain _ | ⟨x, _ | ⟨y, stack⟩⟩ := stack
      · rfl
      · rfl
      · rfl
  | rotate =>
      obtain _ | ⟨x, _ | ⟨y, _ | ⟨z, stack⟩⟩⟩ := stack
      · rfl
      · rfl
      · rfl
      · rfl
  | unary same =>
      obtain _ | ⟨x, stack⟩ := stack
      · rfl
      · exact push_narrowTo (same x) ⟨place, x :: stack, answer⟩ stack
  | total same =>
      obtain _ | ⟨y, _ | ⟨x, stack⟩⟩ := stack
      · rfl
      · rfl
      · exact push_narrowTo (same x y) ⟨place, y :: x :: stack, answer⟩ stack
  | answer =>
      obtain _ | ⟨x, stack⟩ := stack
      · rfl
      · rfl

theorem step_narrowTo (le : narrow ≤ wide) (linear : operation.Linear) (machine : BitMachine wide) :
    (machine.narrowTo narrow).step other limit operation =
      (machine.step expression limit operation).map (narrowTo narrow) := by
  obtain ⟨action, low, known, low_known, narrows⟩ := narrows le linear
  unfold step
  rw [known, low_known]
  obtain ⟨place, stack, answer⟩ := machine
  cases answer with
  | some => rfl
  | none => exact act_narrowTo narrows ⟨place, stack, none⟩

theorem ofBits_setWidth (le : narrow ≤ wide) (fits : wide ≤ 64) (bits : BitVec wide) :
    ofBits (bits.setWidth narrow) = UInt64.ofNat ((ofBits bits).toNat % 2 ^ narrow) := by
  have below : bits.toNat % 2 ^ narrow < 2 ^ 64 :=
    Nat.lt_of_lt_of_le (Nat.mod_lt _ (Nat.two_pow_pos narrow))
      (Nat.pow_le_pow_right (by decide) (Nat.le_trans le fits))
  rw [← UInt64.toNat_inj, toNat_ofBits (Nat.le_trans le fits), toNat_ofBits fits,
    BitVec.toNat_setWidth, UInt64.toNat_ofNat', Nat.mod_eq_of_lt below]

theorem location_narrowTo (le : narrow ≤ wide) (fits : wide ≤ 64) (machine : BitMachine wide) :
    (machine.narrowTo narrow).location = machine.location.modulo (2 ^ narrow) := by
  obtain ⟨place, stack, answer⟩ := machine
  cases answer with
  | some answer =>
      exact congrArg (fun word => Location.whole (.value word)) (ofBits_setWidth le fits _)
  | none =>
      obtain _ | ⟨top, stack⟩ := stack
      · rfl
      · exact congrArg (fun word => Location.whole (.address word)) (ofBits_setWidth le fits top)

/-- A run at the narrow width does what the run at the wide one does, modulo the narrow width. -/
theorem run_narrowTo (le : narrow ≤ wide) (fits : wide ≤ 64)
    (same : other.operations = expression.operations)
    (linear : ∀ operation ∈ expression.operations, operation.Linear) {evaluation : Evaluation}
    (budget : Nat) (machine : BitMachine wide) :
    run other evaluation budget (machine.narrowTo narrow) =
      (run expression evaluation budget machine).map (Location.modulo (2 ^ narrow)) := by
  have location := location_narrowTo le fits machine
  induction budget generalizing machine with
  | zero =>
      unfold run
      rw [same, narrowTo]
      dsimp only
      cases expression.operations[machine.place]? with
      | none => exact congrArg Except.ok location
      | some => rfl
  | succ budget ih =>
      unfold run
      rw [same]
      cases next : expression.operations[machine.place]? with
      | none =>
          have ended : expression.operations[(machine.narrowTo narrow).place]? = none := next
          simp only [ended]
          exact congrArg Except.ok location
      | some operation =>
          have found : expression.operations[(machine.narrowTo narrow).place]? = some operation :=
            next
          simp only [found]
          have stepped : (machine.narrowTo narrow).step other evaluation.stackLimit operation =
              (machine.step expression evaluation.stackLimit operation).map (narrowTo narrow) :=
            step_narrowTo le (linear operation (List.mem_of_getElem? next)) machine
          rw [stepped]
          cases machine.step expression evaluation.stackLimit operation with
          | error => rfl
          | ok following => exact ih following (location_narrowTo le fits following)

theorem start_narrowTo (le : narrow ≤ wide) (evaluation : Evaluation) :
    (start wide evaluation).narrowTo narrow = start narrow evaluation := by
  unfold start narrowTo
  rw [List.map_map]
  congr 2
  funext value
  exact BitVec.setWidth_ofNat_of_le le _

end BitMachine

/-! ## Evaluation -/

namespace LocationExpression

theorem evaluate_linear {expression : LocationExpression} (sized : expression.encoding.Sized)
    (linear : ∀ operation ∈ expression.operations, operation.Linear) {evaluation : Evaluation}
    (below : ∀ value ∈ evaluation.initial, value.toNat < 2 ^ expression.encoding.width)
    (target : Option Target) :
    (expression.evaluate evaluation).run target =
      (BitMachine.run expression evaluation evaluation.budget
        (.start expression.encoding.width evaluation), #[]) := by
  rw [Access.run_eq_resume, evaluate, start_eq sized below]
  exact resume_run sized (fun operation member => (linear operation member).computes)
    evaluation.budget (.start expression.encoding.width evaluation)

/-- A straight line of sums, products, complements and moves is decoded at a narrow address size
just when it is decoded at the widest, and it finds there what it finds at the widest, modulo the
narrow width, or fails with the same error. -/
theorem evaluate_narrow_eq_modulo (bytes : List UInt8) (operations : List Operation)
    (encoding : Encoding) {size : Nat} (possible : size ∈ [1, 2, 4])
    (linear : ∀ operation ∈ operations, operation.Linear) (evaluation : Evaluation)
    (below : ∀ value ∈ evaluation.initial, value.toNat < 2 ^ (8 * size))
    (target : Option Target) :
    let narrow : LocationExpression := ⟨bytes, operations, { encoding with addressSize := size }⟩
    let wide : LocationExpression := ⟨bytes, operations, { encoding with addressSize := 8 }⟩
    (decode bytes narrow.encoding = .ok narrow ↔ decode bytes wide.encoding = .ok wide) ∧
      ∃ outcome, (wide.evaluate evaluation).run target = (outcome, #[]) ∧
        (narrow.evaluate evaluation).run target =
          (outcome.map (Location.modulo (2 ^ (8 * size))), #[]) := by
  intro narrow wide
  simp only [List.mem_cons, List.not_mem_nil, or_false] at possible
  have others : ∀ operation ∈ operations, operation.opcode ≠ .addr :=
    fun operation member => (linear operation member).ne_addr
  have narrow_sized : narrow.encoding.Sized := by constructor <;> dsimp only [narrow] <;> omega
  have wide_sized : wide.encoding.Sized := ⟨Nat.le_add_left 1 7, Nat.le_refl 8⟩
  have le : narrow.encoding.width ≤ wide.encoding.width := Nat.mul_le_mul_left 8 narrow_sized.fits
  have wide_below : ∀ value ∈ evaluation.initial, value.toNat < 2 ^ wide.encoding.width :=
    fun value _ => value.toNat_lt
  have narrowed : BitMachine.run narrow evaluation evaluation.budget
        (.start narrow.encoding.width evaluation) =
      (BitMachine.run wide evaluation evaluation.budget
        (.start wide.encoding.width evaluation)).map (Location.modulo (2 ^ (8 * size))) := by
    have same : narrow.operations = wide.operations := rfl
    rw [← BitMachine.start_narrowTo le]
    exact BitMachine.run_narrowTo le wide_sized.width_le same linear evaluation.budget _
  refine ⟨⟨fun decoded => ?_, fun decoded => ?_⟩, _, evaluate_linear wide_sized linear wide_below
    target, ?_⟩
  · exact @decode_withAddressSize bytes operations narrow.encoding others 8 decoded
  · exact @decode_withAddressSize bytes operations wide.encoding others size decoded
  · rw [evaluate_linear narrow_sized linear below, narrowed]

/-- A sum that exceeds four bytes wraps there, and does not in eight. -/
theorem wrapping_sum :
    let sum : List Operation :=
      [⟨0, ⟨0x35⟩, .none⟩, ⟨1, .plus, .none⟩, ⟨2, .stackValue, .none⟩]
    let narrow : LocationExpression := ⟨[0x35, 0x22, 0x9f], sum, { addressSize := 4 }⟩
    let wide : LocationExpression := ⟨[0x35, 0x22, 0x9f], sum, { addressSize := 8 }⟩
    let evaluation : Evaluation := { initial := [0xfffffffe] }
    decode narrow.bytes narrow.encoding = .ok narrow ∧ decode wide.bytes wide.encoding = .ok wide ∧
      (wide.evaluate evaluation).run none = (.ok (.whole (.value 0x100000003)), #[]) ∧
      (narrow.evaluate evaluation).run none = (.ok (.whole (.value 3)), #[]) := by
  intro sum narrow wide evaluation
  have linear : ∀ operation ∈ sum, operation.Linear := by
    simp only [sum, List.forall_mem_cons, List.not_mem_nil, false_imp_iff, implies_true, and_true]
    exact ⟨.inr ⟨5, rfl⟩, .inl (by decide), .inl (by decide)⟩
  have below : ∀ value ∈ evaluation.initial, value.toNat < 2 ^ (8 * 4) := by
    simp [evaluation]
  have wide_decoded : decode wide.bytes wide.encoding = .ok wide := by decide +kernel
  have value : (wide.evaluate evaluation).run none = (.ok (.whole (.value 0x100000003)), #[]) := by
    decide +kernel
  obtain ⟨decoded, outcome, wide_run, narrow_run⟩ :=
    evaluate_narrow_eq_modulo [0x35, 0x22, 0x9f] sum {} (by decide) linear evaluation below none
  have found : outcome = .ok (.whole (.value 0x100000003)) :=
    congrArg Prod.fst (wide_run.symm.trans value)
  refine ⟨decoded.mpr wide_decoded, wide_decoded, value, ?_⟩
  rw [found] at narrow_run
  exact narrow_run

end LocationExpression

end Dwarf
