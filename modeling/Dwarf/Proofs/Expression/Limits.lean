import Dwarf.Proofs.Expression.Effect
import Dwarf.Proofs.Expression.Observation

/-!
# Larger limits

An evaluation executes no more operations than its budget allows, and no operation reads the target
more than once.  An evaluation that does not come to its limits never looks at them: under larger
ones it goes through the same reads to the same outcome.
-/

namespace Dwarf

namespace Access

variable {α β : Type}

/-! ## The number of reads -/

/-- The computation adds so many reads at most, whether it succeeds or fails. -/
def Asks (count : Nat) (access : Access α) : Prop :=
  ∀ target reads, (access.resume target reads).2.size ≤ reads.size + count

theorem asks_pure (value : α) : (pure value : Access α).Asks 0 :=
  fun _ _ => Nat.le_refl _

theorem asks_throw (error : Error) : (throw error : Access α).Asks 0 :=
  fun _ _ => Nat.le_refl _

theorem asks_ofExcept (result : Except Error α) : (ofExcept result).Asks 0 :=
  fun _ _ => Nat.le_refl _

theorem asks_register (number : Nat) : (register number).Asks 1 := by
  intro target reads
  cases target with
  | none => exact Nat.le_succ _
  | some target => exact Nat.le_of_eq (Array.size_push _)

theorem asks_memory (address : UInt64) (length : Nat) : (memory address length).Asks 1 := by
  intro target reads
  cases target with
  | none => exact Nat.le_succ _
  | some target => exact Nat.le_of_eq (Array.size_push _)

theorem Asks.bind {first : Access α} {second : α → Access β} {count : Nat}
    (left : first.Asks count) (silent : ∀ value, (second value).Asks 0) :
    (first >>= second).Asks count := by
  intro target reads
  have asked := left target reads
  rw [resume_bind]
  cases begun : first.resume target reads with
  | mk outcome later =>
      rw [begun] at asked
      cases outcome with
      | error error => exact asked
      | ok value => exact Nat.le_trans (silent value target later) asked

theorem Asks.mono {access : Access α} {count more : Nat} (asks : access.Asks count)
    (enough : count ≤ more) : access.Asks more :=
  fun target reads => Nat.le_trans (asks target reads) (Nat.add_le_add_left enough _)

/-! ## Computations that come to their limits or not -/

/-- The first computation comes to its limits, or the second one does just the same. -/
def Widens (access wider : Access α) : Prop :=
  ∀ target reads, (∃ error, (access.resume target reads).1 = .error error ∧ error.Limit) ∨
    wider.resume target reads = access.resume target reads

theorem widens_refl (access : Access α) : access.Widens access :=
  fun _ _ => .inr rfl

theorem widens_throw {error : Error} (limit : error.Limit) (wider : Access α) :
    (throw error : Access α).Widens wider :=
  fun _ _ => .inl ⟨error, rfl, limit⟩

theorem Widens.bind {first wider : Access α} {second later : α → Access β}
    (left : first.Widens wider) (right : ∀ value, (second value).Widens (later value)) :
    (first >>= second).Widens (wider >>= later) := by
  intro target reads
  rw [resume_bind, resume_bind]
  rcases left target reads with ⟨error, stopped, limit⟩ | same
  · refine .inl ⟨error, ?_, limit⟩
    cases begun : first.resume target reads with
    | mk outcome middle =>
        rw [begun] at stopped
        cases stopped
        rfl
  · rw [same]
    obtain ⟨outcome, middle⟩ := first.resume target reads
    cases outcome with
    | error error => exact .inr rfl
    | ok value => exact right value target middle

end Access

open Access

namespace Machine

variable {evaluation : Evaluation} {encoding : Encoding} {operation : Operation}
  {machine : Machine}

theorem asks_pushOn (value : UInt64) : (machine.pushOn evaluation operation value).Asks 0 := by
  refine Asks.bind ?_ fun _ => asks_pure _
  unfold push
  split
  · exact asks_pure _
  · exact asks_throw _

theorem asks_readMemory (address : UInt64) (size : Nat) :
    (readMemory encoding address size).Asks 1 := by
  refine (asks_memory address size).bind fun bytes => ?_
  split
  · exact asks_throw _
  · exact asks_pure _

theorem Effect.asks (effect : Effect) : (effect.perform evaluation encoding operation).Asks 1 := by
  cases effect with
  | fail error => exact (asks_throw error).mono (Nat.zero_le 1)
  | goOn next jump => exact (asks_pure _).mono (Nat.zero_le 1)
  | push kept value => exact (asks_pushOn value).mono (Nat.zero_le 1)
  | register kept number value => exact (asks_register number).bind fun _ => asks_pushOn _
  | memory kept address size => exact (asks_readMemory address size).bind fun _ => asks_pushOn _

theorem asks_step : (machine.step evaluation encoding operation).Asks 1 := by
  obtain ⟨effect, performed⟩ := exists_effect machine evaluation encoding operation
  rw [performed]
  exact effect.asks

section

variable {budget stackLimit : Nat} (larger : evaluation.stackLimit ≤ stackLimit)
include larger

theorem widens_pushOn (value : UInt64) :
    (machine.pushOn evaluation operation value).Widens
      (machine.pushOn { evaluation with budget, stackLimit } operation value) := by
  refine Widens.bind ?_ fun _ => widens_refl _
  unfold push
  by_cases room : machine.stack.length < evaluation.stackLimit
  · rw [if_pos room, if_pos (Nat.lt_of_lt_of_le room larger)]
    exact widens_refl _
  · rw [if_neg room]
    exact widens_throw (.stack _ _) _

theorem Effect.widens (effect : Effect) :
    (effect.perform evaluation encoding operation).Widens
      (effect.perform { evaluation with budget, stackLimit } encoding operation) := by
  cases effect with
  | fail error => exact widens_refl _
  | goOn next jump => exact widens_refl _
  | push kept value => exact widens_pushOn larger value
  | register kept number value => exact (widens_refl _).bind fun _ => widens_pushOn larger _
  | memory kept address size => exact (widens_refl _).bind fun _ => widens_pushOn larger _

theorem widens_step :
    (machine.step evaluation encoding operation).Widens
      (machine.step { evaluation with budget, stackLimit } encoding operation) := by
  obtain ⟨effect, same⟩ := hasEffect_step machine evaluation encoding operation
  have performed := same evaluation.budget evaluation.stackLimit
  have again := same budget stackLimit
  dsimp only at performed again
  rw [performed, again]
  exact effect.widens larger

end

end Machine

namespace LocationExpression

variable {expression : LocationExpression} {evaluation : Evaluation}

theorem asks_advance {operation : Operation} {rest : List Operation} {machine : Machine} :
    (expression.advance evaluation operation rest machine).Asks 1 := by
  refine Machine.asks_step.bind fun (next, jump) => ?_
  cases jump with
  | none => exact asks_pure _
  | some displacement => exact (asks_ofExcept _).bind fun _ => asks_pure _

/-- There are no more reads than operations. -/
theorem observeFrom_reads_le (target : Option Target) (budget : Nat) (operations : List Operation)
    (machine : Machine) (reads : Array TargetRead) :
    let observation := expression.observeFrom evaluation target budget operations machine reads
    observation.reads.size ≤ reads.size + observation.steps.length := by
  induction budget generalizing operations machine reads with
  | zero => cases operations <;> exact Nat.le_refl _
  | succ budget ih =>
      cases operations with
      | nil => exact Nat.le_refl _
      | cons operation rest =>
          have asked :=
            @asks_advance expression evaluation operation rest machine target reads
          unfold observeFrom
          split
          next following next later advanced =>
            rw [advanced] at asked
            have behind := ih following next later
            dsimp only [List.length_cons] at asked behind ⊢
            omega
          next error later failed =>
            rw [failed] at asked
            exact asked

/-- Where an evaluation does not come to its limits, it does the same under larger ones. -/
theorem widens_run {stackLimit : Nat} (larger : evaluation.stackLimit ≤ stackLimit) (total : Nat)
    {budget more : Nat} (affordable : budget ≤ more) (operations : List Operation)
    (machine : Machine) :
    (expression.run evaluation budget operations machine).Widens
      (expression.run { evaluation with budget := total, stackLimit } more operations machine) := by
  induction budget generalizing more operations machine with
  | zero =>
      cases operations with
      | nil => cases more <;> exact widens_refl _
      | cons operation rest => exact widens_throw (.budget _) _
  | succ budget ih =>
      obtain ⟨more, rfl⟩ := Nat.exists_eq_add_of_le' (Nat.le_trans (Nat.le_add_left 1 budget) affordable)
      have affords := Nat.le_of_succ_le_succ affordable
      cases operations with
      | nil => exact widens_refl _
      | cons operation rest =>
          refine (Machine.widens_step larger).bind fun (next, jump) => ?_
          cases jump with
          | none => exact ih affords rest next
          | some displacement =>
              exact (widens_refl _).bind fun following => ih affords following next

/-- An evaluation executes no more operations and makes no more reads than its budget allows, and
unless it comes to its limits, it has the same outcome and the same reads under larger ones. -/
theorem evaluate_bounded_and_monotone (expression : LocationExpression) (evaluation : Evaluation)
    (target : Option Target) :
    let observation := expression.observe evaluation target
    (expression.evaluate evaluation).run target = (observation.outcome, observation.reads) ∧
      observation.steps.length ≤ evaluation.budget ∧
      observation.reads.size ≤ evaluation.budget ∧
      ∀ budget stackLimit, evaluation.budget ≤ budget → evaluation.stackLimit ≤ stackLimit →
        (∀ error, observation.outcome = .error error → ¬error.Limit) →
        (expression.evaluate { evaluation with budget, stackLimit }).run target =
          (observation.outcome, observation.reads) := by
  intro observation
  have observed : (expression.evaluate evaluation).run target =
      (observation.outcome, observation.reads) := observe_eq_run.symm
  have executed : observation.steps.length ≤ evaluation.budget :=
    (expression.observe_bounded evaluation target).1
  have asked : observation.reads.size ≤ 0 + observation.steps.length :=
    observeFrom_reads_le target _ _ _ _
  refine ⟨observed, executed, by omega, ?_⟩
  intro budget stackLimit affordable larger unlimited
  rw [← observed]
  have widens := @widens_run expression evaluation stackLimit larger budget evaluation.budget budget
    affordable expression.operations (.start evaluation)
  refine (widens target #[]).resolve_left ?_
  rintro ⟨error, stopped, limit⟩
  refine unlimited error ?_ limit
  rw [← stopped]
  exact (congrArg Prod.fst observed).symm

/-- An expression that counts a register down to zero. -/
def countdown : LocationExpression :=
  ⟨[0x77, 0x00, 0x31, 0x1c, 0x12, 0x28, 0xfa, 0xff],
    [⟨0, ⟨0x77⟩, .signed 0⟩, ⟨2, ⟨0x31⟩, .none⟩, ⟨3, .minus, .none⟩, ⟨4, .dup, .none⟩,
      ⟨5, .bra, .signed (-6)⟩], {}⟩

/-- From three on it takes thirteen operations and two values, and more of them are of no use. -/
theorem countdown_bounded :
    decode countdown.bytes countdown.encoding = .ok countdown ∧
      ∀ budget stackLimit, 13 ≤ budget → 2 ≤ stackLimit →
        (countdown.evaluate { budget, stackLimit }).run
            (some ⟨fun _ => .ok 3, fun _ _ => .ok []⟩) =
          (.ok (.whole (.address 0)), #[.register 7]) := by
  let target : Target := ⟨fun _ => .ok 3, fun _ _ => .ok []⟩
  refine ⟨by decide +kernel, fun budget stackLimit affordable larger => ?_⟩
  obtain ⟨observed, _, _, monotone⟩ :=
    evaluate_bounded_and_monotone countdown { budget := 13, stackLimit := 2 } (some target)
  have finished : (countdown.evaluate { budget := 13, stackLimit := 2 }).run (some target) =
      (.ok (.whole (.address 0)), #[.register 7]) := by
    decide +kernel
  rw [← finished, observed]
  refine monotone budget stackLimit affordable larger fun error failed => ?_
  rw [finished] at observed
  rw [← (Prod.mk.inj observed).1] at failed
  cases failed

end LocationExpression

end Dwarf
