import Dwarf.Frame.Unwind
import Dwarf.Proofs.Expression.Effect
import Dwarf.Proofs.Expression.Observation

/-!
# Reads that came before

An evaluation asks its target and never looks at what has been asked before: its result does not
depend on earlier reads, and its own reads are added behind them.
-/

namespace Dwarf

namespace Access

variable {α β : Type}

/-- Earlier reads do not change the result, and later ones are added behind them. -/
def Appends (access : Access α) : Prop :=
  ∀ target reads, access.resume target reads =
    ((access.run target).1, reads ++ (access.run target).2)

theorem appends_pure (value : α) : (pure value : Access α).Appends := by
  intro target reads
  rw [run_eq_resume, resume_pure, resume_pure, Array.append_empty]

theorem appends_throw (error : Error) : (throw error : Access α).Appends := by
  intro target reads
  rw [run_eq_resume, resume_throw, resume_throw, Array.append_empty]

theorem appends_ofExcept (result : Except Error α) : (ofExcept result).Appends := by
  intro target reads
  rw [run_eq_resume, resume_ofExcept, resume_ofExcept, Array.append_empty]

theorem Appends.bind {first : Access α} {second : α → Access β} (left : first.Appends)
    (right : ∀ value, (second value).Appends) : (first >>= second).Appends := by
  intro target reads
  rw [run_eq_resume, resume_bind, resume_bind, left target reads, ← run_eq_resume]
  cases started : first.run target with
  | mk outcome middle =>
      cases outcome with
      | error error => rfl
      | ok value => 
          dsimp only
          rw [right value target (reads ++ middle), right value target middle, Array.append_assoc]

theorem appends_register (number : Nat) : (register number).Appends := by
  intro target reads
  cases target with
  | none => exact appends_throw _ none reads
  | some target => rfl

theorem appends_memory (address : UInt64) (length : Nat) : (memory address length).Appends := by
  intro target reads
  cases target with
  | none => exact appends_throw _ none reads
  | some target => rfl

end Access

open Access

namespace Machine

variable {evaluation : Evaluation} {encoding : Encoding} {operation : Operation}
  {machine : Machine}

theorem appends_push (value : UInt64) : (machine.push evaluation operation value).Appends := by
  unfold push
  split
  next => exact appends_pure _
  next => exact appends_throw _

theorem appends_readMemory (address : UInt64) (size : Nat) :
    (readMemory encoding address size).Appends := by
  refine (appends_memory address size).bind fun bytes => ?_
  split
  next => exact appends_throw _
  next => exact appends_pure _

theorem Effect.appends (effect : Effect) :
    (effect.perform evaluation encoding operation).Appends := by
  have pushed (kept : Machine) (value : UInt64) :
      (kept.pushOn evaluation operation value).Appends :=
    (appends_push value).bind fun _ => appends_pure _
  cases effect with
  | fail error => exact appends_throw error
  | goOn next jump => exact appends_pure _
  | push kept value => exact pushed kept value
  | register kept number value => exact (appends_register number).bind fun _ => pushed kept _
  | memory kept address size => exact (appends_readMemory address size).bind fun _ => pushed kept _

theorem appends_step : (machine.step evaluation encoding operation).Appends := by
  obtain ⟨effect, performed⟩ := exists_effect machine evaluation encoding operation
  rw [performed]
  exact effect.appends

end Machine

namespace LocationExpression

variable {expression : LocationExpression} {evaluation : Evaluation}

theorem appends_run (budget : Nat) (operations : List Operation) (machine : Machine) :
    (expression.run evaluation budget operations machine).Appends := by
  induction budget generalizing operations machine with
  | zero =>
      cases operations with
      | nil => exact appends_ofExcept _
      | cons => exact appends_throw _
  | succ budget ih =>
      cases operations with
      | nil => exact appends_ofExcept _
      | cons operation rest =>
          refine Machine.appends_step.bind fun (next, jump) => ?_
          cases jump with
          | none => exact ih rest next
          | some displacement =>
              exact (appends_ofExcept _).bind fun following => ih following next

theorem appends_evaluate : (expression.evaluate evaluation).Appends :=
  appends_run _ _ _

end LocationExpression

theorem UnwindRow.appends_cfaValue (row : UnwindRow) : row.cfaValue.Appends := by
  unfold cfaValue
  split
  next => exact (appends_register _).bind fun _ => appends_pure _
  next =>
    refine LocationExpression.appends_evaluate.bind fun location => ?_
    split
    next => exact appends_pure _
    next => exact appends_throw _

end Dwarf
