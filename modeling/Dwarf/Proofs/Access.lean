import Dwarf.Target

/-!
# Runs of computations that read a target

A computation is resumed after some reads: it may make more of them, and it ends with a result.
A computation in two parts is run by resuming the second part where the first one ended.
-/

namespace Dwarf

namespace Access

variable {α β : Type} {target : Option Target} {reads : Array TargetRead}

/-- The result of a computation that is resumed after some reads, and all reads in the end. -/
def resume (access : Access α) (target : Option Target) (reads : Array TargetRead) :
    Except Error α × Array TargetRead :=
  (ReaderT.run access target).run.run reads

theorem run_eq_resume (access : Access α) : access.run target = access.resume target #[] :=
  rfl

@[simp]
theorem resume_pure (value : α) :
    (pure value : Access α).resume target reads = (.ok value, reads) :=
  rfl

@[simp]
theorem resume_throw (error : Error) :
    (throw error : Access α).resume target reads = (.error error, reads) :=
  rfl

@[simp]
theorem resume_ofExcept (result : Except Error α) :
    (ofExcept result).resume target reads = (result, reads) :=
  rfl

theorem ofExcept_ok (value : α) : (ofExcept (.ok value) : Access α) = pure value :=
  rfl

theorem ofExcept_error_bind (error : Error) (second : α → Access β) :
    ofExcept (.error error) >>= second = throw error :=
  rfl

theorem resume_bind (first : Access α) (second : α → Access β) :
    (first >>= second).resume target reads =
      match first.resume target reads with
      | (.ok value, later) => (second value).resume target later
      | (.error error, later) => (.error error, later) := by
  unfold resume
  rw [ReaderT.run_bind, ExceptT.run_bind, StateT.run_bind]
  generalize (ReaderT.run first target).run.run reads = result
  cases result with
  | mk outcome later => cases outcome <;> rfl

/-- Whatever value a computation ends with has a property. -/
def Ensures (access : Access α) (post : α → Prop) : Prop :=
  ∀ target reads value later, access.resume target reads = (.ok value, later) → post value

theorem ensures_pure {value : α} {post : α → Prop} (holds : post value) :
    (pure value : Access α).Ensures post := by
  intro _ _ _ _ computed
  rw [resume_pure] at computed
  cases computed
  exact holds

theorem ensures_throw {error : Error} {post : α → Prop} :
    (throw error : Access α).Ensures post := by
  intro _ _ _ _ computed
  rw [resume_throw] at computed
  cases computed

theorem Ensures.bind {first : Access α} {second : α → Access β} {middle : α → Prop}
    {post : β → Prop} (ensured : first.Ensures middle)
    (next : ∀ value, middle value → (second value).Ensures post) :
    (first >>= second).Ensures post := by
  intro target reads value later computed
  rw [resume_bind] at computed
  cases started : first.resume target reads with
  | mk outcome between =>
      rw [started] at computed
      cases outcome with
      | error => cases computed
      | ok result => exact next result (ensured _ _ _ _ started) _ _ _ _ computed

theorem ensures_of_forall {access : Access α} {post : α → Prop} (holds : ∀ value, post value) :
    access.Ensures post :=
  fun _ _ value _ _ => holds value

theorem ensures_true {access : Access α} : access.Ensures fun _ => True :=
  ensures_of_forall fun _ => trivial

end Access

end Dwarf
