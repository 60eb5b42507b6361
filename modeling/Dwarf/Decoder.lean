import Dwarf.Cursor

/-! # Decoders

A decoder reads a value at a cursor. It answers with the value or an error and with the cursor it
stopped at, which its type guarantees to lie no earlier in the same window. A `Consuming` decoder
passes at least one byte when it succeeds; loops repeat such decoders and so come to an end. -/

namespace Dwarf

variable {α β σ : Type}

/-- The answer of a decoder that was started at a cursor. -/
structure Reading (start : Cursor) (α : Type) where
  result : Except Error α
  next : Cursor
  reached : start.Reaches next

namespace Reading

/-- The answer of a later decoder, seen from an earlier cursor. -/
def since {start middle : Cursor} (reached : start.Reaches middle) (reading : Reading middle α) :
    Reading start α :=
  ⟨reading.result, reading.next, reached.trans reading.reached⟩

/-- Go on at the cursor where a decoder stopped, if it succeeded. -/
def andThen {start : Cursor} (reading : Reading start α)
    (second : α → (cursor : Cursor) → Reading cursor β) : Reading start β :=
  match reading with
  | ⟨.ok value, next, reached⟩ => since reached (second value next)
  | ⟨.error error, next, reached⟩ => ⟨.error error, next, reached⟩

theorem since_andThen {start middle : Cursor} (reached : start.Reaches middle)
    (reading : Reading middle α) (second : α → (cursor : Cursor) → Reading cursor β) :
    (since reached reading).andThen second = since reached (reading.andThen second) := by
  rcases reading with ⟨result, next, later⟩
  cases result <;> rfl

end Reading

/-- A function that reads a value at a cursor. -/
def Decoder (α : Type) : Type :=
  (start : Cursor) → Reading start α

namespace Decoder

/-- The value or error of a decoder at a cursor. -/
def run (decoder : Decoder α) (cursor : Cursor) : Except Error α :=
  (decoder cursor).result

/-- Deliver a value without reading. -/
def pure (value : α) : Decoder α :=
  fun cursor => ⟨.ok value, cursor, .refl cursor⟩

/-- Fail without reading. -/
def fail (error : Error) : Decoder α :=
  fun cursor => ⟨.error error, cursor, .refl cursor⟩

/-- Run a decoder, then the one that its value selects. -/
def bind (first : Decoder α) (second : α → Decoder β) : Decoder β :=
  fun cursor => (first cursor).andThen second

instance : Monad Decoder where
  pure := Decoder.pure
  bind := Decoder.bind

theorem bind_pure_id (decoder : Decoder α) : bind decoder Decoder.pure = decoder := by
  funext cursor
  unfold bind
  rcases decoder cursor with ⟨result, next, reached⟩
  cases result <;> rfl

theorem bind_bind {γ : Type} (first : Decoder α) (second : α → Decoder β) (third : β → Decoder γ) :
    bind (bind first second) third = bind first fun value => bind (second value) third := by
  funext cursor
  unfold bind
  rcases first cursor with ⟨result, next, reached⟩
  cases result with
  | error error => rfl
  | ok value => exact Reading.since_andThen reached (second value next) third

instance : LawfulMonad Decoder :=
  LawfulMonad.mk' Decoder (fun decoder => bind_pure_id decoder) (fun _ _ => rfl)
    (fun first second third => bind_bind first second third)

instance : MonadExceptOf Error Decoder where
  throw := Decoder.fail
  tryCatch decoder handler := fun cursor =>
    match decoder cursor with
    | ⟨.ok value, next, reached⟩ => ⟨.ok value, next, reached⟩
    | ⟨.error error, next, reached⟩ => .since reached (handler error next)

/-- Restate the errors of a decoder. -/
def mapError (restate : Error → Error) (decoder : Decoder α) : Decoder α := fun cursor =>
  match decoder cursor with
  | ⟨.ok value, next, reached⟩ => ⟨.ok value, next, reached⟩
  | ⟨.error error, next, reached⟩ => ⟨.error (restate error), next, reached⟩

/-- The cursor itself. -/
def cursor : Decoder Cursor :=
  fun cursor => ⟨.ok cursor, cursor, .refl cursor⟩

/-- The section offset of the next byte. -/
def offset : Decoder Nat :=
  fun cursor => ⟨.ok cursor.offset, cursor, .refl cursor⟩

/-- A result that does not depend on the bytes. -/
def ofExcept (result : Except Error α) : Decoder α :=
  fun cursor => ⟨result, cursor, .refl cursor⟩

end Decoder

/-- A decoder that passes at least one byte whenever it succeeds. -/
structure Consuming (α : Type) where
  read : Decoder α
  advances : ∀ (cursor : Cursor) (value : α), (read cursor).result = .ok value →
    cursor.position < (read cursor).next.position

instance : MonadLift Consuming Decoder where
  monadLift := Consuming.read

namespace Consuming

/-- The value or error of a decoder at a cursor. -/
def run (decoder : Consuming α) (cursor : Cursor) : Except Error α :=
  (decoder.read cursor).result

/-- Run a consuming decoder, then the one that its value selects. -/
def bind (first : Consuming α) (second : α → Decoder β) : Consuming β where
  read := Decoder.bind first.read second
  advances cursor value read := by
    have advanced := first.advances cursor
    unfold Decoder.bind at read ⊢
    rcases found : first.read cursor with ⟨result, next, reached⟩
    rw [found] at advanced read
    cases result with
    | error error => simp [Reading.andThen] at read
    | ok inner =>
      exact Nat.lt_of_lt_of_le (advanced inner rfl) (second inner next).reached.position_le

/-- Apply a function to the value of a consuming decoder. -/
def map (f : α → β) (decoder : Consuming α) : Consuming β :=
  decoder.bind fun value => Decoder.pure (f value)

/-- Restate the errors of a consuming decoder. -/
def mapError (restate : Error → Error) (decoder : Consuming α) : Consuming α where
  read := decoder.read.mapError restate
  advances cursor value read := by
    have advanced := decoder.advances cursor
    unfold Decoder.mapError at read ⊢
    split
    next inner next reached found =>
      rw [found] at advanced
      exact advanced inner rfl
    next error next reached found =>
      simp [found] at read

/-- A decoder that depends on the section offset it is started at. -/
def located (decoder : Nat → Consuming α) : Consuming α where
  read cursor := (decoder cursor.offset).read cursor
  advances cursor := (decoder cursor.offset).advances cursor

/-- A decoder that always fails. -/
def fail (error : Error) : Consuming α where
  read := Decoder.fail error
  advances cursor value read := by simp [Decoder.fail] at read

end Consuming

/-- What one pass of a loop decides. -/
inductive Pass (σ β : Type) where
  | again (state : σ)
  | done (value : β)

namespace Decoder

/-- Repeat a consuming decoder, each pass with the state left by the one before, until a pass is
done. -/
def iterate (pass : σ → Consuming (Pass σ β)) (state : σ) (cursor : Cursor) :
    Reading cursor β :=
  match _found : (pass state).read cursor with
  | ⟨.error error, next, reached⟩ => ⟨.error error, next, reached⟩
  | ⟨.ok (.done value), next, reached⟩ => ⟨.ok value, next, reached⟩
  | ⟨.ok (.again following), next, reached⟩ =>
    .since reached (iterate pass following next)
termination_by cursor.remaining
decreasing_by
  have advanced := (pass state).advances cursor
  rw [_found] at advanced
  exact reached.remaining_lt (advanced _ rfl)

/-- Repeat a consuming decoder, each pass with the state left by the one before, until the window
has been read. -/
def untilEnd (pass : σ → Consuming σ) (state : σ) (cursor : Cursor) : Reading cursor σ :=
  if cursor.atEnd then ⟨.ok state, cursor, .refl cursor⟩
  else
    match _found : (pass state).read cursor with
    | ⟨.error error, next, reached⟩ => ⟨.error error, next, reached⟩
    | ⟨.ok following, next, reached⟩ =>
      .since reached (untilEnd pass following next)
termination_by cursor.remaining
decreasing_by
  have advanced := (pass state).advances cursor
  rw [_found] at advanced
  exact reached.remaining_lt (advanced _ rfl)

/-- Read items until one is absent. -/
def untilNone (item : Consuming (Option α)) : Decoder (List α) :=
  iterate (fun found => item.map fun
    | none => .done found.reverse
    | some value => .again (value :: found)) []

/-- Read items until the window has been read. -/
def many (item : Consuming α) : Decoder (List α) :=
  bind (untilEnd (fun found => item.map (· :: found)) []) fun found => pure found.reverse

end Decoder

end Dwarf
