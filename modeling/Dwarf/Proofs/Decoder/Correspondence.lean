import Dwarf.Decoder.Primitive
import Dwarf.Proofs.Decoder.Passes

/-!
# Decoders that correspond

Two decoders correspond if they read the same bytes, one delivering what becomes of what the other
delivers, and fail alike.  Decoders correspond if their parts do.
-/

namespace Dwarf.Decoder

variable {α β γ δ : Type}

/-- Where addresses have the given size, the other decoder delivers what becomes of what this one
delivers, fails as this one fails, and stops in the same place. -/
def Becomes (decoder : Decoder α) (addressSize : Nat) (f : α → β) (other : Decoder β) : Prop :=
  ∀ ⦃cursor : Cursor⦄, cursor.addressSize = addressSize →
    (other cursor).result = (decoder cursor).result.map f ∧
      (other cursor).next = (decoder cursor).next

variable {addressSize : Nat} {f : α → β} {g : γ → δ}

theorem becomes_refl (decoder : Decoder α) : decoder.Becomes addressSize id decoder :=
  fun cursor _ => ⟨by cases (decoder cursor).result <;> rfl, rfl⟩

theorem becomes_pure {value : α} {other : β} (same : f value = other) :
    (Decoder.pure value).Becomes addressSize f (Decoder.pure other) :=
  fun _ _ => ⟨congrArg Except.ok same.symm, rfl⟩

theorem becomes_fail (error : Error) :
    (Decoder.fail error).Becomes addressSize f (Decoder.fail error) :=
  fun _ _ => ⟨rfl, rfl⟩

theorem becomes_ofExcept {result : Except Error α} {other : Except Error β}
    (same : other = result.map f) :
    (Decoder.ofExcept result).Becomes addressSize f (Decoder.ofExcept other) :=
  fun _ _ => ⟨same, rfl⟩

/-- Decoders correspond if their parts do, the later ones for what the first ones can deliver. -/
theorem Becomes.bind_of {first : Decoder α} {other : Decoder β} {second : α → Decoder γ}
    {later : β → Decoder δ} (becomes : first.Becomes addressSize f other)
    (onward : ∀ {cursor value}, cursor.addressSize = addressSize →
      (first cursor).result = .ok value →
        (second value).Becomes addressSize g (later (f value))) :
    (Decoder.bind first second).Becomes addressSize g (Decoder.bind other later) := by
  intro cursor size
  obtain ⟨result, next⟩ := becomes size
  cases read : (first cursor).result with
  | error error =>
      rw [read] at result
      obtain ⟨failed, stop⟩ := @bind_of_error _ _ _ second _ _ read
      obtain ⟨other_failed, other_stop⟩ := @bind_of_error _ _ _ later _ _ result
      exact ⟨by rw [failed, other_failed]; rfl, by rw [stop, other_stop, next]⟩
  | ok value =>
      rw [read] at result
      have same_size : (first cursor).next.addressSize = addressSize :=
        (first cursor).reached.addressSize_eq.trans size
      rw [bind_result read, bind_next read, bind_result result, bind_next result, next]
      exact onward size read same_size

theorem Becomes.bind {first : Decoder α} {other : Decoder β} {second : α → Decoder γ}
    {later : β → Decoder δ} (becomes : first.Becomes addressSize f other)
    (onward : ∀ value, (second value).Becomes addressSize g (later (f value))) :
    (Decoder.bind first second).Becomes addressSize g (Decoder.bind other later) :=
  becomes.bind_of fun _ _ => onward _

theorem becomes_bind {first : Decoder α} {second : α → Decoder γ} {later : α → Decoder δ}
    (onward : ∀ value, (second value).Becomes addressSize g (later value)) :
    (Decoder.bind first second).Becomes addressSize g (Decoder.bind first later) :=
  (becomes_refl first).bind onward

theorem Becomes.mapError {decoder : Decoder α} {other : Decoder β}
    (becomes : decoder.Becomes addressSize f other) (restate : Error → Error) :
    (decoder.mapError restate).Becomes addressSize f (other.mapError restate) := by
  intro cursor size
  obtain ⟨result, next⟩ := becomes size
  rw [(mapError_eq ..).1, (mapError_eq ..).2, (mapError_eq ..).1, (mapError_eq ..).2, result, next]
  exact ⟨by cases (decoder cursor).result <;> rfl, rfl⟩

theorem split_addressSize {cursor data : Cursor} {count : Nat}
    (read : (split count cursor).result = .ok data) : data.addressSize = cursor.addressSize := by
  unfold split at read
  split at read
  · cases read
    rfl
  · cases read

end Dwarf.Decoder
