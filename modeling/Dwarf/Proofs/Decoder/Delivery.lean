import Dwarf.Decoder.Primitive
import Dwarf.Proofs.Decoder.Passes

/-!
# What decoders deliver

A decoder that is put together from others delivers what its last part makes of what the parts
before it have delivered.  A loop delivers what its passes deliver, if each of them keeps what is
known of the state.
-/

namespace Dwarf.Decoder

variable {α β σ : Type}

/-- Whatever the decoder delivers has a property. -/
def Delivers (property : α → Prop) (decoder : Decoder α) : Prop :=
  ∀ ⦃cursor : Cursor⦄ ⦃value : α⦄, (decoder cursor).result = .ok value → property value

theorem delivers_pure {property : α → Prop} {value : α} (holds : property value) :
    Delivers property (Decoder.pure value) :=
  fun _ _ read => Except.ok.inj read ▸ holds

theorem delivers_fail {property : α → Prop} {error : Error} :
    Delivers property (Decoder.fail error) :=
  fun _ _ read => nomatch read

theorem Delivers.bind {property : β → Prop} {earlier : α → Prop} {first : Decoder α}
    {second : α → Decoder β} (left : Delivers earlier first)
    (right : ∀ inner, earlier inner → Delivers property (second inner)) :
    Delivers property (Decoder.bind first second) := by
  intro cursor value read
  obtain ⟨inner, inner_read, later⟩ := bind_result_eq_ok.mp read
  exact right inner (left inner_read) later

theorem delivers_bind {property : β → Prop} {first : Decoder α} {second : α → Decoder β}
    (right : ∀ inner, Delivers property (second inner)) :
    Delivers property (Decoder.bind first second) := by
  have left : Delivers (fun _ => True) first := fun _ _ _ => trivial
  exact left.bind fun inner _ => right inner

theorem Delivers.map {property : β → Prop} {earlier : α → Prop} {decoder : Consuming α}
    (delivers : Delivers earlier decoder.read) {f : α → β}
    (kept : ∀ value, earlier value → property (f value)) :
    Delivers property (decoder.map f).read :=
  delivers.bind fun value holds => delivers_pure (kept value holds)

theorem Delivers.mapError {property : α → Prop} {decoder : Decoder α}
    (delivers : Delivers property decoder) (restate : Error → Error) :
    Delivers property (decoder.mapError restate) :=
  fun _ _ read => delivers (mapError_result_eq_ok.mp read)

theorem delivers_ofExcept {property : α → Prop} {result : Except Error α}
    (holds : ∀ value, result = .ok value → property value) :
    Delivers property (Decoder.ofExcept result) :=
  fun _ value read => holds value read

theorem delivers_located {property : α → Prop} {decoder : Nat → Consuming α}
    (delivers : ∀ offset, Delivers property (decoder offset).read) :
    Delivers property (Consuming.located decoder).read :=
  fun cursor _ read => delivers cursor.offset read

theorem delivers_bytes (count : Nat) :
    Delivers (fun bytes => bytes.length = count) (Decoder.bytes count) := by
  intro cursor bytes read
  unfold Decoder.bytes at read
  split at read
  next fits =>
    cases read
    exact List.length_take_of_le (cursor.rest_length ▸ fits)
  next => cases read

/-! ## Loops -/

/-- The next state of a loop is as its invariant says, or its value has a property. -/
def Meets (invariant : σ → Prop) (property : β → Prop) : Pass σ β → Prop
  | .again state => invariant state
  | .done value => property value

theorem delivers_iterate {invariant : σ → Prop} {property : β → Prop}
    {pass : σ → Consuming (Pass σ β)}
    (kept : ∀ state, invariant state → Delivers (Meets invariant property) (pass state).read)
    {state : σ} (holds : invariant state) : Delivers property (iterate pass state) := by
  intro cursor value read
  fun_induction iterate pass state cursor with
  | case1 state cursor error next reached found => cases read
  | case2 state cursor last next reached found =>
      cases read
      have passed : ((pass state).read cursor).result = .ok (.done value) := by rw [found]
      exact kept state holds passed
  | case3 state cursor following next reached found ih =>
      have passed : ((pass state).read cursor).result = .ok (.again following) := by rw [found]
      exact ih (kept state holds passed) read

theorem delivers_untilEnd {invariant : σ → Prop} {pass : σ → Consuming σ}
    (kept : ∀ state, invariant state → Delivers invariant (pass state).read) {state : σ}
    (holds : invariant state) : Delivers invariant (untilEnd pass state) := by
  intro cursor value read
  fun_induction untilEnd pass state cursor with
  | case1 state cursor finished =>
      cases read
      exact holds
  | case2 state cursor unfinished error next reached found => cases read
  | case3 state cursor unfinished following next reached found ih =>
      have passed : ((pass state).read cursor).result = .ok following := by rw [found]
      exact ih (kept state holds passed) read

section

variable {property : α → Prop}

theorem delivers_untilNone {item : Consuming (Option α)}
    (delivers : Delivers (fun found => ∀ value ∈ found, property value) item.read) :
    Delivers (fun values => ∀ value ∈ values, property value) (untilNone item) := by
  refine @delivers_iterate _ _ (fun found => ∀ value ∈ found, property value) _ _
    (fun found known => delivers.map fun next holds => ?_) [] nofun
  cases next with
  | none => exact fun value member => known value (List.mem_reverse.mp member)
  | some value => exact List.forall_mem_cons.mpr ⟨holds value rfl, known⟩

theorem delivers_many {item : Consuming α} (delivers : Delivers property item.read) :
    Delivers (fun values => ∀ value ∈ values, property value) (many item) := by
  have all := @delivers_untilEnd _ (fun found => ∀ value ∈ found, property value)
    (fun found => item.map (· :: found))
    (fun found known => delivers.map fun value holds => List.forall_mem_cons.mpr ⟨holds, known⟩)
    [] nofun
  exact all.bind fun found known =>
    delivers_pure fun value member => known value (List.mem_reverse.mp member)

end

end Dwarf.Decoder
