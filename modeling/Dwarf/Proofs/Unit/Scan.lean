import Dwarf.Proofs.Unit.Header

/-!
# The walk over unit headers

The walk visits the units of a section in increasing order and goes on exactly where a unit ends.
Where every header can be decoded, the units tile the section.  What stands between the header and
the end of a unit has no influence on the walk.
-/

namespace Dwarf

/-- Two sections of the same size that differ at most from one offset to another. -/
structure AgreeOutside (first last : Nat) (info other : List UInt8) : Prop where
  length_eq : other.length = info.length
  take_eq : other.take first = info.take first
  drop_eq : other.drop last = info.drop last

namespace AgreeOutside

variable {first last : Nat} {info other : List UInt8}

theorem drop_of_le (agree : AgreeOutside first last info other) {offset : Nat}
    (behind : last ≤ offset) : other.drop offset = info.drop offset := by
  have split (bytes : List UInt8) : bytes.drop offset = (bytes.drop last).drop (offset - last) := by
    rw [List.drop_drop, Nat.add_sub_cancel' behind]
  rw [split other, split info, agree.drop_eq]

theorem take_drop (agree : AgreeOutside first last info other) {offset count : Nat}
    (before : offset + count ≤ first) :
    (other.drop offset).take count = (info.drop offset).take count := by
  have split (bytes : List UInt8) :
      (bytes.drop offset).take count = ((bytes.take first).drop offset).take count := by
    rw [List.drop_take, List.take_take, Nat.min_eq_left (by omega)]
  rw [split other, split info, agree.take_eq]

end AgreeOutside

namespace UnitHeader

variable {info other : List UInt8} {order : ByteOrder}

/-- An offset and what the walk finds there. -/
abbrev Visit : Type :=
  Nat × Except Error UnitHeader

/-- The walk from an offset and what it finds: it comes to the end of the section, or it stops at a
header that does not say where to go on, or it goes on further behind. -/
inductive Walk (info : List UInt8) (order : ByteOrder) : Nat → List Visit → Prop where
  | done {offset : Nat} (past : info.length ≤ offset) : Walk info order offset []
  | stuck {offset : Nat} (inside : offset < info.length)
      (lost : ∀ next, following? info order offset (decode info order offset) = some next →
        ¬(offset < next ∧ next ≤ info.length)) :
      Walk info order offset [(offset, decode info order offset)]
  | onward {offset next : Nat} {found : List Visit} (inside : offset < info.length)
      (follows : following? info order offset (decode info order offset) = some next)
      (later : offset < next) (within : next ≤ info.length) (walk : Walk info order next found) :
      Walk info order offset ((offset, decode info order offset) :: found)

theorem walk_scanFrom (info : List UInt8) (order : ByteOrder) (offset : Nat) :
    Walk info order offset (scanFrom info order offset) := by
  induction offset using scanFrom.induct info order with
  | case1 offset inside ih =>
      unfold scanFrom
      rw [if_pos inside]
      dsimp only
      split
      next next follows =>
        split
        next ahead => exact .onward inside follows ahead.1 ahead.2 (ih next ahead)
        next lost =>
          refine .stuck inside fun later other => ?_
          cases follows.symm.trans other
          exact lost
      next ends =>
        refine .stuck inside fun later other => ?_
        cases ends.symm.trans other
  | case2 offset past =>
      unfold scanFrom
      rw [if_neg past]
      exact .done (Nat.le_of_not_lt past)

/-- From an offset there is one walk only. -/
theorem Walk.eq_scanFrom {offset : Nat} {found : List Visit} (walk : Walk info order offset found) :
    found = scanFrom info order offset := by
  induction walk with
  | done past =>
      unfold scanFrom
      rw [if_neg (Nat.not_lt.mpr past)]
  | @stuck offset inside lost =>
      unfold scanFrom
      rw [if_pos inside]
      dsimp only
      split
      next next follows => rw [if_neg (lost next follows)]
      next => rfl
  | onward inside follows later within walk ih =>
      unfold scanFrom
      rw [if_pos inside]
      simp only [follows]
      rw [if_pos ⟨later, within⟩, ih]

namespace Walk

variable {offset : Nat} {found : List Visit}

theorem mem (walk : Walk info order offset found) {visit : Visit} (visited : visit ∈ found) :
    offset ≤ visit.1 ∧ visit.1 < info.length ∧ visit.2 = decode info order visit.1 := by
  induction walk with
  | done past => cases visited
  | stuck inside lost =>
      cases List.mem_singleton.mp visited
      exact ⟨Nat.le_refl _, inside, rfl⟩
  | onward inside follows later within walk ih =>
      rcases List.mem_cons.mp visited with rfl | further
      · exact ⟨Nat.le_refl _, inside, rfl⟩
      · obtain ⟨behind, rest⟩ := ih further
        exact ⟨Nat.le_trans (Nat.le_of_lt later) behind, rest⟩

theorem sound (walk : Walk info order offset found) {start : Nat} {header : UnitHeader}
    (visited : (start, .ok header) ∈ found) : Sound info order start header :=
  have ⟨_, inside, decoded⟩ := walk.mem visited
  sound_of_decode (Nat.le_of_lt inside) decoded.symm

end Walk

theorem Sound.lt_stop {offset : Nat} {header : UnitHeader} (sound : Sound info order offset header) :
    offset < header.stop := by
  have := sound.offset_eq
  have := sound.offset_lt
  have := sound.entriesOffset_le
  omega

theorem following?_of_ok {offset : Nat} {header : UnitHeader} (inside : offset < info.length)
    (decoded : decode info order offset = .ok header) :
    following? info order offset (decode info order offset) = some header.stop ∧
      (offset < header.stop ∧ header.stop ≤ info.length) := by
  have sound := sound_of_decode (Nat.le_of_lt inside) decoded
  rw [decoded]
  exact ⟨rfl, sound.lt_stop, sound.stop_le⟩

namespace Walk

variable {offset : Nat} {visit : Visit} {found before later : List Visit} {header : UnitHeader}

theorem head (walk : Walk info order offset (visit :: found)) :
    offset < info.length ∧ visit = (offset, decode info order offset) := by
  cases walk with
  | stuck inside lost => exact ⟨inside, rfl⟩
  | onward inside follows later within walk => exact ⟨inside, rfl⟩

theorem tail (walk : Walk info order offset (visit :: found)) (decoded : visit.2 = .ok header) :
    Walk info order header.stop found := by
  cases walk with
  | stuck inside lost =>
      obtain ⟨follows, bounds⟩ := following?_of_ok inside decoded
      exact absurd bounds (lost _ follows)
  | onward inside follows later within walk =>
      cases follows.symm.trans (following?_of_ok inside decoded).1
      exact walk

theorem after {start : Nat}
    (walk : Walk info order offset (before ++ (start, .ok header) :: later)) :
    Walk info order header.stop later := by
  induction before generalizing offset with
  | nil => exact walk.tail rfl
  | cons visit before ih =>
      rw [List.cons_append] at walk
      generalize split : before ++ (start, .ok header) :: later = rest at walk
      cases walk with
      | stuck inside lost => cases List.append_eq_nil_iff.mp split |>.2
      | onward inside follows further within walk => exact ih (split ▸ walk)

/-- A unit that is visited earlier ends before the later visit. -/
def Precedes (visit later : Visit) : Prop :=
  visit.1 < later.1 ∧ ∀ header, visit.2 = .ok header → header.stop ≤ later.1

theorem pairwise (walk : Walk info order offset found) : found.Pairwise Precedes := by
  induction walk with
  | done past => exact .nil
  | stuck inside lost => exact List.pairwise_singleton _ _
  | onward inside follows later within walk ih =>
      refine .cons (fun visit visited => ?_) ih
      have behind := (walk.mem visited).1
      constructor
      · exact Nat.lt_of_lt_of_le later behind
      · intro header decoded
        cases follows.symm.trans (following?_of_ok inside decoded).1
        exact behind

end Walk

/-- Units that fill a part of the section, each starting where the one before ends. -/
inductive Tiles : Nat → List UnitHeader → Nat → Prop where
  | nil {offset : Nat} : Tiles offset [] offset
  | cons {header : UnitHeader} {headers : List UnitHeader} {limit : Nat}
      (nonempty : header.offset < header.stop) (rest : Tiles header.stop headers limit) :
      Tiles header.offset (header :: headers) limit

/-- A walk that finds nothing but units fills the section. -/
theorem Walk.tiles {offset : Nat} {headers : List UnitHeader} (inside : offset ≤ info.length)
    (walk : Walk info order offset (headers.map fun header => (header.offset, .ok header))) :
    Tiles offset headers info.length := by
  induction headers generalizing offset with
  | nil =>
      cases walk with
      | done past =>
          cases Nat.le_antisymm inside past
          exact .nil
  | cons header headers ih =>
      rw [List.map_cons] at walk
      have start : header.offset = offset := congrArg Prod.fst walk.head.2
      have sound := walk.sound (List.mem_cons_self ..)
      rw [← start]
      exact .cons sound.lt_stop (ih sound.stop_le (walk.tail rfl))

/-! ## Two sections that differ inside a unit -/

section Agreement

variable {first last : Nat} (agree : AgreeOutside first last info other)
include agree

theorem startAt_agree {offset : Nat} :
    (startAt info order offset).AgreeBelow (first - offset) (startAt other order offset) where
  size_eq := by
    change (other.drop offset).length = (info.drop offset).length
    rw [List.length_drop, List.length_drop, agree.length_eq]
  position_eq := rfl
  base_eq := rfl
  order_eq := rfl
  addressSize_eq := rfl
  offsetSize_eq := rfl
  window_eq := by
    change (other.drop offset).take _ = (info.drop offset).take _
    by_cases before : offset ≤ first
    · exact agree.take_drop (by omega)
    · rw [Nat.sub_eq_zero_of_le (Nat.le_of_not_le before), List.take_zero, List.take_zero]

/-- What stops in front of the difference does not see it. -/
theorem stops_alike {α : Type} {decoder : Decoder α} (confined : decoder.Confined) {offset : Nat}
    (stops : (decoder (startAt info order offset)).next.offset ≤ first) :
    (decoder (startAt other order offset)).result =
        (decoder (startAt info order offset)).result ∧
      (decoder (startAt other order offset)).next.offset =
        (decoder (startAt info order offset)).next.offset := by
  have base : (decoder (startAt info order offset)).next.base = offset :=
    (decoder (startAt info order offset)).reached.base_eq
  have below : (decoder (startAt info order offset)).next.position ≤ first - offset := by
    rw [Cursor.offset, base] at stops
    omega
  obtain ⟨same, agreed⟩ := confined (startAt_agree agree) below
  exact ⟨same, agreed.offset_eq⟩

theorem decode_of_stops {offset : Nat} (inside : offset ≤ info.length)
    (stops : (fields (startAt info order offset)).next.offset ≤ first) :
    decode other order offset = decode info order offset := by
  rw [decode_eq inside, decode_eq (agree.length_eq ▸ inside), agree.length_eq,
    (stops_alike agree confined_fields stops).1]

theorem declaredStop?_of_stops {offset next : Nat} (before : next ≤ first)
    (follows : declaredStop? info order offset = some next) :
    declaredStop? other order offset = some next := by
  obtain ⟨length, read, ends⟩ := declaredStop?_eq_some_iff.mp follows
  obtain ⟨same, stopped⟩ := stops_alike agree Decoder.confined_initialLength
    (Nat.le_trans (ends ▸ Nat.le_add_right _ _) before)
  exact declaredStop?_eq_some_iff.mpr ⟨length, same.trans read, stopped ▸ ends⟩

theorem decode_of_behind {offset : Nat} (behind : last ≤ offset) :
    decode other order offset = decode info order offset := by
  unfold decode
  rw [agree.drop_of_le behind, agree.length_eq]

theorem following?_of_behind {offset : Nat} (behind : last ≤ offset) :
    following? other order offset (decode other order offset) =
      following? info order offset (decode info order offset) := by
  rw [decode_of_behind agree behind]
  unfold following? declaredStop?
  rw [agree.drop_of_le behind]

/-- A unit in front of the difference.  Where its version cannot be decoded, the version may stand
behind its end. -/
theorem decode_of_before {offset next : Nat} (inside : offset ≤ info.length)
    (follows : following? info order offset (decode info order offset) = some next)
    (before : next + 2 ≤ first) :
    decode other order offset = decode info order offset ∧
      following? other order offset (decode other order offset) = some next := by
  cases decoded : decode info order offset with
  | ok header =>
      rw [decoded] at follows
      cases follows
      have sound := sound_of_decode inside decoded
      have stops : (fields (startAt info order offset)).next.offset ≤ first := by
        have := sound.entriesOffset_le
        rw [sound.read_until]
        omega
      have same := (decode_of_stops agree inside stops).trans decoded
      exact ⟨same, by rw [same]; rfl⟩
  | error error =>
      cases error with
      | unsupportedVersion unit version =>
          rw [decoded] at follows
          have stops := read_until_of_unsupported inside decoded follows
          have same := (decode_of_stops agree inside (Nat.le_trans stops before)).trans decoded
          refine ⟨same, ?_⟩
          rw [same]
          exact declaredStop?_of_stops agree (by omega) follows
      | _ =>
          rw [decoded] at follows
          cases follows

end Agreement

/-- The walk passes the inside of a unit without looking at it. -/
theorem Walk.transfer {offset : Nat} {found : List Visit} {header : UnitHeader}
    (agree : AgreeOutside header.entriesOffset header.stop info other)
    (walk : Walk info order offset found)
    (ahead : (header.offset, .ok header) ∈ found ∨ header.stop ≤ offset) :
    Walk other order offset found := by
  have size := agree.length_eq
  induction walk with
  | done past => exact .done (size ▸ past)
  | @stuck offset inside lost =>
      rcases ahead with visited | behind
      · have decoded : decode info order offset = .ok header :=
          (congrArg Prod.snd (List.mem_singleton.mp visited)).symm
        obtain ⟨follows, bounds⟩ := following?_of_ok inside decoded
        exact absurd bounds (lost _ follows)
      · rw [← decode_of_behind agree behind]
        refine .stuck (size ▸ inside) fun next follows => ?_
        rw [following?_of_behind agree behind] at follows
        rw [size]
        exact lost next follows
  | @onward offset next found inside follows later within walk ih =>
      rcases ahead with visited | behind
      · rcases List.mem_cons.mp visited with here | further
        · have decoded : decode info order offset = .ok header := (congrArg Prod.snd here).symm
          have sound := sound_of_decode (Nat.le_of_lt inside) decoded
          have same := decode_of_stops agree (Nat.le_of_lt inside) (Nat.le_of_eq sound.read_until)
          have on := (following?_of_ok (size ▸ inside) (same.trans decoded)).1
          cases follows.symm.trans (following?_of_ok inside decoded).1
          rw [← same]
          exact .onward (size ▸ inside) on later (size ▸ within) (ih (.inr (Nat.le_refl _)))
        · have sound := walk.sound further
          have before : next + 2 ≤ header.entriesOffset := by
            have := (walk.mem further).1
            have := sound.offset_lt
            omega
          obtain ⟨same, on⟩ := decode_of_before agree (Nat.le_of_lt inside) follows before
          rw [← same]
          exact .onward (size ▸ inside) on later (size ▸ within) (ih (.inl further))
      · have further : header.stop ≤ next := Nat.le_trans behind (Nat.le_of_lt later)
        rw [← following?_of_behind agree behind] at follows
        rw [← decode_of_behind agree behind]
        exact .onward (size ▸ inside) follows later (size ▸ within) (ih (.inr further))

end UnitHeader

end Dwarf
