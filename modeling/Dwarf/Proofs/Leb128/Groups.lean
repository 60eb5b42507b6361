import Mathlib.Data.Nat.Digits.Lemmas
import Dwarf.Leb128

/-!
# Groups and the numbers they denote

The groups of an encoding are the digits of a number to the base 128, least significant digit first.
The readers add one group after the other to a word, so at every moment the word is the number so
far modulo `2 ^ 64`: groups above the word change neither.  All that a reader refuses is a group
above the word that is not padding.
-/

namespace Dwarf.Leb128

/-! ## Groups -/

theorem group_toNat (byte : UInt8) : (group byte).toNat = byte.toNat % 128 := by
  unfold group
  rw [UInt8.toNat_and]
  exact Nat.and_two_pow_sub_one_eq_mod byte.toNat 7

theorem group_lt (byte : UInt8) : (group byte).toNat < 128 := by
  rw [group_toNat]
  exact Nat.mod_lt _ (by decide)

theorem continues_iff (byte : UInt8) : continues byte = true ↔ 128 ≤ byte.toNat := by
  have bytewise : ∀ number : Fin 256, number.val &&& 128 ≠ 0 ↔ 128 ≤ number.val := by
    decide +kernel
  unfold continues
  rw [decide_eq_true_eq, ne_eq, ← UInt8.toNat_inj, UInt8.toNat_and]
  exact bytewise ⟨byte.toNat, byte.toNat_lt⟩

/-- A byte is its group together with whether another byte follows. -/
theorem byte_eq {byte other : UInt8} (groups : (group byte).toNat = (group other).toNat)
    (ends : continues byte = continues other) : byte = other := by
  have split := (continues_iff byte).symm.trans ((Bool.eq_iff_iff.mp ends).trans (continues_iff other))
  rw [group_toNat, group_toNat] at groups
  have := byte.toNat_lt
  have := other.toNat_lt
  exact UInt8.toNat_inj.mp (by omega)

/-- The number that groups denote, whatever its size. -/
def groupsValue : List UInt8 → Nat
  | [] => 0
  | byte :: rest => (group byte).toNat + 128 * groupsValue rest

/-- The last byte, and no other, says that no byte follows. -/
inductive Terminated : List UInt8 → Prop where
  | last {byte : UInt8} (stops : continues byte = false) : Terminated [byte]
  | more {byte : UInt8} {rest : List UInt8} (goes_on : continues byte = true)
      (later : Terminated rest) : Terminated (byte :: rest)

/-- No group is there for nothing: a last group of zeros is the only one. -/
def IsMinimal (bytes : List UInt8) : Prop :=
  bytes.length = 1 ∨ bytes.getLast? ≠ some 0

instance (bytes : List UInt8) : Decidable (IsMinimal bytes) :=
  inferInstanceAs (Decidable (_ ∨ _))

theorem Terminated.ne_nil {bytes : List UInt8} (terminated : Terminated bytes) : bytes ≠ [] := by
  cases terminated <;> exact List.cons_ne_nil _ _

theorem Terminated.length_pos {bytes : List UInt8} (terminated : Terminated bytes) :
    0 < bytes.length :=
  List.length_pos_iff.mpr terminated.ne_nil

/-- Before the last byte all bytes say that another one follows. -/
theorem Terminated.continues {bytes front : List UInt8} (terminated : Terminated bytes)
    (before : front <+: bytes) (partly : front ≠ bytes) :
    ∀ byte ∈ front, continues byte = true := by
  induction terminated generalizing front with
  | last stops =>
      cases front with
      | nil => simp
      | cons first rest =>
          obtain ⟨rfl, nothing⟩ := List.cons_prefix_cons.mp before
          rw [List.prefix_nil.mp nothing] at partly
          exact absurd rfl partly
  | more goes_on later ih =>
      cases front with
      | nil => simp
      | cons first rest =>
          obtain ⟨rfl, behind⟩ := List.cons_prefix_cons.mp before
          have others := ih behind fun same => partly (congrArg _ same)
          exact List.forall_mem_cons.mpr ⟨goes_on, others⟩

/-! ## Digits -/

theorem groupsValue_eq_ofDigits (bytes : List UInt8) :
    groupsValue bytes = Nat.ofDigits 128 (bytes.map fun byte => (group byte).toNat) := by
  induction bytes with
  | nil => rfl
  | cons byte rest ih => rw [groupsValue, ih, List.map_cons, Nat.ofDigits_cons]

theorem groupsValue_eq_sum (bytes : List UInt8) :
    groupsValue bytes =
      (bytes.mapIdx fun place byte => (group byte).toNat * 2 ^ (7 * place)).sum := by
  rw [groupsValue_eq_ofDigits, Nat.ofDigits_eq_sum_mapIdx, List.mapIdx_eq_zipIdx_map,
    List.mapIdx_eq_zipIdx_map, List.zipIdx_map, List.map_map]
  simp [Function.comp_def, Nat.pow_mul]

theorem groupsValue_append (front back : List UInt8) :
    groupsValue (front ++ back) =
      groupsValue front + 2 ^ (7 * front.length) * groupsValue back := by
  rw [groupsValue_eq_ofDigits, List.map_append, Nat.ofDigits_append, List.length_map, Nat.pow_mul,
    ← groupsValue_eq_ofDigits, ← groupsValue_eq_ofDigits]

theorem groupsValue_lt (bytes : List UInt8) : groupsValue bytes < 2 ^ (7 * bytes.length) := by
  have bound := Nat.ofDigits_lt_base_pow_length (b := 128)
    (l := bytes.map fun byte => (group byte).toNat) (by decide) (by simp [group_lt])
  rwa [← groupsValue_eq_ofDigits, List.length_map, ← Nat.pow_mul 2 7] at bound

theorem groupsValue_div (bytes : List UInt8) (count : Nat) :
    groupsValue bytes / 2 ^ (7 * count) = groupsValue (bytes.drop count) := by
  rcases Nat.le_total count bytes.length with within | beyond
  · have split := groupsValue_append (bytes.take count) (bytes.drop count)
    have below := groupsValue_lt (bytes.take count)
    rw [List.take_append_drop, List.length_take_of_le within] at split
    rw [List.length_take_of_le within] at below
    rw [split, Nat.add_mul_div_left _ _ (Nat.two_pow_pos _), Nat.div_eq_of_lt below, Nat.zero_add]
  · rw [List.drop_of_length_le beyond, groupsValue]
    refine Nat.div_eq_of_lt (Nat.lt_of_lt_of_le (groupsValue_lt bytes) ?_)
    exact Nat.pow_le_pow_right (by decide) (Nat.mul_le_mul_left 7 beyond)

theorem groupsValue_eq_zero_iff {bytes : List UInt8} :
    groupsValue bytes = 0 ↔ ∀ byte ∈ bytes, group byte = 0 := by
  induction bytes with
  | nil => simp [groupsValue]
  | cons byte rest ih =>
      rw [groupsValue, List.forall_mem_cons, ← ih, ← UInt8.toNat_inj, UInt8.toNat_zero]
      omega

theorem groupsValue_add_one_eq_iff {bytes : List UInt8} :
    groupsValue bytes + 1 = 2 ^ (7 * bytes.length) ↔ ∀ byte ∈ bytes, group byte = 0x7f := by
  induction bytes with
  | nil => simp [groupsValue]
  | cons byte rest ih =>
      have small := group_lt byte
      have ones : group byte = 0x7f ↔ (group byte).toNat = 127 := UInt8.toNat_inj.symm
      rw [groupsValue, List.forall_mem_cons, ← ih, ones, List.length_cons, Nat.mul_succ, Nat.pow_add]
      omega

/-- Encodings of one length denote different numbers. -/
theorem Terminated.eq_of_groupsValue {bytes other : List UInt8} (terminated : Terminated bytes)
    (also : Terminated other) (length : bytes.length = other.length)
    (same : groupsValue bytes = groupsValue other) : bytes = other := by
  induction terminated generalizing other with
  | @last byte stops =>
      cases also with
      | @last another also_stops =>
          simp only [groupsValue, Nat.mul_zero, Nat.add_zero] at same
          rw [byte_eq same (stops.trans also_stops.symm)]
      | more _ later => exact absurd length (by simpa using later.ne_nil)
  | @more byte rest goes_on later ih =>
      cases also with
      | last _ => exact absurd length (by simpa using later.ne_nil)
      | @more another others also_goes_on also_later =>
          have small := group_lt byte
          have also_small := group_lt another
          simp only [groupsValue] at same
          rw [byte_eq (by omega) (goes_on.trans also_goes_on.symm),
            ih also_later (Nat.succ.inj length) (by omega)]

/-! ## Signs -/

/-- Whether bit 6 of the last group is set. -/
def isNegative (bytes : List UInt8) : Bool :=
  bytes.getLast?.any fun byte => byte &&& 0x40 ≠ 0

/-- The number with a sign that groups denote, whatever its size: if bit 6 of the last group is set,
the bits above the groups are ones. -/
def signedValue (bytes : List UInt8) : Int :=
  groupsValue bytes - if isNegative bytes then 2 ^ (7 * bytes.length) else 0

theorem sign_iff (byte : UInt8) : byte &&& 0x40 ≠ 0 ↔ 64 ≤ (group byte).toNat := by
  have bytewise : ∀ number : Fin 256, number.val &&& 64 ≠ 0 ↔ 64 ≤ number.val % 128 := by
    decide +kernel
  rw [group_toNat, ne_eq, ← UInt8.toNat_inj, UInt8.toNat_and]
  exact bytewise ⟨byte.toNat, byte.toNat_lt⟩

theorem isNegative_of_getLast? {bytes : List UInt8} {last : UInt8}
    (ends : bytes.getLast? = some last) : isNegative bytes = true ↔ 64 ≤ (group last).toNat := by
  rw [isNegative, ends, Option.any_some, decide_eq_true_eq, sign_iff]

theorem signedValue_singleton (byte : UInt8) :
    signedValue [byte] =
      (group byte).toNat - if 64 ≤ (group byte).toNat then (128 : Int) else 0 := by
  simp [signedValue, groupsValue, isNegative_of_getLast? (List.getLast?_singleton ..)]

theorem signedValue_append (front : List UInt8) {back : List UInt8} (some_back : back ≠ []) :
    signedValue (front ++ back) =
      groupsValue front + 2 ^ (7 * front.length) * signedValue back := by
  have signs : isNegative (front ++ back) = isNegative back := by
    rw [isNegative, List.getLast?_append_of_ne_nil _ some_back, isNegative]
  rw [signedValue, signedValue, signs, groupsValue_append, List.length_append, Nat.mul_add,
    pow_add, mul_sub]
  cases isNegative back <;> push_cast <;> simp [add_sub_assoc]

theorem signedValue_cons (byte : UInt8) {rest : List UInt8} (some_rest : rest ≠ []) :
    signedValue (byte :: rest) = (group byte).toNat + 128 * signedValue rest :=
  signedValue_append [byte] some_rest

/-- The last group gives a number its sign. -/
theorem signedValue_bounds {bytes : List UInt8} {groups : Nat} (length : bytes.length = groups + 1) :
    -(64 * 128 ^ groups) ≤ signedValue bytes ∧ signedValue bytes < 64 * 128 ^ groups := by
  induction groups generalizing bytes with
  | zero =>
      obtain ⟨byte, rfl⟩ := List.length_eq_one_iff.mp length
      have small := group_lt byte
      rw [signedValue_singleton, pow_zero]
      split <;> omega
  | succ groups ih =>
      obtain ⟨byte, rest, rfl⟩ := List.exists_cons_of_length_eq_add_one length
      have rest_length : rest.length = groups + 1 := Nat.succ.inj length
      obtain ⟨low, high⟩ := ih rest_length
      have small := group_lt byte
      rw [signedValue_cons byte (List.ne_nil_of_length_eq_add_one rest_length), pow_succ]
      generalize (128 : Int) ^ groups = scale at *
      constructor <;> omega

theorem group_eq_of_signedValue_eq_zero {bytes : List UInt8} (zero : signedValue bytes = 0) :
    ∀ byte ∈ bytes, group byte = 0 := by
  have below := groupsValue_lt bytes
  zify at below
  rw [signedValue] at zero
  refine groupsValue_eq_zero_iff.mp ?_
  split at zero <;> omega

theorem group_eq_of_signedValue_eq_neg_one {bytes : List UInt8} (ones : signedValue bytes = -1) :
    ∀ byte ∈ bytes, group byte = 0x7f := by
  rw [signedValue] at ones
  refine groupsValue_add_one_eq_iff.mp ?_
  zify
  split at ones <;> omega

/-- A number in the range of a word has nothing but its sign above the word. -/
theorem isSignGroup_of_inRange {bytes : List UInt8} (low : -2 ^ 63 ≤ signedValue bytes)
    (high : signedValue bytes < 2 ^ 63) : ∀ byte ∈ bytes.drop 10, isSignGroup (group byte) = true := by
  by_cases none_above : bytes.drop 10 = []
  · simp [none_above]
  · have within : 10 ≤ bytes.length := by
      by_contra short
      exact none_above (List.drop_of_length_le (by omega))
    have split := signedValue_append (bytes.take 10) none_above
    have below := groupsValue_lt (bytes.take 10)
    rw [List.take_append_drop, List.length_take_of_le within] at split
    rw [List.length_take_of_le within] at below
    have above : signedValue (bytes.drop 10) = 0 ∨ signedValue (bytes.drop 10) = -1 := by omega
    intro byte member
    rcases above with zero | ones
    · simp [isSignGroup, group_eq_of_signedValue_eq_zero zero byte member]
    · simp [isSignGroup, group_eq_of_signedValue_eq_neg_one ones byte member]

theorem Terminated.eq_of_signedValue {bytes other : List UInt8} (terminated : Terminated bytes)
    (also : Terminated other) (length : bytes.length = other.length)
    (same : signedValue bytes = signedValue other) : bytes = other := by
  have below := groupsValue_lt bytes
  have also_below := groupsValue_lt other
  refine terminated.eq_of_groupsValue also length ?_
  unfold signedValue at same
  rw [← length] at same also_below
  zify at below also_below ⊢
  split at same <;> split at same <;> omega

/-- The encoding with one more group, which repeats the sign. -/
def widen : List UInt8 → List UInt8
  | [] => []
  | [byte] => [byte ||| 0x80, if byte &&& 0x40 ≠ 0 then 0x7f else 0]
  | byte :: next :: rest => byte :: widen (next :: rest)

/-- One more group keeps the number. -/
theorem Terminated.widen {bytes : List UInt8} (terminated : Terminated bytes) :
    Terminated (widen bytes) ∧ signedValue (Leb128.widen bytes) = signedValue bytes := by
  induction terminated with
  | @last byte stops =>
      have marked : ∀ number : Fin 256, Leb128.continues (UInt8.ofNat number ||| 0x80) = true ∧
          group (UInt8.ofNat number ||| 0x80) = group (UInt8.ofNat number) := by
        decide +kernel
      obtain ⟨goes_on, same⟩ := marked ⟨byte.toNat, byte.toNat_lt⟩
      rw [UInt8.ofNat_toNat] at goes_on same
      rw [Leb128.widen, signedValue_cons _ (List.cons_ne_nil _ _), signedValue_singleton,
        signedValue_singleton, same]
      by_cases sign : byte &&& 0x40 ≠ 0
      · rw [if_pos sign, if_pos ((sign_iff byte).mp sign)]
        exact ⟨.more goes_on (.last rfl), rfl⟩
      · rw [if_neg sign, if_neg (mt (sign_iff byte).mpr sign)]
        exact ⟨.more goes_on (.last rfl), rfl⟩
  | @more byte rest goes_on later ih =>
      obtain ⟨widened, same⟩ := ih
      obtain ⟨next, others, rfl⟩ := List.exists_cons_of_ne_nil later.ne_nil
      rw [Leb128.widen, signedValue_cons byte widened.ne_nil, signedValue_cons byte later.ne_nil, same]
      exact ⟨.more goes_on widened, rfl⟩

theorem Terminated.iterate_widen {bytes : List UInt8} (terminated : Terminated bytes)
    (count : Nat) :
    Terminated (Leb128.widen^[count] bytes) ∧
      signedValue (Leb128.widen^[count] bytes) = signedValue bytes := by
  induction count with
  | zero => exact ⟨terminated, rfl⟩
  | succ count ih =>
      obtain ⟨widened, same⟩ := ih
      rw [Function.iterate_succ_apply']
      exact ⟨widened.widen.1, widened.widen.2.trans same⟩

end Dwarf.Leb128
