import Dwarf.Proofs.Leb128.Groups

/-!
# What the readers make of groups

The word of a reader is at every moment the number so far modulo `2 ^ 64`.  One step keeps this,
whether the group lies in the word, across its end or above it, and so does the whole loop.  What is
delivered is the number of the groups modulo the range of the word; what is refused has a group above
the word that is not padding.
-/

namespace Dwarf.Leb128

variable {α : Type}

/-! ## The word -/

/-- Shifted bits are added to the bits below them, except for what does not fit the word. -/
theorem or_shiftLeft_toNat {total : UInt64} {shift : Nat} (below : total.toNat < 2 ^ shift)
    (inside : shift < 64) (bits : UInt64) :
    (total ||| bits <<< UInt64.ofNat shift).toNat =
      total.toNat + bits.toNat * 2 ^ shift % 2 ^ 64 := by
  have amount : (UInt64.ofNat shift).toNat % 64 = shift := by
    rw [UInt64.toNat_ofNat']
    omega
  have width : 2 ^ 64 = 2 ^ shift * 2 ^ (64 - shift) := by
    rw [← Nat.pow_add]
    congr 1
    omega
  rw [UInt64.toNat_or, UInt64.toNat_shiftLeft, amount, Nat.shiftLeft_eq,
    Nat.mul_comm _ (2 ^ shift), width, Nat.mul_mod_mul_left, Nat.or_comm,
    ← Nat.two_pow_add_eq_or_of_lt below, Nat.add_comm]

theorem toInt64_eq_ofInt {word : UInt64} {number : Int}
    (same : (word.toNat : Int) = number % 2 ^ 64) : word.toInt64 = Int64.ofInt number := by
  rw [← Int64.toBitVec_inj]
  refine BitVec.eq_of_toNat_eq ?_
  change word.toNat = (BitVec.ofInt 64 number).toNat
  rw [BitVec.toNat_ofInt]
  omega

theorem ofNat_add_above (number factor : Nat) {shift : Nat} (above : 64 ≤ shift) :
    UInt64.ofNat (number + factor * 2 ^ shift) = UInt64.ofNat number := by
  obtain ⟨more, rfl⟩ := Nat.exists_eq_add_of_le above
  rw [← UInt64.toNat_inj, UInt64.toNat_ofNat', UInt64.toNat_ofNat', Nat.pow_add, Nat.mul_left_comm,
    Nat.add_mul_mod_self_left]

/-- One more group is added modulo the range of the word, unless it is refused. -/
theorem absorb_ofNat (padding : UInt8 → Bool) {soFar shift : Nat} (below : soFar < 2 ^ shift)
    (byte : UInt8) :
    absorb padding (.ofNat soFar) shift byte =
      if shift < 64 ∨ padding (group byte) = true then
        some (.ofNat (soFar + (group byte).toNat * 2 ^ shift))
      else none := by
  unfold absorb
  by_cases inside : shift < 64
  · have word : (UInt64.ofNat soFar).toNat = soFar :=
      UInt64.toNat_ofNat_of_lt' (Nat.lt_trans below (Nat.pow_lt_pow_right (by decide) inside))
    have sum := or_shiftLeft_toNat (word.symm ▸ below) inside (group byte).toUInt64
    have bound := (UInt64.ofNat soFar ||| (group byte).toUInt64 <<< UInt64.ofNat shift).toNat_lt
    rw [word, UInt8.toNat_toUInt64] at sum
    rw [if_pos inside, if_pos (.inl inside), Option.some.injEq, ← UInt64.toNat_inj,
      UInt64.toNat_ofNat', sum]
    omega
  · rw [if_neg inside, ofNat_add_above _ _ (Nat.not_lt.mp inside)]
    by_cases padded : padding (group byte) = true
    · rw [if_pos padded, if_pos (.inr padded)]
    · rw [if_neg padded, if_neg (not_or.mpr ⟨inside, padded⟩)]

theorem next_below {soFar shift : Nat} (below : soFar < 2 ^ shift) (byte : UInt8) :
    soFar + (group byte).toNat * 2 ^ shift < 2 ^ (shift + 7) := by
  have product := Nat.mul_le_mul_right (2 ^ shift) (Nat.succ_le_of_lt (group_lt byte))
  rw [Nat.succ_mul] at product
  rw [Nat.pow_add, Nat.mul_comm (2 ^ shift)]
  omega

theorem next_groups (soFar value shift : Nat) (byte : UInt8) :
    soFar + (group byte).toNat * 2 ^ shift + value * 2 ^ (shift + 7) =
      soFar + ((group byte).toNat + 128 * value) * 2 ^ shift := by
  rw [Nat.pow_add]
  ring

/-! ## The loop -/

/-- With some groups before the bytes, all groups of the bytes that lie above the word are padding. -/
def Padded (padding : UInt8 → Bool) (groups : Nat) (bytes : List UInt8) : Prop :=
  ∀ byte ∈ bytes.drop (10 - groups), padding (group byte) = true

theorem padded_cons_iff {padding : UInt8 → Bool} {groups : Nat} {byte : UInt8} {rest : List UInt8} :
    Padded padding groups (byte :: rest) ↔
      (7 * groups < 64 ∨ padding (group byte) = true) ∧ Padded padding (groups + 1) rest := by
  unfold Padded
  by_cases inside : groups < 10
  · have passed : 10 - groups = 10 - (groups + 1) + 1 := by omega
    rw [passed, List.drop_succ_cons]
    exact ⟨fun padded => ⟨.inl (by omega), padded⟩, And.right⟩
  · have above : 10 - groups = 0 ∧ 10 - (groups + 1) = 0 := by omega
    rw [above.1, above.2, List.drop_zero, List.drop_zero, List.forall_mem_cons]
    exact and_congr_left' (or_iff_right (by omega)).symm

section

variable (padding : UInt8 → Bool) (finish : UInt8 → Nat → UInt64 → α) {bytes : List UInt8}
  {soFar groups : Nat} (below : soFar < 2 ^ (7 * groups)) (used : Nat)
include below

/-- An encoding whose groups above the word are padding is read as the number of its groups modulo
the range of the word, whatever comes behind it. -/
theorem readFrom_padded (terminated : Terminated bytes) {last : UInt8}
    (ends : bytes.getLast? = some last) (padded : Padded padding groups bytes)
    (after : List UInt8) :
    readFrom padding finish (.ofNat soFar) (7 * groups) used (bytes ++ after) =
      ⟨.ok (finish last (7 * (groups + bytes.length))
        (.ofNat (soFar + groupsValue bytes * 2 ^ (7 * groups)))), used + bytes.length⟩ := by
  induction terminated generalizing soFar groups used with
  | @last byte stops =>
      obtain rfl : byte = last := Option.some.inj ends
      obtain ⟨accepted, _⟩ := padded_cons_iff.mp padded
      rw [List.singleton_append, readFrom, absorb_ofNat padding below, if_pos accepted]
      simp [stops, groupsValue, Nat.mul_add]
  | @more byte rest goes_on later ih =>
      obtain ⟨accepted, others⟩ := padded_cons_iff.mp padded
      have rest_ends : rest.getLast? = some last := by
        obtain ⟨next, behind, rfl⟩ := List.exists_cons_of_ne_nil later.ne_nil
        rwa [List.getLast?_cons_cons] at ends
      have next := @ih _ (groups + 1) (next_below below byte) (used + 1) rest_ends others
      rw [List.cons_append, readFrom, absorb_ofNat padding below, if_pos accepted]
      simp only [goes_on, if_true]
      rw [← Nat.mul_succ, next, Nat.mul_succ, next_groups, groupsValue, List.length_cons,
        Nat.add_right_comm groups, Nat.add_right_comm used]
      rfl

/-- An encoding with a group above the word that is not padding is refused. -/
theorem readFrom_unpadded (terminated : Terminated bytes)
    (unpadded : ¬Padded padding groups bytes) (after : List UInt8) :
    (readFrom padding finish (.ofNat soFar) (7 * groups) used (bytes ++ after)).result =
      .error .outOfRange := by
  induction terminated generalizing soFar groups used with
  | @last byte stops =>
      have refused : ¬(7 * groups < 64 ∨ padding (group byte) = true) := by
        rw [padded_cons_iff] at unpadded
        exact fun accepted => unpadded ⟨accepted, by simp [Padded]⟩
      rw [List.singleton_append, readFrom, absorb_ofNat padding below, if_neg refused]
  | @more byte rest goes_on later ih =>
      rw [List.cons_append, readFrom, absorb_ofNat padding below]
      by_cases accepted : 7 * groups < 64 ∨ padding (group byte) = true
      · have others : ¬Padded padding (groups + 1) rest := by
          rw [padded_cons_iff] at unpadded
          exact fun padded => unpadded ⟨accepted, padded⟩
        rw [if_pos accepted]
        simp only [goes_on, if_true]
        exact ih (next_below below byte) (used + 1) others
      · rw [if_neg accepted]

/-- Bytes that end inside the number, and inside the word, are all looked at. -/
theorem readFrom_unfinished (unfinished : ∀ byte ∈ bytes, continues byte = true)
    (inside : groups + bytes.length ≤ 10) :
    readFrom padding finish (.ofNat soFar) (7 * groups) used bytes =
      ⟨.error .endOfData, used + bytes.length⟩ := by
  induction bytes generalizing soFar groups used with
  | nil => rfl
  | cons byte rest ih =>
      obtain ⟨goes_on, others⟩ := List.forall_mem_cons.mp unfinished
      rw [List.length_cons] at inside ⊢
      rw [readFrom, absorb_ofNat padding below, if_pos (.inl (by omega))]
      simp only [goes_on, if_true]
      rw [← Nat.mul_succ, ih (next_below below byte) (used + 1) others (by omega)]
      congr 1
      omega

end

/-- A number that has been read to the end of the bytes is terminated. -/
theorem terminated_of_readFrom {α : Type} {padding : UInt8 → Bool}
    {finish : UInt8 → Nat → UInt64 → α} {total : UInt64} {shift used : Nat} {bytes : List UInt8}
    {value : α}
    (read : readFrom padding finish total shift used bytes = ⟨.ok value, used + bytes.length⟩) :
    Terminated bytes := by
  induction bytes generalizing total shift used with
  | nil => cases read
  | cons byte rest ih =>
      rw [readFrom] at read
      cases absorbed : absorb padding total shift byte with
      | none =>
          rw [absorbed] at read
          cases read
      | some next =>
          simp only [absorbed] at read
          by_cases more : continues byte = true
          · rw [if_pos more, List.length_cons, Nat.add_comm rest.length, ← Nat.add_assoc] at read
            exact .more more (ih read)
          · rw [if_neg more] at read
            have ended : rest = [] := by
              have same : used + 1 = used + (rest.length + 1) := congrArg Scan.used read
              exact List.length_eq_zero_iff.mp (by omega)
            rw [ended]
            exact .last (Bool.eq_false_iff.mpr more)

/-! ## Unsigned numbers -/

theorem padded_zeros_iff {bytes : List UInt8} :
    Padded isZeroGroup 0 bytes ↔ groupsValue bytes < 2 ^ 70 := by
  have above := groupsValue_div bytes 10
  have zeros : Padded isZeroGroup 0 bytes ↔ groupsValue (bytes.drop 10) = 0 := by
    simp [Padded, isZeroGroup, groupsValue_eq_zero_iff]
  rw [zeros, ← above]
  omega

theorem unsigned_unfinished {bytes front : List UInt8} (terminated : Terminated bytes)
    (length : bytes.length ≤ 10) (part : front <+: bytes) (proper : front ≠ bytes) :
    (unsigned front).result = .error .endOfData := by
  have shorter := part.length_le
  have scanned := readFrom_unfinished isZeroGroup (fun _ _ total => total)
    (show 0 < 2 ^ (7 * 0) by decide) 0 (terminated.continues part proper) (by omega)
  exact congrArg Scan.result scanned

theorem terminated_of_unsigned {bytes : List UInt8} {value : UInt64}
    (read : unsigned bytes = ⟨.ok value, bytes.length⟩) : Terminated bytes := by
  unfold unsigned at read
  exact terminated_of_readFrom (by rwa [Nat.zero_add])

/-- The unsigned number of an encoding is read modulo the range of the word, unless a group above
the word is not zero. -/
theorem unsigned_terminated {bytes : List UInt8} (terminated : Terminated bytes)
    (after : List UInt8) :
    (groupsValue bytes < 2 ^ 70 →
      unsigned (bytes ++ after) = ⟨.ok (.ofNat (groupsValue bytes)), bytes.length⟩) ∧
    (2 ^ 70 ≤ groupsValue bytes → (unsigned (bytes ++ after)).result = .error .outOfRange) := by
  constructor
  · intro low
    have last := List.getLast?_eq_some_getLast terminated.ne_nil
    have read := readFrom_padded isZeroGroup (fun _ _ total => total)
      (show 0 < 2 ^ (7 * 0) by decide) 0 terminated last (padded_zeros_iff.mpr low) after
    simpa [unsigned] using read
  · intro high
    have unpadded := mt padded_zeros_iff.mp (Nat.not_lt.mpr high)
    exact readFrom_unpadded isZeroGroup (fun _ _ total => total) (show 0 < 2 ^ (7 * 0) by decide) 0
      terminated unpadded after

/-! ## Signed numbers -/

/-- The word of the groups becomes the number with its sign, modulo the range of the word. -/
theorem signedWord_eq {bytes : List UInt8} {last : UInt8} (ends : bytes.getLast? = some last) :
    signedWord last (7 * bytes.length) (.ofNat (groupsValue bytes)) =
      Int64.ofInt (signedValue bytes) := by
  have sign := (sign_iff last).trans (isNegative_of_getLast? ends).symm
  have below := groupsValue_lt bytes
  unfold signedWord signedValue
  by_cases filled : 7 * bytes.length < 64 ∧ isNegative bytes = true
  · obtain ⟨inside, negative⟩ := filled
    have room : 2 ^ (7 * bytes.length) ≤ 2 ^ 63 := Nat.pow_le_pow_right (by decide) (by omega)
    have word : (UInt64.ofNat (groupsValue bytes)).toNat = groupsValue bytes :=
      UInt64.toNat_ofNat_of_lt' (Nat.lt_trans (Nat.lt_of_lt_of_le below room) (by decide))
    have fill := or_shiftLeft_toNat (word.symm ▸ below) inside 0xffffffffffffffff
    rw [if_pos ⟨inside, sign.mpr negative⟩, if_pos negative]
    refine toInt64_eq_ofInt ?_
    rw [fill, word]
    zify at below room ⊢
    generalize (2 : Int) ^ (7 * bytes.length) = scale at *
    simp only [UInt64.reduceToNat]
    omega
  · rw [if_neg fun both => filled ⟨both.1, sign.mp both.2⟩]
    refine toInt64_eq_ofInt ?_
    rw [UInt64.toNat_ofNat']
    by_cases negative : isNegative bytes = true
    · have full : 64 ≤ 7 * bytes.length := Nat.not_lt.mp fun inside => filled ⟨inside, negative⟩
      obtain ⟨above, multiple⟩ := pow_dvd_pow (2 : Int) full
      rw [if_pos negative, multiple, Int.natCast_mod]
      omega
    · rw [if_neg negative, sub_zero]
      rfl

theorem signed_unfinished {bytes front : List UInt8} (terminated : Terminated bytes)
    (length : bytes.length ≤ 10) (part : front <+: bytes) (proper : front ≠ bytes) :
    (signed front).result = .error .endOfData := by
  have shorter := part.length_le
  have scanned := readFrom_unfinished isSignGroup signedWord (show 0 < 2 ^ (7 * 0) by decide) 0
    (terminated.continues part proper) (by omega)
  exact congrArg Scan.result scanned

theorem terminated_of_signed {bytes : List UInt8} {value : Int64}
    (read : signed bytes = ⟨.ok value, bytes.length⟩) : Terminated bytes := by
  unfold signed at read
  exact terminated_of_readFrom (by rwa [Nat.zero_add])

theorem signed_padded {bytes : List UInt8} (terminated : Terminated bytes)
    (padded : ∀ byte ∈ bytes.drop 10, isSignGroup (group byte) = true) (after : List UInt8) :
    signed (bytes ++ after) = ⟨.ok (Int64.ofInt (signedValue bytes)), bytes.length⟩ := by
  have last := List.getLast?_eq_some_getLast terminated.ne_nil
  have read := readFrom_padded isSignGroup signedWord (show 0 < 2 ^ (7 * 0) by decide) 0 terminated
    last padded after
  rw [← signedWord_eq last]
  simpa [signed] using read

theorem signed_unpadded {bytes : List UInt8} (terminated : Terminated bytes)
    (unpadded : ¬∀ byte ∈ bytes.drop 10, isSignGroup (group byte) = true) (after : List UInt8) :
    (signed (bytes ++ after)).result = .error .outOfRange :=
  readFrom_unpadded isSignGroup signedWord (show 0 < 2 ^ (7 * 0) by decide) 0 terminated unpadded
    after

/-! ## Shifts of 32 bits -/

/-- The loop of the readers with the shift in a word of 32 bits. -/
def readFromWord (padding : UInt8 → Bool) (finish : UInt8 → Nat → UInt64 → α) (total : UInt64)
    (shift : UInt32) (used : Nat) : List UInt8 → Scan α
  | [] => ⟨.error .endOfData, used⟩
  | byte :: rest =>
    match absorb padding total shift.toNat byte with
    | none => ⟨.error .outOfRange, used + 1⟩
    | some total =>
      if continues byte then readFromWord padding finish total (shift + 7) (used + 1) rest
      else ⟨.ok (finish byte (shift + 7).toNat total), used + 1⟩

section

variable (padding : UInt8 → Bool) (finish : UInt8 → Nat → UInt64 → α)

theorem le_readFrom_used (total : UInt64) (shift used : Nat) (bytes : List UInt8) :
    used ≤ (readFrom padding finish total shift used bytes).used := by
  induction bytes generalizing total shift used with
  | nil => exact Nat.le_refl used
  | cons byte rest ih =>
      rw [readFrom]
      cases absorb padding total shift byte with
      | none => exact Nat.le_succ used
      | some next =>
          by_cases more : continues byte = true
          · simp only [more, if_true]
            exact Nat.le_of_succ_le (ih next (shift + 7) (used + 1))
          · simp only [more]
            exact Nat.le_succ used

/-- The shift does not overflow, and so its width makes no difference, as long as seven bits for each
byte of the number can be counted. -/
theorem readFromWord_eq {total : UInt64} {shift : UInt32} {used : Nat} {bytes : List UInt8}
    (fits : shift.toNat + 7 * (readFrom padding finish total shift.toNat used bytes).used <
      2 ^ 32 + 7 * used) :
    readFromWord padding finish total shift used bytes =
      readFrom padding finish total shift.toNat used bytes := by
  induction bytes generalizing total shift used with
  | nil => rfl
  | cons byte rest ih =>
      rw [readFrom] at fits
      rw [readFromWord, readFrom]
      cases absorbed : absorb padding total shift.toNat byte with
      | none => rfl
      | some next =>
          simp only [absorbed] at fits ⊢
          have grows := le_readFrom_used padding finish next (shift.toNat + 7) (used + 1) rest
          have sum : (shift + 7).toNat = shift.toNat + 7 := by
            rw [UInt32.toNat_add]
            refine Nat.mod_eq_of_lt ?_
            change shift.toNat + 7 < 2 ^ 32
            split at fits
            · omega
            · dsimp only at fits
              omega
          by_cases more : continues byte = true
          · rw [if_pos more] at fits
            rw [if_pos more, if_pos more, ← sum]
            refine ih ?_
            rw [sum]
            omega
          · rw [if_neg more, if_neg more, sum]

end

/-- Numbers of fewer than `2 ^ 32 / 7` bytes are read with a shift of 32 bits as they are without a
bound on the shift. -/
theorem unsigned_eq_word {bytes : List UInt8} (short : 7 * (unsigned bytes).used < 2 ^ 32) :
    readFromWord isZeroGroup (fun _ _ total => total) 0 0 0 bytes = unsigned bytes :=
  readFromWord_eq _ _ (by simpa [unsigned] using short)

theorem signed_eq_word {bytes : List UInt8} (short : 7 * (signed bytes).used < 2 ^ 32) :
    readFromWord isSignGroup signedWord 0 0 0 bytes = signed bytes :=
  readFromWord_eq _ _ (by simpa [signed] using short)

end Dwarf.Leb128
