import Dwarf.Proofs.Leb128.Reading

/-!
# Shortest variable-length integers

Every number has one shortest encoding, and the readers give the number back.  Conversely an encoding
that does not end in a group of zeros is the shortest one of the number that its groups denote; whether
that number fits a word is another question.
-/

namespace Dwarf.Leb128

/-- The encoding denotes a number, and every other encoding of the number is longer. -/
structure IsShortest {ν : Type} (denotes : List UInt8 → ν) (number : ν) (bytes : List UInt8) :
    Prop where
  terminated : Terminated bytes
  value_eq : denotes bytes = number
  others_longer : ∀ other, Terminated other → denotes other = number → other ≠ bytes →
    bytes.length < other.length

/-! ## Unsigned numbers -/

/-- The shortest encoding of a number. -/
def encode (number : Nat) : List UInt8 :=
  if number < 128 then [UInt8.ofNat number]
  else UInt8.ofNat (number % 128 + 128) :: encode (number / 128)

theorem encode_of_lt {number : Nat} (small : number < 128) :
    encode number = [UInt8.ofNat number] := by
  rw [encode, if_pos small]

theorem encode_of_le {number : Nat} (large : 128 ≤ number) :
    encode number = UInt8.ofNat (number % 128 + 128) :: encode (number / 128) := by
  rw [encode, if_neg (Nat.not_lt.mpr large)]

theorem terminated_encode (number : Nat) : Terminated (encode number) := by
  induction number using encode.induct with
  | case1 number small =>
      rw [encode_of_lt small]
      refine .last (Bool.eq_false_iff.mpr fun goes_on => ?_)
      rw [continues_iff, UInt8.toNat_ofNat'] at goes_on
      omega
  | case2 number large ih =>
      rw [encode_of_le (Nat.not_lt.mp large)]
      refine .more ?_ ih
      rw [continues_iff, UInt8.toNat_ofNat']
      omega

theorem groupsValue_encode (number : Nat) : groupsValue (encode number) = number := by
  induction number using encode.induct with
  | case1 number small =>
      rw [encode_of_lt small, groupsValue, groupsValue, group_toNat, UInt8.toNat_ofNat']
      omega
  | case2 number large ih =>
      rw [encode_of_le (Nat.not_lt.mp large), groupsValue, ih, group_toNat, UInt8.toNat_ofNat']
      omega

theorem length_encode_le {number groups : Nat} (fits : number < 128 ^ (groups + 1)) :
    (encode number).length ≤ groups + 1 := by
  induction groups generalizing number with
  | zero =>
      rw [encode_of_lt (by simpa using fits)]
      exact Nat.le_refl 1
  | succ groups ih =>
      by_cases small : number < 128
      · rw [encode_of_lt small]
        exact Nat.le_add_left 1 (groups + 1)
      · rw [encode_of_le (Nat.not_lt.mp small), List.length_cons]
        refine Nat.succ_le_succ (ih (Nat.div_lt_of_lt_mul ?_))
        rw [Nat.mul_comm]
        exact fits

theorem isShortest_encode (number : Nat) : IsShortest groupsValue number (encode number) where
  terminated := terminated_encode number
  value_eq := groupsValue_encode number
  others_longer other terminated same different := by
    obtain ⟨groups, length⟩ := Nat.exists_eq_add_of_le' terminated.length_pos
    have bound := groupsValue_lt other
    rw [same, length, Nat.pow_mul] at bound
    refine Nat.lt_of_le_of_ne (length ▸ length_encode_le bound) fun lengths => different ?_
    exact terminated.eq_of_groupsValue (terminated_encode number) lengths.symm
      (same.trans (groupsValue_encode number).symm)

theorem groupsValue_pos {bytes : List UInt8} (terminated : Terminated bytes)
    (last : bytes.getLast? ≠ some 0) : 0 < groupsValue bytes := by
  induction terminated with
  | @last byte stops =>
      have nonzero : byte ≠ 0 := fun zero => last (congrArg some zero)
      have positive : 0 < byte.toNat :=
        Nat.pos_of_ne_zero fun zero => nonzero (UInt8.toNat_inj.mp zero)
      have small := mt (continues_iff byte).mpr (Bool.eq_false_iff.mp stops)
      rw [groupsValue, group_toNat]
      omega
  | @more byte rest goes_on later ih =>
      have behind : rest.getLast? ≠ some 0 := by
        intro zero
        rw [List.getLast?_cons, zero] at last
        exact last rfl
      have := ih behind
      rw [groupsValue]
      omega

/-- The shortest encodings are the minimal ones. -/
theorem eq_encode {bytes : List UInt8} (terminated : Terminated bytes) (minimal : IsMinimal bytes) :
    bytes = encode (groupsValue bytes) := by
  induction terminated with
  | @last byte stops =>
      have small := mt (continues_iff byte).mpr (Bool.eq_false_iff.mp stops)
      have value : groupsValue [byte] = byte.toNat := by
        rw [groupsValue, groupsValue, group_toNat]
        omega
      rw [value, encode_of_lt (Nat.not_le.mp small), UInt8.ofNat_toNat]
  | @more byte rest goes_on later ih =>
      have last : rest.getLast? ≠ some 0 := by
        rcases minimal with single | last
        · cases later <;> cases single
        · intro zero
          rw [List.getLast?_cons, zero] at last
          exact last rfl
      have positive := groupsValue_pos later last
      have large := (continues_iff byte).mp goes_on
      have small := byte.toNat_lt
      rw [groupsValue, encode_of_le (by omega), group_toNat]
      have head : byte.toNat = (byte.toNat % 128 + 128 * groupsValue rest) % 128 + 128 := by omega
      have tail : (byte.toNat % 128 + 128 * groupsValue rest) / 128 = groupsValue rest := by omega
      rw [← head, tail, ← ih (.inr last), UInt8.ofNat_toNat]

theorem unsigned_of_fits {bytes : List UInt8} (terminated : Terminated bytes)
    (fits : groupsValue bytes < 2 ^ 64) (after : List UInt8) :
    unsigned (bytes ++ after) = ⟨.ok (UInt64.ofNat (groupsValue bytes)), bytes.length⟩ :=
  (unsigned_terminated terminated after).1 (Nat.lt_trans fits (by decide))

theorem unsigned_encode (value : UInt64) (after : List UInt8) :
    unsigned (encode value.toNat ++ after) = ⟨.ok value, (encode value.toNat).length⟩ := by
  have fits : groupsValue (encode value.toNat) < 2 ^ 64 := by
    rw [groupsValue_encode]
    exact value.toNat_lt
  rw [unsigned_of_fits (terminated_encode _) fits, groupsValue_encode, UInt64.ofNat_toNat]

/-! ## Signed numbers -/

/-- The shortest encoding of a number with a sign. -/
def encodeSigned (number : Int) : List UInt8 :=
  if -64 ≤ number ∧ number < 64 then [UInt8.ofNat (number % 128).toNat]
  else UInt8.ofNat ((number % 128).toNat + 128) :: encodeSigned (number / 128)
termination_by number.natAbs
decreasing_by omega

theorem encodeSigned_of_small {number : Int} (small : -64 ≤ number ∧ number < 64) :
    encodeSigned number = [UInt8.ofNat (number % 128).toNat] := by
  rw [encodeSigned, if_pos small]

theorem encodeSigned_of_large {number : Int} (large : ¬(-64 ≤ number ∧ number < 64)) :
    encodeSigned number =
      UInt8.ofNat ((number % 128).toNat + 128) :: encodeSigned (number / 128) := by
  rw [encodeSigned, if_neg large]

theorem group_ofNat (number : Nat) : (group (UInt8.ofNat number)).toNat = number % 128 := by
  rw [group_toNat, UInt8.toNat_ofNat']
  omega

theorem terminated_encodeSigned (number : Int) : Terminated (encodeSigned number) := by
  induction number using encodeSigned.induct with
  | case1 number small =>
      rw [encodeSigned_of_small small]
      refine .last (Bool.eq_false_iff.mpr fun goes_on => ?_)
      rw [continues_iff, UInt8.toNat_ofNat'] at goes_on
      omega
  | case2 number large ih =>
      rw [encodeSigned_of_large large]
      refine .more ?_ ih
      rw [continues_iff, UInt8.toNat_ofNat']
      omega

theorem signedValue_encodeSigned (number : Int) : signedValue (encodeSigned number) = number := by
  induction number using encodeSigned.induct with
  | case1 number small =>
      rw [encodeSigned_of_small small, signedValue_singleton, group_ofNat]
      split <;> omega
  | case2 number large ih =>
      rw [encodeSigned_of_large large, signedValue_cons _ (terminated_encodeSigned _).ne_nil, ih,
        group_ofNat]
      omega

theorem length_encodeSigned_le {number : Int} {groups : Nat} (low : -(64 * 128 ^ groups) ≤ number)
    (high : number < 64 * 128 ^ groups) : (encodeSigned number).length ≤ groups + 1 := by
  induction groups generalizing number with
  | zero =>
      rw [encodeSigned_of_small (by omega)]
      exact Nat.le_refl 1
  | succ groups ih =>
      by_cases small : -64 ≤ number ∧ number < 64
      · rw [encodeSigned_of_small small]
        exact Nat.le_add_left 1 (groups + 1)
      · rw [pow_succ] at low high
        rw [encodeSigned_of_large small, List.length_cons]
        exact Nat.succ_le_succ (ih (by omega) (by omega))

theorem isShortest_encodeSigned (number : Int) :
    IsShortest signedValue number (encodeSigned number) where
  terminated := terminated_encodeSigned number
  value_eq := signedValue_encodeSigned number
  others_longer other terminated same different := by
    obtain ⟨groups, length⟩ := Nat.exists_eq_add_of_le' terminated.length_pos
    obtain ⟨low, high⟩ := signedValue_bounds length
    rw [same] at low high
    refine Nat.lt_of_le_of_ne (length ▸ length_encodeSigned_le low high) fun lengths => different ?_
    exact terminated.eq_of_signedValue (terminated_encodeSigned number) lengths.symm
      (same.trans (signedValue_encodeSigned number).symm)

theorem signed_encodeSigned (value : Int64) (after : List UInt8) :
    signed (encodeSigned value.toInt ++ after) = ⟨.ok value, (encodeSigned value.toInt).length⟩ := by
  have number := signedValue_encodeSigned value.toInt
  have padded := isSignGroup_of_inRange (number.symm ▸ value.le_toInt) (number.symm ▸ value.toInt_lt)
  rw [signed_padded (terminated_encodeSigned _) padded, number, Int64.ofInt_toInt]

end Dwarf.Leb128
