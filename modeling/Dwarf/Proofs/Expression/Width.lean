import Mathlib.Algebra.Group.Nat.Defs
import Dwarf.Expression.Arithmetic
import Dwarf.Word

/-!
# Arithmetic of bit-vectors in words

A bit-vector of the width of an address is kept in a word whose upper bits are zero.  Truncating a
result and extending signs beforehand make the operators on words act as the operators on
bit-vectors of that width: sums and products wrap, division is signed and truncates toward zero,
and a shift by the width or more leaves nothing but, if it is arithmetic, copies of the sign.
-/

namespace Dwarf

/-- A bit-vector as a word. -/
def Word.ofBits {width : Nat} (bits : BitVec width) : UInt64 :=
  ⟨bits.setWidth 64⟩

theorem largestAddress_toNat (addressSize : Nat) :
    (largestAddress addressSize).toNat = 2 ^ (8 * min addressSize 8) - 1 := by
  unfold largestAddress
  split
  next large => rw [Nat.min_eq_right large]; rfl
  next small =>
    have fits : 8 * addressSize ≤ 64 := by omega
    have bound := Nat.pow_le_pow_right (Nat.succ_pos 1) fits
    rw [Nat.min_eq_left (by omega), UInt64.toNat_ofNat', Nat.one_shiftLeft]
    exact Nat.mod_eq_of_lt (Nat.lt_of_lt_of_le (Nat.sub_lt (Nat.two_pow_pos _) Nat.one_pos) bound)

theorem and_largestAddress (word : UInt64) (addressSize : Nat) :
    (word &&& largestAddress addressSize).toNat = word.toNat % 2 ^ (8 * min addressSize 8) := by
  rw [UInt64.toNat_and, largestAddress_toNat, Nat.and_two_pow_sub_one_eq_mod]

namespace Encoding

/-- The width of an address in bits. -/
abbrev width (encoding : Encoding) : Nat :=
  8 * encoding.addressSize

/-- An address has between one byte and eight. -/
structure Sized (encoding : Encoding) : Prop where
  positive : 1 ≤ encoding.addressSize
  fits : encoding.addressSize ≤ 8

variable {encoding : Encoding}

theorem Sized.width_le (sized : encoding.Sized) : encoding.width ≤ 64 := by
  exact Nat.mul_le_mul_left 8 sized.fits

theorem Sized.literals_fit (sized : encoding.Sized) : 32 ≤ 2 ^ encoding.width := by
  have byte : 2 ^ 8 ≤ 2 ^ encoding.width :=
    Nat.pow_le_pow_right (by decide) (Nat.mul_le_mul_left 8 sized.positive)
  exact Nat.le_trans (by decide) byte

theorem Sized.addressBits_eq (sized : encoding.Sized) : encoding.addressBits = encoding.width := by
  have := sized.positive
  have := sized.fits
  simp only [addressBits, width]
  omega

theorem Sized.maxAddress_toNat (sized : encoding.Sized) :
    encoding.maxAddress.toNat = 2 ^ encoding.width - 1 := by
  rw [maxAddress, largestAddress_toNat, Nat.min_eq_left sized.fits, width]

theorem sized_of_mem (possible : encoding.addressSize ∈ [1, 2, 4, 8]) : encoding.Sized := by
  simp only [List.mem_cons, List.not_mem_nil, or_false] at possible
  constructor <;> omega

theorem Sized.and_maxAddress (sized : encoding.Sized) (word : UInt64) :
    (word &&& encoding.maxAddress).toNat = word.toNat % 2 ^ encoding.width := by
  rw [maxAddress, and_largestAddress, Nat.min_eq_left sized.fits]

end Encoding

namespace Word

variable {encoding : Encoding}

theorem toNat_ofBits {width : Nat} (fits : width ≤ 64) (bits : BitVec width) :
    (ofBits bits).toNat = bits.toNat := by
  have below : bits.toNat < 2 ^ 64 :=
    Nat.lt_of_lt_of_le bits.isLt (Nat.pow_le_pow_right (by decide) fits)
  exact (BitVec.toNat_setWidth 64 bits).trans (Nat.mod_eq_of_lt below)

theorem ofBits_toNat (sized : encoding.Sized) (bits : BitVec encoding.width) :
    (ofBits bits).toNat = bits.toNat :=
  toNat_ofBits sized.width_le bits

theorem ofBits_zero (sized : encoding.Sized) : ofBits (0 : BitVec encoding.width) = 0 := by
  rw [← UInt64.toNat_inj, ofBits_toNat sized]
  rfl

theorem ofBits_inj (sized : encoding.Sized) {x y : BitVec encoding.width} :
    ofBits x = ofBits y ↔ x = y := by
  rw [← UInt64.toNat_inj, ofBits_toNat sized, ofBits_toNat sized, BitVec.toNat_inj]

theorem ofBits_eq_zero (sized : encoding.Sized) {bits : BitVec encoding.width} :
    ofBits bits = 0 ↔ bits = 0 := by
  rw [← ofBits_zero sized, ofBits_inj sized]

theorem ofBits_ofNat (sized : encoding.Sized) {value : UInt64}
    (below : value.toNat < 2 ^ encoding.width) :
    ofBits (BitVec.ofNat encoding.width value.toNat) = value := by
  rw [← UInt64.toNat_inj, ofBits_toNat sized, BitVec.toNat_ofNat, Nat.mod_eq_of_lt below]

end Word

open Word

namespace Encoding

variable {encoding : Encoding}

theorem truncate_eq (sized : encoding.Sized) (value : UInt64) :
    encoding.truncate value = ofBits (value.toBitVec.setWidth encoding.width) := by
  rw [← UInt64.toNat_inj, ofBits_toNat sized, truncate, sized.and_maxAddress,
    BitVec.toNat_setWidth, UInt64.toNat_toBitVec]

theorem truncate_ofBits (sized : encoding.Sized) {value : UInt64} {bits : BitVec encoding.width}
    (low : value.toBitVec.setWidth encoding.width = bits) : encoding.truncate value = ofBits bits :=
  low ▸ truncate_eq sized value

theorem setWidth_ofBits (sized : encoding.Sized) (bits : BitVec encoding.width) :
    (ofBits bits).toBitVec.setWidth encoding.width = bits := by
  rw [ofBits, BitVec.setWidth_setWidth_of_le _ sized.width_le, BitVec.setWidth_eq]

theorem truncate_add_truncate (sized : encoding.Sized) (value addend : UInt64) :
    encoding.truncate (value + encoding.truncate addend) = encoding.truncate (value + addend) := by
  rw [truncate_eq sized (value + addend)]
  refine truncate_ofBits sized ?_
  rw [UInt64.toBitVec_add, BitVec.setWidth_add _ _ sized.width_le, truncate_eq sized addend,
    setWidth_ofBits sized, ← BitVec.setWidth_add _ _ sized.width_le, ← UInt64.toBitVec_add]

theorem smod_ofNat {amount : Nat} (below : amount < 64) :
    (Int64.ofNat amount).toBitVec.smod 64 = BitVec.ofNat 64 amount := by
  revert amount
  decide

theorem toBitVec_shiftRight_ofNat (value : Int64) {amount : Nat} (below : amount < 64) :
    (value >>> Int64.ofNat amount).toBitVec = value.toBitVec.sshiftRight amount := by
  have small : amount % 2 ^ 64 = amount := Nat.mod_eq_of_lt (Nat.lt_trans below (by decide))
  rw [Int64.toBitVec_shiftRight, smod_ofNat below, BitVec.sshiftRight_eq', BitVec.toNat_ofNat,
    small]

theorem toBitVec_shiftLeft_ofNat (value : UInt64) {amount : Nat} (below : amount < 64) :
    (value <<< UInt64.ofNat amount).toBitVec = value.toBitVec <<< amount := by
  apply BitVec.eq_of_toNat_eq
  simp [Nat.mod_eq_of_lt below]

/-- Shifting up and down again extends the sign. -/
theorem signExtend_ofBits (sized : encoding.Sized) (bits : BitVec encoding.width) :
    (encoding.signExtend (ofBits bits)).toBitVec = bits.signExtend 64 := by
  have fits := sized.width_le
  have positive : 0 < encoding.width := Nat.mul_pos (by decide) sized.positive
  simp only [signExtend, sized.addressBits_eq]
  obtain ⟨unused, rest⟩ : ∃ unused, 64 - encoding.width = unused := ⟨_, rfl⟩
  have below : unused < 64 := by omega
  have top : unused + encoding.width - 64 = 0 := by omega
  rw [rest, toBitVec_shiftRight_ofNat _ below, UInt64.toBitVec_toInt64,
    toBitVec_shiftLeft_ofNat _ below]
  apply BitVec.eq_of_getLsbD_eq
  intro index within
  have inside : unused + index < 64 ↔ index < encoding.width := by omega
  have whole : 64 ≤ unused + encoding.width := by omega
  have word : ¬64 ≤ index := Nat.not_le_of_lt within
  rw [BitVec.getLsbD_sshiftRight, BitVec.getLsbD_signExtend]
  by_cases low : index < encoding.width
  · simp [ofBits, within, word, inside, low]
  · simp [ofBits, within, word, inside, low, whole, top, BitVec.msb]

theorem signExtend_toInt (sized : encoding.Sized) (bits : BitVec encoding.width) :
    (encoding.signExtend (ofBits bits)).toInt = bits.toInt := by
  rw [← Int64.toInt_toBitVec, signExtend_ofBits sized, BitVec.toInt_signExtend_of_le sized.width_le]

theorem setWidth_signExtend (sized : encoding.Sized) (bits : BitVec encoding.width) :
    (bits.signExtend 64).setWidth encoding.width = bits := by
  have fits := sized.width_le
  apply BitVec.eq_of_getLsbD_eq
  intro index within
  have inside : index < 64 := by omega
  rw [BitVec.getLsbD_setWidth, BitVec.getLsbD_signExtend]
  simp [within, inside]

theorem setWidth_toInt {wide narrow : Nat} (le : narrow ≤ wide) (bits : BitVec wide) :
    (bits.setWidth narrow).toInt = bits.toInt.bmod (2 ^ narrow) := by
  rw [BitVec.toInt_setWidth, BitVec.toInt_eq_toNat_bmod,
    Int.bmod_bmod_of_dvd (Nat.pow_dvd_pow 2 le)]

end Encoding

open Encoding

variable {encoding : Encoding}

/-! ## Operators on one value -/

theorem apply_abs (sized : encoding.Sized) (bits : BitVec encoding.width) :
    UnaryOp.abs.apply encoding (ofBits bits) = ofBits bits.abs := by
  refine truncate_ofBits sized ?_
  have sign : encoding.signExtend (ofBits bits) < 0 ↔ bits.msb = true := by
    rw [Int64.lt_iff_toInt_lt, signExtend_toInt sized, BitVec.msb_eq_toInt, decide_eq_true_iff]
    rfl
  dsimp only
  by_cases negative : bits.msb = true
  · rw [if_pos (sign.mpr negative), BitVec.abs, if_pos negative, Int64.toBitVec_toUInt64,
      Int64.toBitVec_neg, signExtend_ofBits sized, BitVec.setWidth_neg_of_le sized.width_le,
      setWidth_signExtend sized]
    rfl
  · rw [if_neg (mt sign.mp negative), BitVec.abs, if_neg negative, Int64.toBitVec_toUInt64,
      signExtend_ofBits sized, setWidth_signExtend sized]

theorem apply_neg (sized : encoding.Sized) (bits : BitVec encoding.width) :
    UnaryOp.neg.apply encoding (ofBits bits) = ofBits (-bits) := by
  refine truncate_ofBits sized ?_
  rw [Int64.toBitVec_toUInt64, Int64.toBitVec_neg, signExtend_ofBits sized,
    BitVec.setWidth_neg_of_le sized.width_le, setWidth_signExtend sized]

theorem apply_not (sized : encoding.Sized) (bits : BitVec encoding.width) :
    UnaryOp.not.apply encoding (ofBits bits) = ofBits (~~~bits) := by
  refine truncate_ofBits sized ?_
  rw [UInt64.toBitVec_not, BitVec.setWidth_not sized.width_le, setWidth_ofBits sized]

theorem apply_plus_constant (sized : encoding.Sized) (addend : UInt64)
    (bits : BitVec encoding.width) :
    (UnaryOp.plus addend).apply encoding (ofBits bits) =
      ofBits (bits + BitVec.ofNat encoding.width addend.toNat) := by
  refine truncate_ofBits sized ?_
  rw [UInt64.toBitVec_add, BitVec.setWidth_add _ _ sized.width_le, setWidth_ofBits sized,
    ← UInt64.toNat_toBitVec, BitVec.ofNat_toNat]

/-! ## Operators on two values -/

section Binary

variable (sized : encoding.Sized) (x y : BitVec encoding.width)
include sized

theorem apply_and :
    BinaryOp.and.apply encoding (ofBits x) (ofBits y) = some (ofBits (x &&& y)) := by
  refine congrArg some (truncate_ofBits sized ?_)
  rw [UInt64.toBitVec_and, BitVec.setWidth_and, setWidth_ofBits sized, setWidth_ofBits sized]

theorem apply_or :
    BinaryOp.or.apply encoding (ofBits x) (ofBits y) = some (ofBits (x ||| y)) := by
  refine congrArg some (truncate_ofBits sized ?_)
  rw [UInt64.toBitVec_or, BitVec.setWidth_or, setWidth_ofBits sized, setWidth_ofBits sized]

theorem apply_xor :
    BinaryOp.xor.apply encoding (ofBits x) (ofBits y) = some (ofBits (x ^^^ y)) := by
  refine congrArg some (truncate_ofBits sized ?_)
  rw [UInt64.toBitVec_xor, BitVec.setWidth_xor, setWidth_ofBits sized, setWidth_ofBits sized]

theorem apply_plus :
    BinaryOp.plus.apply encoding (ofBits x) (ofBits y) = some (ofBits (x + y)) := by
  refine congrArg some (truncate_ofBits sized ?_)
  rw [UInt64.toBitVec_add, BitVec.setWidth_add _ _ sized.width_le, setWidth_ofBits sized,
    setWidth_ofBits sized]

theorem apply_minus :
    BinaryOp.minus.apply encoding (ofBits x) (ofBits y) = some (ofBits (x - y)) := by
  refine congrArg some (truncate_ofBits sized ?_)
  rw [UInt64.toBitVec_sub, BitVec.sub_eq_add_neg, BitVec.setWidth_add _ _ sized.width_le,
    BitVec.setWidth_neg_of_le sized.width_le, setWidth_ofBits sized, setWidth_ofBits sized,
    BitVec.sub_eq_add_neg]

theorem apply_mul :
    BinaryOp.mul.apply encoding (ofBits x) (ofBits y) = some (ofBits (x * y)) := by
  refine congrArg some (truncate_ofBits sized ?_)
  rw [UInt64.toBitVec_mul, BitVec.setWidth_mul _ _ sized.width_le, setWidth_ofBits sized,
    setWidth_ofBits sized]

theorem apply_div :
    BinaryOp.div.apply encoding (ofBits x) (ofBits y) =
      if y = 0 then none else some (ofBits (x.sdiv y)) := by
  have zero : encoding.signExtend (ofBits y) = 0 ↔ y = 0 := by
    rw [← Int64.toInt_inj, signExtend_toInt sized, ← BitVec.toInt_inj, BitVec.ofNat_eq_ofNat,
      BitVec.toInt_zero]
    rfl
  simp only [BinaryOp.apply, zero]
  split
  next => rfl
  next =>
    refine congrArg some (truncate_ofBits sized (BitVec.eq_of_toInt_eq ?_))
    rw [setWidth_toInt sized.width_le, Int64.toBitVec_toUInt64, Int64.toBitVec_div, BitVec.toInt_sdiv,
      BitVec.toInt_sdiv, signExtend_ofBits sized, signExtend_ofBits sized,
      BitVec.toInt_signExtend_of_le sized.width_le, BitVec.toInt_signExtend_of_le sized.width_le,
      Int.bmod_bmod_of_dvd (Nat.pow_dvd_pow 2 sized.width_le)]

theorem apply_mod :
    BinaryOp.mod.apply encoding (ofBits x) (ofBits y) =
      if y = 0 then none else some (ofBits (x % y)) := by
  simp only [BinaryOp.apply, ofBits_eq_zero sized]
  split
  next => rfl
  next =>
    refine congrArg some (truncate_ofBits sized (BitVec.eq_of_toNat_eq ?_))
    rw [BitVec.toNat_setWidth, UInt64.toNat_toBitVec, UInt64.toNat_mod, ofBits_toNat sized,
      ofBits_toNat sized, ← BitVec.toNat_umod, Nat.mod_eq_of_lt (BitVec.isLt _)]

theorem lt_addressBits_iff :
    ofBits y < UInt64.ofNat encoding.addressBits ↔ y.toNat < encoding.width := by
  have small : encoding.width < 2 ^ 64 := Nat.lt_of_le_of_lt sized.width_le (by decide)
  rw [UInt64.lt_iff_toNat_lt, ofBits_toNat sized, sized.addressBits_eq, UInt64.toNat_ofNat',
    Nat.mod_eq_of_lt small]

theorem toNat_mod_word (inside : y.toNat < 64) : ((ofBits y).toBitVec % 64).toNat = y.toNat := by
  rw [BitVec.toNat_umod, UInt64.toNat_toBitVec, ofBits_toNat sized]
  exact Nat.mod_eq_of_lt inside

theorem apply_shl :
    BinaryOp.shl.apply encoding (ofBits x) (ofBits y) = some (ofBits (x <<< y)) := by
  have fits := sized.width_le
  refine congrArg some ?_
  simp only [BinaryOp.shifted, lt_addressBits_iff sized]
  split
  next inside =>
    refine truncate_ofBits sized ?_
    rw [UInt64.toBitVec_shiftLeft, BitVec.shiftLeft_eq', toNat_mod_word sized y (by omega),
      BitVec.setWidth_shiftLeft_of_le fits, setWidth_ofBits sized, BitVec.shiftLeft_eq']
  next outside =>
    rw [BitVec.shiftLeft_eq', BitVec.shiftLeft_eq_zero (Nat.le_of_not_lt outside)]
    exact (ofBits_zero sized).symm

theorem apply_shr :
    BinaryOp.shr.apply encoding (ofBits x) (ofBits y) = some (ofBits (x >>> y)) := by
  have fits := sized.width_le
  refine congrArg some ?_
  simp only [BinaryOp.shifted, lt_addressBits_iff sized]
  split
  next inside =>
    refine truncate_ofBits sized (BitVec.eq_of_toNat_eq ?_)
    have below : (x >>> y).toNat < 2 ^ encoding.width := BitVec.isLt _
    rw [UInt64.toBitVec_shiftRight, BitVec.toNat_setWidth, BitVec.ushiftRight_eq',
      BitVec.toNat_ushiftRight, toNat_mod_word sized y (by omega), UInt64.toNat_toBitVec,
      ofBits_toNat sized, ← BitVec.toNat_ushiftRight, ← BitVec.ushiftRight_eq',
      Nat.mod_eq_of_lt below]
  next outside =>
    rw [BitVec.ushiftRight_eq', BitVec.ushiftRight_eq_zero (Nat.le_of_not_lt outside)]
    exact (ofBits_zero sized).symm

theorem msb_signExtend : (x.signExtend 64).msb = x.msb := by
  rw [BitVec.msb_eq_toInt, BitVec.msb_eq_toInt, BitVec.toInt_signExtend_of_le sized.width_le]

theorem setWidth_sshiftRight (amount : Nat) :
    ((x.signExtend 64).sshiftRight amount).setWidth encoding.width = x.sshiftRight amount := by
  have fits := sized.width_le
  apply BitVec.eq_of_getLsbD_eq
  intro index within
  have word : ¬64 ≤ index := by omega
  have low : ¬encoding.width ≤ index := Nat.not_le_of_lt within
  rw [BitVec.getLsbD_setWidth, BitVec.getLsbD_sshiftRight, BitVec.getLsbD_sshiftRight,
    BitVec.getLsbD_signExtend]
  by_cases kept : amount + index < encoding.width
  · have inside : amount + index < 64 := by omega
    simp [within, word, low, kept, inside]
  · by_cases inside : amount + index < 64
    · simp [within, word, low, kept, inside]
    · simp [within, word, low, kept, inside, msb_signExtend sized x]

/-- Beyond the width an arithmetic shift leaves copies of the sign, however far it goes. -/
theorem sshiftRight_capped (amount : Nat) :
    x.sshiftRight (min amount 63) = x.sshiftRight amount := by
  have fits := sized.width_le
  obtain near | far := Nat.le_total amount 63
  · rw [Nat.min_eq_left near]
  · rw [Nat.min_eq_right far]
    apply BitVec.eq_of_getLsbD_eq
    intro index within
    rw [BitVec.getLsbD_sshiftRight, BitVec.getLsbD_sshiftRight, BitVec.msb_eq_getLsbD_last]
    by_cases last : 63 + index < encoding.width
    · have top : 63 + index = encoding.width - 1 := by omega
      have reached : amount + index = encoding.width - 1 ∨ ¬amount + index < encoding.width := by
        omega
      obtain same | beyond := reached
      · rw [same, top]
      · rw [if_pos last, if_neg beyond, top]
    · have beyond : ¬amount + index < encoding.width := by omega
      rw [if_neg last, if_neg beyond]

theorem shiftAmount_toInt64 :
    (if ofBits y < 63 then ofBits y else 63).toInt64 = Int64.ofNat (min y.toNat 63) := by
  have near : ofBits y < 63 ↔ y.toNat < 63 := by
    rw [UInt64.lt_iff_toNat_lt, ofBits_toNat sized]
    rfl
  by_cases small : y.toNat < 63
  · rw [if_pos (near.mpr small), Nat.min_eq_left (Nat.le_of_lt small), ← ofBits_toNat sized]
    rw [← UInt64.toInt64_ofNat', UInt64.ofNat_toNat]
  · rw [if_neg (mt near.mp small), Nat.min_eq_right (Nat.le_of_not_lt small)]
    rfl

theorem apply_shra :
    BinaryOp.shra.apply encoding (ofBits x) (ofBits y) = some (ofBits (x.sshiftRight' y)) := by
  have below : min y.toNat 63 < 64 := Nat.lt_succ_of_le (Nat.min_le_right _ _)
  refine congrArg some (truncate_ofBits sized ?_)
  rw [shiftAmount_toInt64 sized, Int64.toBitVec_toUInt64, toBitVec_shiftRight_ofNat _ below,
    signExtend_ofBits sized, setWidth_sshiftRight sized x, sshiftRight_capped sized,
    BitVec.sshiftRight_eq']

/-! ## Comparisons -/

theorem truth_eq (holds : Bool) :
    BinaryOp.truth holds = ofBits (if holds then 1 else 0 : BitVec encoding.width) := by
  cases holds with
  | false => exact (ofBits_zero sized).symm
  | true =>
      have wide : 1 < 2 ^ encoding.width :=
        Nat.one_lt_two_pow (Nat.mul_ne_zero (by decide) (Nat.ne_of_gt sized.positive))
      rw [← UInt64.toNat_inj]
      exact ((ofBits_toNat sized 1).trans (Nat.mod_eq_of_lt wide)).symm

theorem signExtend_beq :
    (encoding.signExtend (ofBits x) == encoding.signExtend (ofBits y)) = (x == y) := by
  rw [Bool.eq_iff_iff, beq_iff_eq, beq_iff_eq, ← Int64.toInt_inj, signExtend_toInt sized,
    signExtend_toInt sized, BitVec.toInt_inj]

theorem apply_eq :
    BinaryOp.eq.apply encoding (ofBits x) (ofBits y) = some (BinaryOp.truth (x == y)) :=
  congrArg (fun holds => some (BinaryOp.truth holds)) (signExtend_beq sized x y)

theorem apply_ne :
    BinaryOp.ne.apply encoding (ofBits x) (ofBits y) = some (BinaryOp.truth (x != y)) :=
  congrArg (fun holds => some (BinaryOp.truth !holds)) (signExtend_beq sized x y)

theorem apply_lt :
    BinaryOp.lt.apply encoding (ofBits x) (ofBits y) = some (BinaryOp.truth (x.slt y)) := by
  refine congrArg (fun holds => some (BinaryOp.truth holds)) ?_
  rw [BitVec.slt, decide_eq_decide, Int64.lt_iff_toInt_lt, signExtend_toInt sized,
    signExtend_toInt sized]

theorem apply_le :
    BinaryOp.le.apply encoding (ofBits x) (ofBits y) = some (BinaryOp.truth (x.sle y)) := by
  refine congrArg (fun holds => some (BinaryOp.truth holds)) ?_
  rw [BitVec.sle, decide_eq_decide, Int64.le_iff_toInt_le, signExtend_toInt sized,
    signExtend_toInt sized]

theorem apply_gt :
    BinaryOp.gt.apply encoding (ofBits x) (ofBits y) = some (BinaryOp.truth (y.slt x)) :=
  apply_lt sized y x

theorem apply_ge :
    BinaryOp.ge.apply encoding (ofBits x) (ofBits y) = some (BinaryOp.truth (y.sle x)) :=
  apply_le sized y x

end Binary

end Dwarf
