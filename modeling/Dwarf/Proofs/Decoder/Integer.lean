import Dwarf.Proofs.Decoder.Composition
import Dwarf.Proofs.Leb128

/-!
# Integers and their byte strings

Each primitive read of an integer recognizes the byte string that stores it: the digits of a word
of fixed width in the byte order of the cursor, and the shortest groups of a variable-length
integer.
-/

namespace Dwarf

namespace ByteOrder

theorem littleDigits_length (count number : Nat) :
    (littleDigits count number).length = count := by
  induction count generalizing number with
  | zero => rfl
  | succ count ih => rw [littleDigits, List.length_cons, ih]

theorem digits_length (order : ByteOrder) (count number : Nat) :
    (order.digits count number).length = count := by
  cases order with
  | little => exact littleDigits_length count number
  | big => exact (List.length_reverse ..).trans (littleDigits_length count number)

theorem littleValue_littleDigits {count number : Nat} (fits : number < 256 ^ count) :
    littleValue (littleDigits count number) = number := by
  induction count generalizing number with
  | zero =>
      rw [Nat.pow_zero] at fits
      rw [littleDigits, littleValue, Nat.lt_one_iff.mp fits]
  | succ count ih =>
      rw [Nat.pow_succ] at fits
      rw [littleDigits, littleValue, ih (Nat.div_lt_of_lt_mul (by omega)), UInt8.toNat_ofNat']
      omega

theorem littleValue_lt (bytes : List UInt8) :
    littleValue bytes < 2 ^ (8 * bytes.length) := by
  induction bytes with
  | nil => exact Nat.one_pos
  | cons byte rest ih =>
      have digit : byte.toNat < 256 := byte.toNat_lt
      rw [List.length_cons, Nat.mul_succ, Nat.pow_add, littleValue]
      omega

theorem value_lt (order : ByteOrder) (bytes : List UInt8) :
    order.value bytes < 2 ^ (8 * bytes.length) := by
  cases order with
  | little => exact littleValue_lt bytes
  | big =>
      have length : bytes.reverse.length = bytes.length := List.length_reverse
      exact length ▸ littleValue_lt bytes.reverse

theorem value_digits (order : ByteOrder) {count number : Nat} (fits : number < 256 ^ count) :
    order.value (order.digits count number) = number := by
  cases order with
  | little => exact littleValue_littleDigits fits
  | big =>
      rw [value, digits, List.reverse_reverse]
      exact littleValue_littleDigits fits

end ByteOrder

namespace Decoder

variable {α : Type} {encoding : Encoding}

/-! ## Fixed width -/

theorem recognizes_bytes (stored : List UInt8) :
    (Decoder.bytes stored.length).Recognizes encoding stored stored := by
  intro cursor after _ rest
  have fits := Cursor.fits_of_rest rest
  refine ⟨fits, ?_, ?_⟩
  · simp only [Decoder.bytes, fits, dite_true, rest, List.take_left]
  · simp only [Decoder.bytes, fits, dite_true]

/-- Whatever is asked of the cursor, its byte order, is the byte order of the encoding. -/
theorem recognizes_fixed {stored : List UInt8} {count : Nat} (positive : 0 < count)
    (length : stored.length = count) :
    (fixed count positive).read.Recognizes encoding stored (encoding.order.value stored) := by
  have pick : (Decoder.bind Decoder.cursor fun cursor =>
      Decoder.pure (cursor.order.value stored)).Recognizes encoding []
        (encoding.order.value stored) := by
    intro cursor _ under _
    rw [← under.order_eq]
    exact ⟨Nat.zero_le _, rfl, rfl⟩
  subst length
  have both : (Decoder.bind (Decoder.bytes stored.length) fun stored =>
      Decoder.bind Decoder.cursor fun cursor =>
        Decoder.pure (cursor.order.value stored)).Recognizes encoding (stored ++ [])
          (encoding.order.value stored) := (recognizes_bytes stored).bind pick
  rw [List.append_nil] at both
  exact both

theorem recognizes_digits {count number : Nat} (positive : 0 < count)
    (fits : number < 256 ^ count) (f : Nat → α) :
    ((fixed count positive).map f).read.Recognizes encoding (encoding.order.digits count number)
      (f number) := by
  have stored := @recognizes_fixed encoding _ _ positive (encoding.order.digits_length count number)
  rw [encoding.order.value_digits fits] at stored
  exact stored.map f

theorem recognizes_uint8 (byte : UInt8) : uint8.read.Recognizes encoding [byte] byte := by
  have digit : encoding.order.digits 1 byte.toNat = [byte] := by
    cases encoding.order <;> simp [ByteOrder.digits, ByteOrder.littleDigits]
  have read := @recognizes_digits _ encoding 1 _ (by decide) byte.toNat_lt UInt8.ofNat
  rw [digit, UInt8.ofNat_toNat] at read
  exact read

theorem Recognizes.of_uint8 {bytes : List UInt8} {byte : UInt8}
    (recognizes : uint8.read.Recognizes encoding bytes byte) : bytes = [byte] := by
  cases bytes with
  | nil => exact absurd rfl recognizes.ne_nil
  | cons first rest =>
      obtain ⟨single, same, _⟩ :=
        recognizes.unique (recognizes_uint8 first) (List.append_nil (first :: rest))
      rw [single, same]

theorem recognizes_uint16 (word : UInt16) :
    uint16.read.Recognizes encoding (encoding.order.digits 2 word.toNat) word := by
  have read := @recognizes_digits _ encoding 2 _ (by decide) word.toNat_lt UInt16.ofNat
  rw [UInt16.ofNat_toNat] at read
  exact read

theorem recognizes_uint32 (word : UInt32) :
    uint32.read.Recognizes encoding (encoding.order.digits 4 word.toNat) word := by
  have read := @recognizes_digits _ encoding 4 _ (by decide) word.toNat_lt UInt32.ofNat
  rw [UInt32.ofNat_toNat] at read
  exact read

theorem recognizes_uint64 (word : UInt64) :
    uint64.read.Recognizes encoding (encoding.order.digits 8 word.toNat) word := by
  have read := @recognizes_digits _ encoding 8 _ (by decide) word.toNat_lt UInt64.ofNat
  rw [UInt64.ofNat_toNat] at read
  exact read

/-- A word is recognized from its digits in every width that is read and that it fits. -/
theorem recognizes_sized {width : Nat} (possible : width ∈ [1, 2, 4, 8]) {word : UInt64}
    (fits : word.toNat < 256 ^ width) :
    (sized width).read.Recognizes encoding (encoding.order.digits width word.toNat) word := by
  simp only [List.mem_cons, List.not_mem_nil, or_false] at possible
  rcases possible with rfl | rfl | rfl | rfl
  · have widened : (UInt8.ofNat word.toNat).toUInt64 = word := by
      rw [← UInt64.toNat_inj, UInt8.toNat_toUInt64, UInt8.toNat_ofNat']
      exact Nat.mod_eq_of_lt fits
    have read := (@recognizes_digits _ encoding 1 _ (by decide) fits UInt8.ofNat).map UInt8.toUInt64
    rw [widened] at read
    exact read
  · have widened : (UInt16.ofNat word.toNat).toUInt64 = word := by
      rw [← UInt64.toNat_inj, UInt16.toNat_toUInt64, UInt16.toNat_ofNat']
      exact Nat.mod_eq_of_lt fits
    have read :=
      (@recognizes_digits _ encoding 2 _ (by decide) fits UInt16.ofNat).map UInt16.toUInt64
    rw [widened] at read
    exact read
  · have widened : (UInt32.ofNat word.toNat).toUInt64 = word := by
      rw [← UInt64.toNat_inj, UInt32.toNat_toUInt64, UInt32.toNat_ofNat']
      exact Nat.mod_eq_of_lt fits
    have read :=
      (@recognizes_digits _ encoding 4 _ (by decide) fits UInt32.ofNat).map UInt32.toUInt64
    rw [widened] at read
    exact read
  · exact recognizes_uint64 word

theorem recognizes_address (possible : encoding.addressSize ∈ [1, 2, 4, 8]) {word : UInt64}
    (fits : word.toNat < 256 ^ encoding.addressSize) :
    address.read.Recognizes encoding (encoding.order.digits encoding.addressSize word.toNat)
      word := by
  intro cursor after under rest
  have read := @recognizes_sized encoding _ possible _ fits cursor after under rest
  rw [← under.addressSize_eq] at read ⊢
  exact read

theorem recognizes_sectionOffset (possible : encoding.offsetSize ∈ [1, 2, 4, 8]) {word : UInt64}
    (fits : word.toNat < 256 ^ encoding.offsetSize) :
    sectionOffset.read.Recognizes encoding (encoding.order.digits encoding.offsetSize word.toNat)
      word := by
  intro cursor after under rest
  have read := @recognizes_sized encoding _ possible _ fits cursor after under rest
  rw [← under.offsetSize_eq] at read ⊢
  exact read

/-! ## Variable width -/

theorem consumes_leb128_iff {scan : List UInt8 → Leb128.Scan α}
    (used_le : ∀ bytes, (scan bytes).used ≤ bytes.length)
    (used_pos : ∀ {bytes value}, (scan bytes).result = .ok value → 0 < (scan bytes).used)
    {bytes : List UInt8} {value : α} :
    (leb128 scan used_le used_pos).read.Consumes encoding bytes value ↔
      scan bytes = ⟨.ok value, bytes.length⟩ := by
  have within := used_le bytes
  constructor
  · rintro ⟨read, ended⟩
    change (scan bytes).result.mapError _ = .ok value at read
    have all : bytes.length ≤ 0 + (scan bytes).used := decide_eq_true_eq.mp ended
    rcases scanned : scan bytes with ⟨result, used⟩
    rw [scanned] at read within all
    dsimp only at within all
    have used_eq : used = bytes.length := by omega
    cases result with
    | error fault => cases read
    | ok found => rw [Except.ok.inj read, used_eq]
  · intro scanned
    refine ⟨?_, ?_⟩
    · change (scan bytes).result.mapError _ = .ok value
      rw [scanned]
      rfl
    · change decide (bytes.length ≤ 0 + (scan bytes).used) = true
      rw [scanned]
      simp

theorem recognizes_unsigned_iff {bytes : List UInt8} {value : UInt64} :
    unsigned.read.Recognizes encoding bytes value ↔
      Leb128.unsigned bytes = ⟨.ok value, bytes.length⟩ :=
  ⟨fun recognizes => (consumes_leb128_iff _ _).mp recognizes.consumes,
    fun scanned => ((consumes_leb128_iff _ _).mpr scanned).recognizes local_unsigned⟩

theorem recognizes_unsigned (value : UInt64) :
    unsigned.read.Recognizes encoding (Leb128.encode value.toNat) value := by
  rw [recognizes_unsigned_iff]
  simpa using Leb128.unsigned_encode value []

theorem recognizes_signed_iff {bytes : List UInt8} {value : Int64} :
    signed.read.Recognizes encoding bytes value ↔
      Leb128.signed bytes = ⟨.ok value, bytes.length⟩ :=
  ⟨fun recognizes => (consumes_leb128_iff _ _).mp recognizes.consumes,
    fun scanned => ((consumes_leb128_iff _ _).mpr scanned).recognizes local_signed⟩

theorem recognizes_signed (value : Int64) :
    signed.read.Recognizes encoding (Leb128.encodeSigned value.toInt) value := by
  rw [recognizes_signed_iff]
  simpa using Leb128.signed_encodeSigned value []

end Decoder

end Dwarf
