import Mathlib.Data.List.Basic
import Mathlib.Tactic.SplitIfs
import Dwarf.Text.Utf8

/-!
# Well-formed text

What is well-formed UTF-8 is decoded as the text that it encodes, and no byte of it is zero unless
the text contains the zero character.  The cases are the four lengths of an encoded character.
-/

namespace Dwarf.Utf8

/-! ## Lead bytes -/

theorem lead_one {number : Nat} (small : number < 0x80) :
    lead (UInt8.ofNat number) = .complete (Char.ofNat number) := by
  have bytewise : ∀ number : Fin 0x80,
      lead (UInt8.ofNat number.val) = .complete (Char.ofNat number.val) := by
    decide +kernel
  exact bytewise ⟨number, small⟩

theorem lead_two {number : Nat} (low : 0xc2 ≤ number) (high : number < 0xe0) :
    lead (UInt8.ofNat number) = .opens ⟨number % 0x20, 1, 0x80, 0xbf⟩ := by
  have bytewise : ∀ number : Fin 0x100, 0xc2 ≤ number.val → number.val < 0xe0 →
      lead (UInt8.ofNat number.val) = .opens ⟨number.val % 0x20, 1, 0x80, 0xbf⟩ := by
    decide +kernel
  exact bytewise ⟨number, by omega⟩ low high

theorem lead_three {number : Nat} (low : 0xe0 ≤ number) (high : number < 0xf0) :
    lead (UInt8.ofNat number) =
      .opens ⟨number % 0x10, 2, if number = 0xe0 then 0xa0 else 0x80,
        if number = 0xed then 0x9f else 0xbf⟩ := by
  have bytewise : ∀ number : Fin 0x100, 0xe0 ≤ number.val → number.val < 0xf0 →
      lead (UInt8.ofNat number.val) =
        .opens ⟨number.val % 0x10, 2, if number.val = 0xe0 then 0xa0 else 0x80,
          if number.val = 0xed then 0x9f else 0xbf⟩ := by
    decide +kernel
  exact bytewise ⟨number, by omega⟩ low high

theorem lead_four {number : Nat} (low : 0xf0 ≤ number) (high : number < 0xf5) :
    lead (UInt8.ofNat number) =
      .opens ⟨number % 0x8, 3, if number = 0xf0 then 0x90 else 0x80,
        if number = 0xf4 then 0x8f else 0xbf⟩ := by
  have bytewise : ∀ number : Fin 0x100, 0xf0 ≤ number.val → number.val < 0xf5 →
      lead (UInt8.ofNat number.val) =
        .opens ⟨number.val % 0x8, 3, if number.val = 0xf0 then 0x90 else 0x80,
          if number.val = 0xf4 then 0x8f else 0xbf⟩ := by
    decide +kernel
  exact bytewise ⟨number, by omega⟩ low high

/-! ## Continuation bytes -/

/-- The byte that carries six bits of a character. -/
def continuation (bits : Nat) : UInt8 :=
  UInt8.ofNat (bits % 64 + 128)

theorem continuation_toNat (bits : Nat) : (continuation bits).toNat = bits % 64 + 128 := by
  rw [continuation, UInt8.toNat_ofNat']
  omega

theorem continued_last {bits : Nat} {low high : UInt8} {more : Nat} (rest : List UInt8)
    (above : low.toNat ≤ more % 64 + 128) (below : more % 64 + 128 ≤ high.toNat) :
    continued ⟨bits, 1, low, high⟩ (continuation more :: rest) =
      Char.ofNat (bits * 64 + more % 64) :: characters rest := by
  rw [← continuation_toNat] at above below
  have sixBits : (continuation more).toNat % 64 = more % 64 := by
    rw [continuation_toNat]
    omega
  rw [continued, if_pos ⟨UInt8.le_iff_toNat_le.mpr above, UInt8.le_iff_toNat_le.mpr below⟩,
    Partial.extend, sixBits]
  rfl

theorem continued_more {bits missing : Nat} {low high : UInt8} {more : Nat} (rest : List UInt8)
    (above : low.toNat ≤ more % 64 + 128) (below : more % 64 + 128 ≤ high.toNat) :
    continued ⟨bits, missing + 2, low, high⟩ (continuation more :: rest) =
      continued ⟨bits * 64 + more % 64, missing + 1, 0x80, 0xbf⟩ rest := by
  rw [← continuation_toNat] at above below
  have sixBits : (continuation more).toNat % 64 = more % 64 := by
    rw [continuation_toNat]
    omega
  rw [continued, if_pos ⟨UInt8.le_iff_toNat_le.mpr above, UInt8.le_iff_toNat_le.mpr below⟩,
    Partial.extend, sixBits]
  rfl

/-! ## Characters -/

theorem characters_complete {byte : UInt8} {char : Char} (leads : lead byte = .complete char)
    (rest : List UInt8) : characters (byte :: rest) = char :: characters rest := by
  rw [characters, leads]

theorem characters_opens {byte : UInt8} {state : Partial} (leads : lead byte = .opens state)
    (rest : List UInt8) : characters (byte :: rest) = continued state rest := by
  rw [characters, leads]

theorem characters_two {number : Nat} (low : 0x80 ≤ number) (high : number < 0x800)
    (rest : List UInt8) :
    characters (UInt8.ofNat (number / 64 % 32 + 192) :: continuation number :: rest) =
      Char.ofNat number :: characters rest := by
  rw [characters_opens (lead_two (by omega) (by omega)),
    continued_last rest (by simp) (by simp; omega)]
  congr 2
  omega

/-- A number of three bytes.  The second byte tells it from longer forms and from surrogates. -/
theorem characters_three {number : Nat} (low : 0x800 ≤ number) (high : number < 0x10000)
    (valid : number < 0xd800 ∨ 0xdfff < number) (rest : List UInt8) :
    characters (UInt8.ofNat (number / 4096 % 16 + 224) :: continuation (number / 64) ::
        continuation number :: rest) =
      Char.ofNat number :: characters rest := by
  have second_low : (if number / 4096 % 16 + 224 = 0xe0 then (0xa0 : UInt8) else 0x80).toNat ≤
      number / 64 % 64 + 128 := by
    split_ifs
    · change 0xa0 ≤ _
      omega
    · exact Nat.le_add_left 128 _
  have second_high : number / 64 % 64 + 128 ≤
      (if number / 4096 % 16 + 224 = 0xed then (0x9f : UInt8) else 0xbf).toNat := by
    split_ifs
    · change _ ≤ 0x9f
      omega
    · change _ ≤ 0xbf
      omega
  rw [characters_opens (lead_three (by omega) (by omega)), continued_more _ second_low second_high,
    continued_last rest (by simp) (by simp; omega)]
  congr 2
  omega

/-- A number of four bytes.  The second byte tells it from longer forms and from numbers above
those of characters. -/
theorem characters_four {number : Nat} (low : 0x10000 ≤ number) (high : number < 0x110000)
    (rest : List UInt8) :
    characters (UInt8.ofNat (number / 262144 % 8 + 240) :: continuation (number / 4096) ::
        continuation (number / 64) :: continuation number :: rest) =
      Char.ofNat number :: characters rest := by
  have second_low : (if number / 262144 % 8 + 240 = 0xf0 then (0x90 : UInt8) else 0x80).toNat ≤
      number / 4096 % 64 + 128 := by
    split_ifs
    · change 0x90 ≤ _
      omega
    · exact Nat.le_add_left 128 _
  have second_high : number / 4096 % 64 + 128 ≤
      (if number / 262144 % 8 + 240 = 0xf4 then (0x8f : UInt8) else 0xbf).toNat := by
    split_ifs
    · change _ ≤ 0x8f
      omega
    · change _ ≤ 0xbf
      omega
  rw [characters_opens (lead_four (by omega) (by omega)), continued_more _ second_low second_high,
    continued_more _ (by simp) (by simp; omega),
    continued_last rest (by simp) (by simp; omega)]
  congr 2
  omega

/-- An encoded character is decoded, whatever comes behind it. -/
theorem characters_encodeChar (char : Char) (rest : List UInt8) :
    characters (String.utf8EncodeChar char ++ rest) = char :: characters rest := by
  have valid : char.val.toNat < 0xd800 ∨ 0xdfff < char.val.toNat ∧ char.val.toNat < 0x110000 :=
    char.valid
  have same : Char.ofNat char.val.toNat = char := Char.ofNat_toNat char
  unfold String.utf8EncodeChar
  dsimp only
  split_ifs with one two three
  · exact (characters_complete (lead_one (by omega)) rest).trans (by rw [same])
  · exact (characters_two (by omega) (by omega) rest).trans (by rw [same])
  · exact (characters_three (by omega) (by omega) (valid.imp_right And.left) rest).trans
      (by rw [same])
  · exact (characters_four (by omega) (by omega) rest).trans (by rw [same])

theorem characters_encode (text : List Char) :
    characters (text.flatMap String.utf8EncodeChar) = text := by
  induction text with
  | nil => rfl
  | cons char text ih => rw [List.flatMap_cons, characters_encodeChar, ih]

/-! ## Strings -/

/-- The bytes of a string. -/
def encode (text : String) : List UInt8 :=
  text.toUTF8.data.toList

theorem encode_eq (text : String) : encode text = text.toList.flatMap String.utf8EncodeChar := by
  rw [encode, String.toUTF8, ← String.utf8Encode_toList, List.utf8Encode,
    List.toList_data_toByteArray]

theorem decode_encode (text : String) : decode (encode text) = text := by
  rw [decode, encode_eq, characters_encode, String.ofList_toList]

theorem ofNat_ne_zero {number : Nat} (positive : 0 < number) (small : number < 256) :
    UInt8.ofNat number ≠ 0 := by
  intro zero
  have value := congrArg UInt8.toNat zero
  rw [UInt8.toNat_ofNat', UInt8.toNat_zero] at value
  omega

theorem zero_not_mem_encodeChar {char : Char} (nonzero : char ≠ '\x00') :
    ∀ byte ∈ String.utf8EncodeChar char, byte ≠ 0 := by
  have positive : 0 < char.val.toNat := by
    refine Nat.pos_of_ne_zero fun zero => nonzero ?_
    rw [← Char.ofNat_toNat char, Char.toNat, zero]
  have above {bits base : Nat} (high : 128 ≤ base) (low : bits + base < 256) :
      UInt8.ofNat (bits + base) ≠ 0 := ofNat_ne_zero (by omega) low
  unfold String.utf8EncodeChar
  dsimp only
  split_ifs with one two three
  · simp only [List.forall_mem_singleton]
    exact ofNat_ne_zero positive (by omega)
  · simp only [List.forall_mem_cons, List.not_mem_nil, false_imp_iff, implies_true, and_true]
    exact ⟨above (by decide) (by omega), above (by decide) (by omega)⟩
  · simp only [List.forall_mem_cons, List.not_mem_nil, false_imp_iff, implies_true, and_true]
    exact ⟨above (by decide) (by omega), above (by decide) (by omega),
      above (by decide) (by omega)⟩
  · simp only [List.forall_mem_cons, List.not_mem_nil, false_imp_iff, implies_true, and_true]
    exact ⟨above (by decide) (by omega), above (by decide) (by omega),
      above (by decide) (by omega), above (by decide) (by omega)⟩

theorem zero_not_mem_encode {text : String} (terminated : '\x00' ∉ text.toList) :
    ∀ byte ∈ encode text, byte ≠ 0 := by
  intro byte member
  rw [encode_eq, List.mem_flatMap] at member
  obtain ⟨char, listed, stored⟩ := member
  exact zero_not_mem_encodeChar (fun zero => terminated (zero ▸ listed)) byte stored

/-! ## Nothing is lost altogether -/

theorem continued_ne_nil (state : Partial) (bytes : List UInt8) : continued state bytes ≠ [] := by
  induction bytes generalizing state with
  | nil => exact List.cons_ne_nil _ _
  | cons byte rest ih =>
      rw [continued]
      split
      · split
        · exact List.cons_ne_nil _ _
        · exact ih _
        · exact List.cons_ne_nil _ _
      · split <;> exact List.cons_ne_nil _ _

/-- Some bytes have some text. -/
theorem decode_ne_empty {bytes : List UInt8} (some_bytes : bytes ≠ []) : decode bytes ≠ "" := by
  have some_characters : characters bytes ≠ [] := by
    cases bytes with
    | nil => exact absurd rfl some_bytes
    | cons byte rest =>
        rw [characters]
        split
        · exact List.cons_ne_nil _ _
        · exact continued_ne_nil _ rest
        · exact List.cons_ne_nil _ _
  intro empty
  have no_characters := String.toList_eq_nil_iff.mpr empty
  rw [decode, String.toList_ofList] at no_characters
  exact some_characters no_characters

end Dwarf.Utf8
