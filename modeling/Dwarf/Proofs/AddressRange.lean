import Dwarf.Proofs.AddressList

/-!
# The addresses of an entry

An entry says which addresses it covers by the first of them and their number, or by a list of
intervals that are relative to a base.  Both ways mean the same addresses, except for an interval
that reaches the end of an address space narrower than a word: what follows its last address is
stored as zero, and the list then covers nothing.
-/

namespace Dwarf

namespace Entry

/-- The entry gives its first address and, as a constant, the number of its addresses. -/
structure Measures (entry : Entry) (low length : UInt64) : Prop where
  unlisted : (entry.value? .ranges).bind AttributeValue.sectionOffset? = none
  low_eq : (entry.value? .lowPc).bind AttributeValue.address? = some low
  length_eq : ∃ value, entry.value? .highPc = some value ∧ value.unsigned? = some length

/-- The entry names the list at an offset of the range section. -/
def Names (entry : Entry) (offset : Nat) : Prop :=
  ∃ stored, (entry.value? .ranges).bind AttributeValue.sectionOffset? = some stored ∧
    stored.toNat = offset

end Entry

theorem LocationExpression.decode_nil (encoding : Encoding) :
    decode [] encoding = .ok ⟨[], [], encoding⟩ := by
  have operations : Operation.decodeAll [] encoding = .ok [] := (Decoder.Reads.done rfl).many
  rw [decode, operations]
  rfl

namespace AddressRange

/-- One of some intervals contains an address. -/
def Covers (ranges : List AddressRange) (pc : UInt64) : Prop :=
  ∃ range ∈ ranges, range.contains pc = true

variable {entry : Entry} {data : List UInt8} {encoding : Encoding} {low length base : UInt64}

theorem ofEntry_of_measures (measures : entry.Measures low length) :
    ofEntry entry data encoding base = .ok (ofBounds low (low + length)) := by
  obtain ⟨value, high, constant⟩ := measures.length_eq
  unfold ofEntry
  rw [measures.unlisted, measures.low_eq, high]
  cases value with
  | address => cases constant
  | _ =>
      dsimp only
      rw [constant]

theorem ofEntry_of_names {offset : Nat} (names : entry.Names offset) :
    ofEntry entry data encoding base = decodeList data offset encoding base := by
  obtain ⟨stored, found, rfl⟩ := names
  unfold ofEntry
  rw [found]

/-! ## One interval -/

theorem contains_iff {range : AddressRange} {pc : UInt64} :
    range.contains pc = true ↔ range.low.toNat ≤ pc.toNat ∧ pc.toNat < range.high.toNat := by
  simp only [contains, Bool.and_eq_true, decide_eq_true_eq, UInt64.le_iff_toNat_le,
    UInt64.lt_iff_toNat_lt]

theorem covers_singleton {range : AddressRange} {pc : UInt64} :
    Covers [range] pc ↔ range.contains pc = true := by
  constructor
  · rintro ⟨other, member, contains⟩
    rwa [List.mem_singleton.mp member] at contains
  · intro contains
    exact ⟨range, List.mem_singleton.mpr rfl, contains⟩

theorem covers_ofBounds {high pc : UInt64} :
    Covers (ofBounds low high) pc ↔ low.toNat ≤ pc.toNat ∧ pc.toNat < high.toNat := by
  unfold ofBounds
  by_cases ascending : low < high
  · rw [if_pos ascending, covers_singleton, contains_iff]
  · rw [if_neg ascending]
    rw [UInt64.lt_iff_toNat_lt] at ascending
    constructor
    · rintro ⟨_, member, _⟩
      cases member
    · rintro ⟨above, below⟩
      omega

/-- An interval given by its length covers its addresses, unless it reaches the end of the word. -/
theorem covers_measured (fits : low.toNat + length.toNat ≤ 2 ^ 64) {pc : UInt64} :
    Covers (ofBounds low (low + length)) pc ↔
      low.toNat ≤ pc.toNat ∧ pc.toNat < low.toNat + length.toNat ∧
        low.toNat + length.toNat < 2 ^ 64 := by
  rw [covers_ofBounds, UInt64.toNat_add]
  rcases Nat.lt_or_eq_of_le fits with inside | atEnd
  · rw [Nat.mod_eq_of_lt inside]
    simp only [inside, and_true]
  · rw [atEnd, Nat.mod_self]
    simp only [Nat.not_lt_zero, Nat.lt_irrefl, and_false]

/-! ## Both ways -/

section

variable (possible : encoding.addressSize ∈ [1, 2, 4, 8]) (above : base ≤ low)
  (fits : low.toNat + length.toNat ≤ 2 ^ encoding.width)
include possible above fits

/-- An interval relative to a base covers its addresses, unless it reaches the end of the address
space. -/
theorem covers_listed (positive : 0 < length) (expression : LocationExpression) {pc : UInt64} :
    Covers [BasedInterval.range ⟨base, low - base, low + length - base, expression⟩ encoding] pc ↔
      low.toNat ≤ pc.toNat ∧ pc.toNat < low.toNat + length.toNat ∧
        low.toNat + length.toNat < 2 ^ encoding.width := by
  have narrow : 2 ^ encoding.width ∣ 2 ^ 64 :=
    Nat.pow_dvd_pow 2 (Encoding.sized_of_mem possible).width_le
  have sum_mod (left right : UInt64) :
      (left.toNat + right.toNat) % 2 ^ encoding.width = (left + right).toNat % 2 ^ encoding.width := by
    rw [UInt64.toNat_add, Nat.mod_mod_of_dvd _ narrow]
  have some_length : 0 < length.toNat := UInt64.lt_iff_toNat_lt.mp positive
  have start_eq : (base.toNat + (low - base).toNat) % 2 ^ encoding.width = low.toNat := by
    rw [UInt64.toNat_sub_of_le _ _ above, Nat.add_sub_cancel' (UInt64.le_iff_toNat_le.mp above)]
    exact Nat.mod_eq_of_lt (by omega)
  have stop_eq : (base.toNat + (low + length - base).toNat) % 2 ^ encoding.width =
      (low.toNat + length.toNat) % 2 ^ encoding.width := by
    rw [sum_mod, sum_mod, UInt64.add_comm, UInt64.sub_add_cancel]
  rw [covers_singleton, contains_range possible]
  simp only [BasedInterval.contains, BasedInterval.start, BasedInterval.stop, start_eq, stop_eq,
    Bool.and_eq_true, decide_eq_true_eq]
  rcases Nat.lt_or_eq_of_le fits with inside | atEnd
  · rw [Nat.mod_eq_of_lt inside]
    simp only [inside, and_true]
  · rw [atEnd, Nat.mod_self]
    simp only [Nat.not_lt_zero, Nat.lt_irrefl, and_false]

theorem end_toNat :
    low.toNat + length.toNat - base.toNat < 2 ^ encoding.width →
      (low + length - base).toNat = low.toNat + length.toNat - base.toNat := by
  intro bounded
  have word : 2 ^ encoding.width ≤ 2 ^ 64 :=
    Nat.pow_le_pow_right (by decide) (Encoding.sized_of_mem possible).width_le
  have base_le := UInt64.le_iff_toNat_le.mp above
  rw [UInt64.toNat_sub, UInt64.toNat_add]
  omega

/-- A list of one interval is read back. -/
theorem decodeList_single (positive : 0 < length)
    (bounded : low.toNat + length.toNat - base.toNat < 2 ^ encoding.width)
    (other : low - base ≠ encoding.maxAddress) (before after : List UInt8) :
    decodeList
        (before ++ (AddressItem.storedPair encoding (low - base) (low + length - base) ++
          AddressItem.storedPair encoding 0 0 ++ after))
        before.length encoding base =
      .ok [BasedInterval.range ⟨base, low - base, low + length - base, ⟨[], [], encoding⟩⟩
        encoding] := by
  have some_length : 0 < length.toNat := UInt64.lt_iff_toNat_lt.mp positive
  have low_toNat := UInt64.toNat_sub_of_le _ _ above
  have base_le := UInt64.le_iff_toNat_le.mp above
  have high_toNat := end_toNat possible above fits bounded
  let expression : LocationExpression := ⟨[], [], encoding⟩
  have storable : ∀ item ∈ [AddressItem.interval (low - base) (low + length - base) expression],
      item.Storable encoding := by
    refine List.forall_mem_singleton.mpr ⟨⟨?_, ?_⟩, ⟨other, ?_⟩, ?_, ?_⟩
    · omega
    · omega
    · rintro ⟨_, zero⟩
      rw [zero] at high_toNat
      change 0 = _ at high_toNat
      omega
    · exact Nat.two_pow_pos 16
    · exact LocationExpression.decode_nil encoding
  have ascends : (BasedInterval.mk base (low - base) (low + length - base) expression).ascends =
      true := by
    refine decide_eq_true (UInt64.lt_iff_toNat_lt.mpr ?_)
    rw [low_toNat, high_toNat]
    omega
  have decoded := AddressItem.decode_rangeList possible storable base before after
  rw [AddressItem.intervals, AddressItem.intervals, List.filter_cons_of_pos ascends,
    AddressItem.rangeList, List.flatMap_cons, List.flatMap_nil, List.append_nil] at decoded
  exact decoded

/-- Both ways to give an interval cover the same addresses, unless it reaches the end of an address
space that is narrower than a word. -/
theorem coverage_of_interval (positive : 0 < length)
    (bounded : low.toNat + length.toNat - base.toNat < 2 ^ encoding.width)
    (other : low - base ≠ encoding.maxAddress) {measured listed : Entry} (before after : List UInt8)
    (measures : measured.Measures low length) (names : listed.Names before.length) :
    ∃ interval list,
      ofEntry measured data encoding base = .ok interval ∧
      ofEntry listed
          (before ++ (AddressItem.storedPair encoding (low - base) (low + length - base) ++
            AddressItem.storedPair encoding 0 0 ++ after))
          encoding base = .ok list ∧
      (∀ pc, Covers interval pc ↔
        low.toNat ≤ pc.toNat ∧ pc.toNat < low.toNat + length.toNat ∧
          low.toNat + length.toNat < 2 ^ 64) ∧
      (∀ pc, Covers list pc ↔
        low.toNat ≤ pc.toNat ∧ pc.toNat < low.toNat + length.toNat ∧
          low.toNat + length.toNat < 2 ^ encoding.width) ∧
      ((∀ pc, Covers interval pc ↔ Covers list pc) ↔
        low.toNat + length.toNat < 2 ^ encoding.width ∨ encoding.addressSize = 8) := by
  have sized := Encoding.sized_of_mem possible
  have word : 2 ^ encoding.width ≤ 2 ^ 64 := Nat.pow_le_pow_right (by decide) sized.width_le
  have interval_iff (pc : UInt64) := @covers_measured low length (Nat.le_trans fits word) pc
  have list_iff (pc : UInt64) :=
    @covers_listed encoding low length base possible above fits positive ⟨[], [], encoding⟩ pc
  refine ⟨_, _, ofEntry_of_measures measures, ?_, interval_iff, list_iff, ?_⟩
  · rw [ofEntry_of_names names]
    exact decodeList_single possible above fits positive bounded other before after
  · constructor
    · intro same
      by_contra apart
      obtain ⟨reaches, narrow⟩ := not_or.mp apart
      have shorter : 2 ^ encoding.width < 2 ^ 64 := by
        refine Nat.pow_lt_pow_right (by decide) ?_
        have := sized.width_le
        unfold Encoding.width at *
        omega
      have some_length : 0 < length.toNat := UInt64.lt_iff_toNat_lt.mp positive
      have covered := (same low).mp ((interval_iff low).mpr ⟨Nat.le_refl _, by omega, by omega⟩)
      exact reaches ((list_iff low).mp covered).2.2
    · rintro (inside | wide) pc
      · rw [interval_iff, list_iff]
        have below := Nat.lt_of_lt_of_le inside word
        simp only [inside, below]
      · rw [interval_iff, list_iff, Encoding.width, wide]

end

/-- An entry that gives its first address and the number of its addresses. -/
def measuredFrom (low length : UInt64) : Entry where
  offset := 11
  tag := .subprogram
  hasChildren := false
  attributes := [⟨.lowPc, .addr, .address low⟩, ⟨.highPc, .data4, .unsigned length⟩]
  parent := none
  children := #[]

/-- An entry that names the first list of the section. -/
def listedFirst : Entry where
  offset := 11
  tag := .subprogram
  hasChildren := false
  attributes := [⟨.ranges, .secOffset, .sectionOffset 0⟩]
  parent := none
  children := #[]

/-- The last page but one of an address space of four bytes. -/
theorem pageBelowTop_covered :
    let encoding : Encoding := { addressSize := 4 }
    ∃ interval list,
      ofEntry (measuredFrom 0xffffe000 0x1000) [] encoding 0x1000 = .ok interval ∧
      ofEntry listedFirst
          (AddressItem.storedPair encoding 0xffffd000 0xffffe000 ++
            AddressItem.storedPair encoding 0 0)
          encoding 0x1000 = .ok list ∧
      ∀ pc, Covers interval pc ↔ Covers list pc := by
  intro encoding
  have measures : (measuredFrom 0xffffe000 0x1000).Measures 0xffffe000 0x1000 :=
    ⟨rfl, rfl, _, rfl, rfl⟩
  have names : listedFirst.Names ([] : List UInt8).length := ⟨0, rfl, rfl⟩
  obtain ⟨interval, list, measured, listed, _, _, same_iff⟩ :=
    @coverage_of_interval [] encoding 0xffffe000 0x1000 0x1000 (by decide) (by decide) (by decide)
      (by decide) (by decide) (by decide) _ _ [] [] measures names
  rw [List.nil_append, List.append_nil] at listed
  exact ⟨interval, list, measured, listed, same_iff.mpr (.inl (by decide))⟩

/-- The last page: its addresses belong to the entry that gives their number, and none of them to
the entry that lists them. -/
theorem pageAtTop_lost :
    let encoding : Encoding := { addressSize := 4 }
    ofEntry (measuredFrom 0xfffff000 0x1000) [] encoding 0x1000 =
        .ok [⟨0xfffff000, 0x100000000⟩] ∧
      ofEntry listedFirst
          (AddressItem.storedPair encoding 0xffffe000 0xfffff000 ++
            AddressItem.storedPair encoding 0 0)
          encoding 0x1000 = .ok [⟨0xfffff000, 0⟩] ∧
      Covers [⟨0xfffff000, 0x100000000⟩] 0xfffff000 ∧ ∀ pc, ¬Covers [⟨0xfffff000, 0⟩] pc := by
  refine ⟨by decide +kernel, by decide +kernel, covers_singleton.mpr (by decide), ?_⟩
  intro pc covered
  have contained := covers_singleton.mp covered
  simp only [contains, Bool.and_eq_true, decide_eq_true_eq, UInt64.lt_iff_toNat_lt] at contained
  exact Nat.not_lt_zero _ contained.2

end AddressRange

end Dwarf
