import Dwarf.LocationList
import Dwarf.Proofs.Decoder.Integer
import Dwarf.Proofs.Except
import Dwarf.Proofs.Expression.Width

/-!
# Lists of intervals

Range lists and location lists store intervals in the same way, and a location list puts an
expression behind each.  Whatever items are written, with changes of the base among them, both
decoders give the intervals back: the location list all of them, the range list those that are
stored in ascending order.
-/

namespace Dwarf

open Decoder

/-- An interval of addresses, the base that it is relative to, and the expression that holds in
it. -/
structure BasedInterval where
  base : UInt64
  low : UInt64
  high : UInt64
  expression : LocationExpression

namespace BasedInterval

/-- The first address of the interval.  Addresses wrap at the end of the address space. -/
def start (interval : BasedInterval) (encoding : Encoding) : Nat :=
  (interval.base.toNat + interval.low.toNat) % 2 ^ encoding.width

/-- The address behind the interval. -/
def stop (interval : BasedInterval) (encoding : Encoding) : Nat :=
  (interval.base.toNat + interval.high.toNat) % 2 ^ encoding.width

def range (interval : BasedInterval) (encoding : Encoding) : AddressRange :=
  ⟨.ofNat (interval.start encoding), .ofNat (interval.stop encoding)⟩

/-- Whether the interval is stored in ascending order. -/
def ascends (interval : BasedInterval) : Bool :=
  interval.low < interval.high

/-- Whether the interval contains an address. -/
def contains (interval : BasedInterval) (encoding : Encoding) (pc : UInt64) : Bool :=
  interval.start encoding ≤ pc.toNat && pc.toNat < interval.stop encoding

/-- The interval as an entry of a location list. -/
def entry (interval : BasedInterval) (encoding : Encoding) : LocationListEntry :=
  ⟨interval.range encoding, interval.expression⟩

end BasedInterval

/-- An item of a list: a new base, or an interval relative to the base in force together with the
expression that holds in it. -/
inductive AddressItem where
  | select (address : UInt64)
  | interval (low high : UInt64) (expression : LocationExpression)

namespace AddressItem

/-- The intervals of a list, each with the base that has been selected last. -/
def intervals : UInt64 → List AddressItem → List BasedInterval
  | _, [] => []
  | _, .select address :: rest => intervals address rest
  | base, .interval low high expression :: rest =>
    ⟨base, low, high, expression⟩ :: intervals base rest

/-! ## Bytes -/

/-- A pair of addresses. -/
def storedPair (encoding : Encoding) (low high : UInt64) : List UInt8 :=
  encoding.order.digits encoding.addressSize low.toNat ++
    encoding.order.digits encoding.addressSize high.toNat

/-- An item of a range list. -/
def storedRange (encoding : Encoding) : AddressItem → List UInt8
  | .select address => storedPair encoding encoding.maxAddress address
  | .interval low high _ => storedPair encoding low high

/-- An item of a location list: the expression follows its interval. -/
def storedLocation (encoding : Encoding) : AddressItem → List UInt8
  | .select address => storedPair encoding encoding.maxAddress address
  | .interval low high expression =>
    storedPair encoding low high ++
      (encoding.order.digits 2 expression.bytes.length ++ expression.bytes)

def rangeList (encoding : Encoding) (items : List AddressItem) : List UInt8 :=
  items.flatMap (storedRange encoding) ++ storedPair encoding 0 0

def locationList (encoding : Encoding) (items : List AddressItem) : List UInt8 :=
  items.flatMap (storedLocation encoding) ++ storedPair encoding 0 0

/-- An item can be stored if its addresses fit.  An interval must not look like a selection of a base
or like the end of the list, and its expression has to be one. -/
def Storable (encoding : Encoding) : AddressItem → Prop
  | .select address => address.toNat < 2 ^ encoding.width
  | .interval low high expression =>
    (low.toNat < 2 ^ encoding.width ∧ high.toNat < 2 ^ encoding.width) ∧
      (low ≠ encoding.maxAddress ∧ ¬(low = 0 ∧ high = 0)) ∧
        expression.bytes.length < 2 ^ 16 ∧
          LocationExpression.decode expression.bytes encoding = .ok expression

end AddressItem

section

variable {encoding : Encoding} (possible : encoding.addressSize ∈ [1, 2, 4, 8])
include possible

/-! ## Intervals in the address space -/

theorem and_maxAddress_toNat (base address : UInt64) :
    ((base + address) &&& encoding.maxAddress).toNat =
      (base.toNat + address.toNat) % 2 ^ encoding.width := by
  have sized := Encoding.sized_of_mem possible
  rw [sized.and_maxAddress, UInt64.toNat_add]
  exact Nat.mod_mod_of_dvd _ (Nat.pow_dvd_pow 2 sized.width_le)

theorem relative_eq (interval : BasedInterval) :
    AddressRange.relative encoding interval.base interval.low interval.high =
      interval.range encoding := by
  have wrapped (address : UInt64) : (interval.base + address) &&& encoding.maxAddress =
      .ofNat ((interval.base.toNat + address.toNat) % 2 ^ encoding.width) := by
    rw [← and_maxAddress_toNat possible, UInt64.ofNat_toNat]
  rw [AddressRange.relative, wrapped, wrapped]
  rfl

theorem contains_range (interval : BasedInterval) (pc : UInt64) :
    (interval.range encoding).contains pc = interval.contains encoding pc := by
  have low := and_maxAddress_toNat possible interval.base interval.low
  have high := and_maxAddress_toNat possible interval.base interval.high
  rw [← relative_eq possible]
  simp only [AddressRange.contains, AddressRange.relative, BasedInterval.contains,
    UInt64.le_iff_toNat_le, UInt64.lt_iff_toNat_lt, low, high]
  rfl

/-! ## Pairs of addresses -/

theorem recognizes_stored {address : UInt64} (fits : address.toNat < 2 ^ encoding.width) :
    Decoder.address.read.Recognizes encoding
      (encoding.order.digits encoding.addressSize address.toNat) address := by
  refine recognizes_address possible ?_
  rw [Encoding.width, Nat.pow_mul] at fits
  exact fits

theorem maxAddress_fits : encoding.maxAddress.toNat < 2 ^ encoding.width := by
  have positive : 0 < 2 ^ encoding.width := Nat.two_pow_pos _
  rw [(Encoding.sized_of_mem possible).maxAddress_toNat]
  omega

theorem maxAddress_ne_zero : encoding.maxAddress ≠ 0 := by
  intro zero
  have sized := Encoding.sized_of_mem possible
  have largest := sized.maxAddress_toNat
  have room := sized.literals_fit
  rw [zero] at largest
  change 0 = _ at largest
  omega

end

namespace AddressRange

variable {encoding : Encoding}

/-- What a pair of a range list decides. -/
def afterPair (encoding : Encoding) (base : UInt64) (found : List AddressRange)
    (low high : UInt64) : Decoder (Pass (UInt64 × List AddressRange) (List AddressRange)) :=
  if low = 0 ∧ high = 0 then Decoder.pure (.done found.reverse)
  else if low = encoding.maxAddress then Decoder.pure (.again (high, found))
  else if low < high then
    Decoder.pure (.again (base, relative encoding base low high :: found))
  else Decoder.pure (.again (base, found))

theorem extend_read (base : UInt64) (found : List AddressRange) :
    (extend encoding (base, found)).read =
      Decoder.bind address.read fun low => Decoder.bind address.read fun high =>
        afterPair encoding base found low high := rfl

end AddressRange

namespace LocationList

variable {encoding : Encoding}

/-- What a pair of a location list decides. -/
def afterPair (encoding : Encoding) (offset : Nat) (base : UInt64)
    (found : List LocationListEntry) (low high : UInt64) :
    Decoder (Pass (UInt64 × List LocationListEntry) (List LocationListEntry)) :=
  if low = 0 ∧ high = 0 then Decoder.pure (.done found.reverse)
  else if low = encoding.maxAddress then Decoder.pure (.again (high, found))
  else
    Decoder.bind (storedExpression.mapError fun _ => .malformedLocationList offset) fun bytes =>
      Decoder.bind (Decoder.ofExcept (LocationExpression.decode bytes encoding)) fun expression =>
        Decoder.pure
          (.again (base, ⟨AddressRange.relative encoding base low high, expression⟩ :: found))

theorem extend_read (offset : Nat) (base : UInt64) (found : List LocationListEntry) :
    (extend encoding offset (base, found)).read =
      Decoder.bind (address.read.mapError fun _ => .malformedLocationList offset) fun low =>
        Decoder.bind (address.read.mapError fun _ => .malformedLocationList offset) fun high =>
          afterPair encoding offset base found low high := rfl

end LocationList

namespace AddressItem

variable {encoding : Encoding} (possible : encoding.addressSize ∈ [1, 2, 4, 8])
include possible

/-! ## Range lists -/

theorem recognizes_rangePair {base low high : UInt64} {found : List AddressRange}
    {decision : Pass (UInt64 × List AddressRange) (List AddressRange)}
    (low_fits : low.toNat < 2 ^ encoding.width) (high_fits : high.toNat < 2 ^ encoding.width)
    (decides : AddressRange.afterPair encoding base found low high = Decoder.pure decision) :
    (AddressRange.extend encoding (base, found)).read.Recognizes encoding
      (storedPair encoding low high) decision := by
  rw [AddressRange.extend_read, storedPair]
  refine (recognizes_stored possible low_fits).bind ?_
  rw [← List.append_nil (encoding.order.digits _ high.toNat)]
  refine (recognizes_stored possible high_fits).bind ?_
  rw [decides]
  exact .pure decision

/-- Each item of a range list is one pass of its decoder. -/
theorem rounds_rangeList {items : List AddressItem}
    (storable : ∀ item ∈ items, item.Storable encoding) (base : UInt64)
    (found : List AddressRange) :
    Rounds (AddressRange.extend encoding) encoding (base, found) (rangeList encoding items)
      (found.reverse ++
        ((intervals base items).filter BasedInterval.ascends).map (·.range encoding)) := by
  induction items generalizing base found with
  | nil =>
      have zero_fits : (0 : UInt64).toNat < 2 ^ encoding.width := Nat.two_pow_pos _
      simp only [intervals, List.filter_nil, List.map_nil, List.append_nil]
      exact .done (recognizes_rangePair possible zero_fits zero_fits (if_pos ⟨rfl, rfl⟩))
  | cons item items ih =>
      obtain ⟨first, rest⟩ := List.forall_mem_cons.mp storable
      rw [rangeList, List.flatMap_cons, List.append_assoc]
      cases item with
      | select address =>
          have nonzero := maxAddress_ne_zero possible
          refine .again (recognizes_rangePair possible (maxAddress_fits possible) first ?_)
            (ih rest address found)
          rw [AddressRange.afterPair, if_neg fun zeros => nonzero zeros.1, if_pos rfl]
      | interval low high expression =>
          obtain ⟨⟨low_fits, high_fits⟩, ⟨other, nonzero⟩, _⟩ := first
          let interval : BasedInterval := ⟨base, low, high, expression⟩
          by_cases ascending : low < high
          · have later := ih rest base (interval.range encoding :: found)
            have kept : interval.ascends = true := decide_eq_true ascending
            rw [List.reverse_cons, List.append_assoc] at later
            rw [intervals, List.filter_cons_of_pos kept]
            refine .again (recognizes_rangePair possible low_fits high_fits ?_) later
            rw [AddressRange.afterPair, if_neg nonzero, if_neg other, if_pos ascending,
              ← relative_eq possible]
          · have dropped : ¬interval.ascends = true := by
              rwa [BasedInterval.ascends, decide_eq_true_eq]
            rw [intervals, List.filter_cons_of_neg dropped]
            refine .again (recognizes_rangePair possible low_fits high_fits ?_) (ih rest base found)
            rw [AddressRange.afterPair, if_neg nonzero, if_neg other, if_neg ascending]

/-! ## Location lists -/

theorem recognizes_locationPair {offset : Nat} {base low high : UInt64}
    {found : List LocationListEntry} {attached : List UInt8}
    {decision : Pass (UInt64 × List LocationListEntry) (List LocationListEntry)}
    (low_fits : low.toNat < 2 ^ encoding.width) (high_fits : high.toNat < 2 ^ encoding.width)
    (decides : (LocationList.afterPair encoding offset base found low high).Recognizes encoding
      attached decision) :
    (LocationList.extend encoding offset (base, found)).read.Recognizes encoding
      (storedPair encoding low high ++ attached) decision := by
  rw [LocationList.extend_read, storedPair, List.append_assoc]
  refine ((recognizes_stored possible low_fits).mapError _).bind ?_
  exact ((recognizes_stored possible high_fits).mapError _).bind decides

theorem recognizes_selection {offset : Nat} {base low high : UInt64}
    {found : List LocationListEntry}
    {decision : Pass (UInt64 × List LocationListEntry) (List LocationListEntry)}
    (low_fits : low.toNat < 2 ^ encoding.width) (high_fits : high.toNat < 2 ^ encoding.width)
    (decides : LocationList.afterPair encoding offset base found low high =
      Decoder.pure decision) :
    (LocationList.extend encoding offset (base, found)).read.Recognizes encoding
      (storedPair encoding low high) decision := by
  rw [← List.append_nil (storedPair encoding low high)]
  refine recognizes_locationPair possible low_fits high_fits ?_
  rw [decides]
  exact .pure decision

omit possible in
theorem recognizes_expression {bytes : List UInt8} (short : bytes.length < 2 ^ 16) :
    LocationList.storedExpression.Recognizes encoding
      (encoding.order.digits 2 bytes.length ++ bytes) bytes := by
  have word : (UInt16.ofNat bytes.length).toNat = bytes.length := by
    rw [UInt16.toNat_ofNat']
    exact Nat.mod_eq_of_lt short
  have length := @recognizes_uint16 encoding (.ofNat bytes.length)
  rw [word] at length
  refine length.bind ?_
  rw [word]
  exact recognizes_bytes bytes

/-- Each item of a location list is one pass of its decoder. -/
theorem rounds_locationList {items : List AddressItem}
    (storable : ∀ item ∈ items, item.Storable encoding) (offset : Nat) (base : UInt64)
    (found : List LocationListEntry) :
    Rounds (LocationList.extend encoding offset) encoding (base, found)
      (locationList encoding items)
      (found.reverse ++ (intervals base items).map (·.entry encoding)) := by
  induction items generalizing base found with
  | nil =>
      have zero_fits : (0 : UInt64).toNat < 2 ^ encoding.width := Nat.two_pow_pos _
      simp only [intervals, List.map_nil, List.append_nil]
      exact .done (recognizes_selection possible zero_fits zero_fits (if_pos ⟨rfl, rfl⟩))
  | cons item items ih =>
      obtain ⟨first, rest⟩ := List.forall_mem_cons.mp storable
      rw [locationList, List.flatMap_cons, List.append_assoc]
      cases item with
      | select address =>
          have nonzero := maxAddress_ne_zero possible
          refine .again (recognizes_selection possible (maxAddress_fits possible) first ?_)
            (ih rest address found)
          rw [LocationList.afterPair, if_neg fun zeros => nonzero zeros.1, if_pos rfl]
      | interval low high expression =>
          obtain ⟨⟨low_fits, high_fits⟩, ⟨other, nonzero⟩, short, decodes⟩ := first
          let interval : BasedInterval := ⟨base, low, high, expression⟩
          have later := ih rest base (interval.entry encoding :: found)
          rw [List.reverse_cons, List.append_assoc] at later
          refine .again (recognizes_locationPair possible low_fits high_fits ?_) later
          rw [LocationList.afterPair, if_neg nonzero, if_neg other,
            ← List.append_nil (encoding.order.digits 2 _ ++ _)]
          refine ((recognizes_expression short).mapError _).bind ?_
          rw [decodes, BasedInterval.entry, ← relative_eq possible]
          exact .pure _

/-! ## Both lists -/

theorem decode_rangeList {items : List AddressItem}
    (storable : ∀ item ∈ items, item.Storable encoding) (base : UInt64)
    (before after : List UInt8) :
    AddressRange.decodeList (before ++ (rangeList encoding items ++ after)) before.length encoding
        base =
      .ok (((intervals base items).filter BasedInterval.ascends).map (·.range encoding)) := by
  have inside : before.length ≤ (before ++ (rangeList encoding items ++ after)).length := by
    rw [List.length_append]
    exact Nat.le_add_right _ _
  rw [AddressRange.decodeList, if_pos inside, List.drop_left]
  exact ((rounds_rangeList possible storable base []).recognizes.mapError _).run _ _

theorem decode_locationList {items : List AddressItem}
    (storable : ∀ item ∈ items, item.Storable encoding) (base : UInt64)
    (before after : List UInt8) :
    LocationList.decode (before ++ (locationList encoding items ++ after)) before.length encoding
        base =
      .ok ⟨before.length, (intervals base items).map (·.entry encoding)⟩ := by
  have inside : before.length ≤ (before ++ (locationList encoding items ++ after)).length := by
    rw [List.length_append]
    exact Nat.le_add_right _ _
  rw [LocationList.decode, if_pos inside, List.drop_left]
  have read := (rounds_locationList possible storable before.length base []).recognizes.run after
    before.length
  exact bind_eq_ok_iff.mpr ⟨_, read, rfl⟩

/-- Items that are written as a range list and as a location list are read back from both, wherever
the lists stand.  The location list has all intervals in order and is searched for the first that
contains an address; the range list has those of them that are stored in ascending order. -/
theorem decode_lists {items : List AddressItem}
    (storable : ∀ item ∈ items, item.Storable encoding) (base : UInt64) :
    (∀ before after, ∃ list,
      LocationList.decode (before ++ (locationList encoding items ++ after)) before.length encoding
          base = .ok list ∧
        list.entries = (intervals base items).map (·.entry encoding) ∧
        ∀ pc, list.find? pc =
          ((intervals base items).find? (·.contains encoding pc)).map (·.expression)) ∧
    ∀ before after,
      AddressRange.decodeList (before ++ (rangeList encoding items ++ after)) before.length encoding
          base =
        .ok (((intervals base items).filter BasedInterval.ascends).map (·.range encoding)) := by
  refine ⟨fun before after => ?_, decode_rangeList possible storable base⟩
  refine ⟨_, decode_locationList possible storable base before after, rfl, fun pc => ?_⟩
  have same (interval : BasedInterval) :
      (interval.entry encoding).range.contains pc = interval.contains encoding pc :=
    contains_range possible interval pc
  rw [LocationList.find?, List.find?_map, Option.map_map]
  simp only [Function.comp_def, same]
  rfl

omit possible in
/-- An interval, a new base near the end of the address space, an interval that is not in ascending
order, and one that goes on at address zero. -/
theorem decode_lists_wrapping :
    let encoding : Encoding := { addressSize := 4, order := .big }
    let first : LocationExpression := ⟨[0x50], [⟨0, ⟨0x50⟩, .none⟩], encoding⟩
    let second : LocationExpression := ⟨[], [], encoding⟩
    let items := [.interval 0x10 0x20 first, .select 0xfffffff0, .interval 8 8 first,
      .interval 0x10 0x30 second]
    (∀ item ∈ items, item.Storable encoding) ∧
      AddressRange.decodeList (rangeList encoding items ++ [7]) 0 encoding 0x1000 =
        .ok [⟨0x1010, 0x1020⟩, ⟨0, 0x20⟩] ∧
      ∃ list, LocationList.decode ([1, 2] ++ (locationList encoding items ++ [3])) 2 encoding
          0x1000 = .ok list ∧
        list.entries = [⟨⟨0x1010, 0x1020⟩, first⟩, ⟨⟨0xfffffff8, 0xfffffff8⟩, first⟩,
          ⟨⟨0, 0x20⟩, second⟩] ∧
        list.find? 0x1f = some second ∧ list.find? 0xfffffff8 = none := by
  intro encoding first second items
  have possible : encoding.addressSize ∈ [1, 2, 4, 8] := by decide
  have storable : ∀ item ∈ items, item.Storable encoding := by
    intro item member
    simp only [items, List.mem_cons, List.not_mem_nil, or_false] at member
    rcases member with rfl | rfl | rfl | rfl
    · exact ⟨by decide, by decide, by decide, by decide +kernel⟩
    · exact (by decide : (0xfffffff0 : UInt64).toNat < 2 ^ 32)
    · exact ⟨by decide, by decide, by decide, by decide +kernel⟩
    · exact ⟨by decide, by decide, by decide, by decide +kernel⟩
  obtain ⟨located, ranged⟩ := decode_lists possible storable 0x1000
  obtain ⟨list, decoded, entries, found⟩ := located [1, 2] [3]
  refine ⟨storable, (ranged [] [7]).trans ?_, list, decoded, entries.trans ?_, ?_, ?_⟩
  · decide +kernel
  · decide +kernel
  · rw [found]
    decide +kernel
  · rw [found]
    decide +kernel

end AddressItem

end Dwarf
