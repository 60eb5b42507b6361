import Dwarf.Proofs.Decoder.Correspondence
import Dwarf.Proofs.Expression.Width
import Dwarf.Proofs.Frame.Lookup

/-!
# Sections that are loaded elsewhere

A call frame section that is loaded at another address is read alike, except that the pointers which
are stored relative to their place move with it.  So the table of the section is moved as a whole:
decoding it elsewhere is decoding it and relocating what has been decoded.
-/

namespace Dwarf

open Decoder

/-- The section loaded further up by a distance.  Addresses wrap, so the distance can also lead to an
address further down. -/
def FrameSection.moved (origin : FrameSection) (distance : UInt64) : FrameSection :=
  { origin with address := origin.address + distance }

/-! ## Pointers -/

namespace PointerEncoding

/-- What becomes of a pointer when its section is moved: a relative one is moved too, and wraps at
the size of an address. -/
def relocate (encoding : PointerEncoding) (distance : UInt64) (addressSize : Nat)
    (value : UInt64) : UInt64 :=
  if encoding.IsRelative then
    .ofNat ((value.toNat + distance.toNat) % 2 ^ (8 * min addressSize 8))
  else value

theorem relocate_absolute {encoding : PointerEncoding} (absolute : ¬encoding.IsRelative)
    (distance : UInt64) (addressSize : Nat) (value : UInt64) :
    encoding.relocate distance addressSize value = value :=
  if_neg absolute

example : PointerEncoding.relocate ⟨0x1b⟩ 0x1000 4 0xfffff800 = 0x800 := by decide

theorem formatOnly_absolute (encoding : PointerEncoding) : ¬encoding.formatOnly.IsRelative := by
  unfold IsRelative formatOnly
  have apart : (0x0f : UInt8) &&& 0x70 = 0 := by decide
  rw [UInt8.and_assoc, apart, UInt8.and_zero]
  decide

theorem and_largestAddress_add (word distance : UInt64) (addressSize : Nat) :
    (word + distance) &&& largestAddress addressSize =
      .ofNat (((word &&& largestAddress addressSize).toNat + distance.toNat) %
        2 ^ (8 * min addressSize 8)) := by
  have divides : 2 ^ (8 * min addressSize 8) ∣ 2 ^ 64 := Nat.pow_dvd_pow 2 (by omega)
  rw [← UInt64.toNat_inj, and_largestAddress, and_largestAddress, UInt64.toNat_ofNat',
    UInt64.toNat_add, Nat.mod_mod_of_dvd _ divides, Nat.mod_add_mod]
  have below := Nat.mod_lt (word.toNat + distance.toNat)
    (Nat.two_pow_pos (8 * min addressSize 8))
  exact (Nat.mod_eq_of_lt (Nat.lt_of_lt_of_le below (Nat.le_of_dvd (by decide) divides))).symm

theorem apply_moved (encoding : PointerEncoding) (place distance value : UInt64)
    (addressSize entry : Nat) :
    encoding.apply (place + distance) value addressSize entry =
      (encoding.apply place value addressSize entry).map (encoding.relocate distance addressSize) := by
  by_cases relative : encoding.IsRelative
  · have kind : encoding.code &&& 0x70 = 0x10 := relative
    have sum : place + distance + value = place + value + distance := by
      rw [UInt64.add_assoc, UInt64.add_comm distance, UInt64.add_assoc]
    unfold apply
    simp only [kind, sum, and_largestAddress_add]
    exact congrArg Except.ok (if_pos relative).symm
  · rw [apply_place relative _ place]
    cases encoding.apply place value addressSize entry with
    | error error => rfl
    | ok pointer => exact congrArg Except.ok (relocate_absolute relative ..).symm

/-- In a section that is moved a pointer is read as what becomes of it. -/
theorem becomes_moved (encoding : PointerEncoding) (origin : FrameSection)
    (distance : UInt64) (addressSize entry : Nat) :
    (encoding.decode origin entry).Becomes addressSize (encoding.relocate distance addressSize)
      (encoding.decode (origin.moved distance) entry) := by
  rw [decode_eq, decode_eq]
  split
  · exact becomes_fail _
  split
  · exact becomes_fail _
  cases encoding.stored? with
  | none => exact becomes_fail _
  | some stored =>
      intro cursor size
      have place : (origin.moved distance).address + UInt64.ofNat cursor.offset =
          origin.address + UInt64.ofNat cursor.offset + distance := by
        change origin.address + distance + _ = _
        rw [UInt64.add_assoc, UInt64.add_comm distance, UInt64.add_assoc]
      have fetched : (encoding.fetch stored origin.address entry cursor).Becomes addressSize
          (encoding.relocate distance addressSize)
          (encoding.fetch stored (origin.moved distance).address entry cursor) := by
        refine becomes_bind fun value => becomes_ofExcept ?_
        rw [place, ← size]
        exact encoding.apply_moved _ distance value _ entry
      exact fetched size

end PointerEncoding

/-- Another section agrees on all but its pointers, which it reads as what becomes of them. -/
structure FrameSection.Rereads (origin other : FrameSection)
    (reading : Nat → PointerEncoding → UInt64 → UInt64) : Prop where
  kind_eq : other.kind = origin.kind
  addressSize_eq : other.addressSize = origin.addressSize
  pointers : ∀ (addressSize : Nat) (encoding : PointerEncoding) (entry : Nat),
    (encoding.decode origin entry).Becomes addressSize (reading addressSize encoding)
      (encoding.decode other entry)

theorem FrameSection.rereads_self (origin : FrameSection) :
    origin.Rereads origin fun _ _ => id :=
  ⟨rfl, rfl, fun _ _ _ => becomes_refl _⟩

theorem FrameSection.rereads_moved (origin : FrameSection) (distance : UInt64) :
    origin.Rereads (origin.moved distance) fun addressSize encoding =>
      encoding.relocate distance addressSize :=
  ⟨rfl, rfl, fun addressSize encoding entry =>
    encoding.becomes_moved origin distance addressSize entry⟩

/-! ## Common entries -/

/-- What the letters of an augmentation announce, with the encoding of the personality, which an
augmentation does not keep. -/
structure Announced where
  added : FrameAugmentation
  encoding : Option PointerEncoding
  isSome_eq : encoding.isSome = added.personality.isSome

namespace Announced

/-- Nothing has been announced. -/
def nothing : Announced :=
  ⟨{}, none, rfl⟩

/-- The augmentation with another reading of the personality. -/
def through (reading : PointerEncoding → UInt64 → UInt64) (announced : Announced) :
    FrameAugmentation :=
  { announced.added with
    personality := announced.added.personality.map
      (reading (announced.encoding.getD .absolute)) }

/-- Read what the letters of an augmentation announce, and keep how the personality is encoded. -/
def decode (origin : FrameSection) (entry : Nat) : Announced → List Char → Decoder Announced
  | announced, 'R' :: rest => do
    let code ← Decoder.uint8
    decode origin entry
      { announced with added := { announced.added with pointerEncoding := ⟨code⟩ } } rest
  | announced, 'L' :: rest => do
    let code ← Decoder.uint8
    decode origin entry
      { announced with added := { announced.added with lsdaEncoding := some ⟨code⟩ } } rest
  | announced, 'P' :: rest => do
    let code ← Decoder.uint8
    let pointer ← PointerEncoding.decode ⟨code⟩ origin entry
    decode origin entry
      ⟨{ announced.added with personality := some pointer }, some ⟨code⟩, rfl⟩ rest
  | announced, 'S' :: rest =>
    decode origin entry
      { announced with added := { announced.added with isSignal := true } } rest
  | announced, _ => return announced

/-- The same letters announce the same in another section, but for its reading of the personality. -/
theorem becomes_decode {origin other : FrameSection}
    {reading : Nat → PointerEncoding → UInt64 → UInt64} (rereads : origin.Rereads other reading)
    (addressSize entry : Nat) (announced : Announced) (letters : List Char) :
    (decode origin entry announced letters).Becomes addressSize (through (reading addressSize))
      (FrameAugmentation.decode other entry (announced.through (reading addressSize)) letters) := by
  fun_induction decode origin entry announced letters with
  | case1 announced rest ih => exact becomes_bind fun code => ih code
  | case2 announced rest ih => exact becomes_bind fun code => ih code
  | case3 announced rest ih =>
      exact becomes_bind fun code =>
        (rereads.pointers addressSize ⟨code⟩ entry).bind fun pointer => ih code pointer
  | case4 announced rest ih => exact ih
  | case5 letters announced not_encoding not_lsda not_personality not_signal =>
      have ended : FrameAugmentation.decode other entry (announced.through (reading addressSize))
          letters = Decoder.pure (announced.through (reading addressSize)) := by
        rw [FrameAugmentation.decode]
        · rfl
        all_goals assumption
      rw [ended]
      exact becomes_pure rfl

end Announced

namespace CommonEntry

/-- Read the augmentation data, and keep how the personality is encoded. -/
def announcedData (origin : FrameSection) (offset addressSize : Nat) (augmentation : String) :
    Decoder (Bool × Announced) := do
  match augmentation.toList with
  | [] => return (false, .nothing)
  | 'z' :: letters =>
    let length ← Decoder.unsigned
    let data ← Decoder.split length.toNat
    let announced ← Decoder.ofExcept <|
      (Announced.decode origin offset .nothing letters).run (data.withAddressSize addressSize)
    return (true, announced)
  | _ => throw (.malformedCallFrame offset (.unsupportedAugmentation augmentation))

theorem augmentationData_eq (origin : FrameSection) (offset addressSize : Nat)
    (augmentation : String) :
    augmentationData origin offset addressSize augmentation =
      match augmentation.toList with
      | [] => Decoder.pure (false, {})
      | 'z' :: letters =>
        Decoder.bind Decoder.unsigned.read fun length =>
          Decoder.bind (Decoder.split length.toNat) fun data =>
            Decoder.bind (Decoder.ofExcept <|
                (FrameAugmentation.decode origin offset {} letters).run
                  (data.withAddressSize addressSize)) fun added =>
              Decoder.pure (true, added)
      | _ => Decoder.fail (.malformedCallFrame offset (.unsupportedAugmentation augmentation)) :=
  rfl

/-- Read the fields of the common entry at an offset, and keep how the personality is encoded. -/
def encodedFields (origin : FrameSection) (offset : Nat) :
    Decoder (CommonEntry × Option PointerEncoding) := do
  let version ← Decoder.uint8
  if !supports origin.kind version then
    throw (.malformedCallFrame offset (.unsupportedVersion version))
  else
    let augmentation := Utf8.decode (← Decoder.cstring)
    let addressSize ← statedAddressSize origin offset version
    let codeAlignment ← Decoder.unsigned
    let dataAlignment ← Decoder.signed
    let returnRegister ← register offset version
    let (hasData, announced) ← announcedData origin offset addressSize augmentation
    let rest ← Decoder.cursor
    let common : CommonEntry := {
      offset
      version
      augmentation
      addressSize
      codeAlignment
      dataAlignment
      returnRegister
      added := announced.added
      hasData
      instructions := rest.rest
      instructionsOffset := rest.offset }
    return (common, announced.encoding)

/-- The common entry with another reading of its personality. -/
def through (reading : Nat → PointerEncoding → UInt64 → UInt64)
    (found : CommonEntry × Option PointerEncoding) : CommonEntry :=
  { found.1 with
    added := { found.1.added with
      personality := found.1.added.personality.map
        (reading found.1.addressSize (found.2.getD .absolute)) } }

section

variable {origin other : FrameSection} {reading : Nat → PointerEncoding → UInt64 → UInt64}
  (rereads : origin.Rereads other reading)
include rereads

theorem becomes_announcedData (size offset addressSize : Nat) (augmentation : String) :
    (announcedData origin offset addressSize augmentation).Becomes size
      (fun found => (found.1, found.2.through (reading addressSize)))
      (augmentationData other offset addressSize augmentation) := by
  rw [augmentationData_eq]
  unfold announcedData
  generalize augmentation.toList = letters
  split
  · exact becomes_pure rfl
  next letters =>
    refine becomes_bind fun length => becomes_bind fun data => Becomes.bind
      (becomes_ofExcept ?_) fun announced => becomes_pure rfl
    have announces := Announced.becomes_decode rereads addressSize offset .nothing letters
    exact (@announces (data.withAddressSize addressSize) rfl).1
  · exact becomes_fail _

theorem becomes_encodedFields (size offset : Nat) :
    (encodedFields origin offset).Becomes size (through reading) (fields other offset) := by
  unfold encodedFields fields
  rw [rereads.kind_eq]
  refine becomes_bind fun version => ?_
  split
  · exact becomes_fail _
  have stated : statedAddressSize other offset version =
      statedAddressSize origin offset version := by
    simp only [statedAddressSize, rereads.addressSize_eq]
  rw [stated]
  refine becomes_bind fun augmentation => becomes_bind fun addressSize => ?_
  refine becomes_bind fun codeAlignment => becomes_bind fun dataAlignment => ?_
  refine becomes_bind fun returnRegister => ?_
  refine (becomes_announcedData rereads ..).bind fun announced => ?_
  exact becomes_bind fun rest => becomes_pure rfl

end

theorem through_id (found : CommonEntry × Option PointerEncoding) :
    through (fun _ _ => id) found = found.1 := by
  simp [through]

theorem becomes_fields (origin : FrameSection) (size offset : Nat) :
    (encodedFields origin offset).Becomes size Prod.fst (fields origin offset) := by
  have forget : through (fun _ _ => id) = Prod.fst := funext through_id
  rw [← forget]
  exact becomes_encodedFields origin.rereads_self size offset

theorem encodedFields_eq (origin : FrameSection) (offset : Nat) :
    encodedFields origin offset =
      fieldsWith origin offset (announcedData origin offset) fun common found =>
        ({ common with hasData := found.1, added := found.2.added }, found.2.encoding) :=
  rfl

/-- The encoding is kept exactly if there is a personality. -/
theorem delivers_encodedFields (origin : FrameSection) (offset : Nat) :
    Delivers (fun found => found.2.isSome = found.1.added.personality.isSome)
      (encodedFields origin offset) :=
  encodedFields_eq origin offset ▸ delivers_fieldsWith fun _ found _ => found.2.isSome_eq

/-- How the personality of the common entry at an offset of a section is encoded. -/
def personalityEncoding? (origin : FrameSection) (data : List UInt8) (offset : Nat) :
    Option PointerEncoding :=
  match FrameEntry.frame origin data offset with
  | .ok (some frame) =>
    match (encodedFields origin frame.offset).run frame.body with
    | .ok found => found.2
    | .error _ => none
  | _ => none

/-- What becomes of a common entry when its section is moved. -/
def relocate (origin : FrameSection) (data : List UInt8) (distance : UInt64)
    (common : CommonEntry) : CommonEntry :=
  { common with
    added := { common.added with
      personality := common.added.personality.map
        (((personalityEncoding? origin data common.offset).getD .absolute).relocate distance
          common.addressSize) } }

variable {origin : FrameSection} {data : List UInt8} {offset : Nat} {frame : FrameEntry}
  (found : FrameEntry.frame origin data offset = .ok (some frame))
include found

/-- A common entry of the section has been read together with the encoding of its personality. -/
theorem encodedFields_of_decode {common : CommonEntry} (decoded : decode origin frame = .ok common) :
    common.offset = offset ∧
      (encodedFields origin frame.offset frame.body).result =
        .ok (common, personalityEncoding? origin data offset) := by
  have read := mapError_result_eq_ok.mp decoded
  have same_offset := (delivers_fields origin frame.offset read).trans (FrameEntry.frame_some found).1
  obtain ⟨forgets, _⟩ := becomes_fields origin _ frame.offset (Eq.refl frame.body.addressSize)
  rw [read] at forgets
  obtain ⟨⟨again, encoding⟩, encoded, rfl⟩ := map_eq_ok_iff.mp forgets.symm
  have same_encoding : personalityEncoding? origin data offset = encoding := by
    unfold personalityEncoding? Decoder.run
    rw [found]
    dsimp only
    rw [encoded]
  exact ⟨same_offset, same_encoding.symm ▸ encoded⟩

theorem decode_moved (distance : UInt64) :
    decode (origin.moved distance) frame =
      (decode origin frame).map (relocate origin data distance) := by
  obtain ⟨forgets, _⟩ := becomes_fields origin _ frame.offset (Eq.refl frame.body.addressSize)
  obtain ⟨moves, _⟩ := becomes_encodedFields (origin.rereads_moved distance) _ frame.offset
    (Eq.refl frame.body.addressSize)
  cases encoded : (encodedFields origin frame.offset frame.body).result with
  | error error =>
      rw [encoded] at forgets moves
      unfold decode Decoder.run
      rw [(mapError_eq ..).1, (mapError_eq ..).1, forgets, moves]
      rfl
  | ok read =>
      rw [encoded] at forgets moves
      have decoded : decode origin frame = .ok read.1 := mapError_result_eq_ok.mpr forgets
      obtain ⟨same_offset, again⟩ := encodedFields_of_decode found decoded
      have same_encoding : read.2 = personalityEncoding? origin data read.1.offset := by
        rw [same_offset]
        exact congrArg Prod.snd (Except.ok.inj (encoded.symm.trans again))
      rw [decoded]
      refine mapError_result_eq_ok.mpr (moves.trans (congrArg Except.ok ?_))
      unfold relocate through
      rw [same_encoding]

omit found in
theorem personalityEncoding?_isSome {common : CommonEntry}
    (stores : FrameTable.StoresCommon origin data common) :
    (personalityEncoding? origin data common.offset).isSome =
      common.added.personality.isSome := by
  obtain ⟨frame, found, _, decoded⟩ := stores
  exact delivers_encodedFields origin frame.offset (encodedFields_of_decode found decoded).2

end CommonEntry

/-! ## Function entries -/

namespace FunctionEntry

/-- What becomes of a function entry when its section is moved. -/
def relocate (origin : FrameSection) (data : List UInt8) (distance : UInt64)
    (entry : FunctionEntry) : FunctionEntry :=
  { entry with
    common := entry.common.relocate origin data distance
    start := entry.common.added.pointerEncoding.relocate distance entry.common.addressSize
      entry.start
    lsda := entry.lsda.map
      ((entry.common.added.lsdaEncoding.getD .absolute).relocate distance
        entry.common.addressSize) }

variable (origin : FrameSection) (data : List UInt8) (distance : UInt64) (common : CommonEntry)

theorem becomes_augmentationData (offset : Nat) :
    (augmentationData origin common offset).Becomes common.addressSize
      (Option.map ((common.added.lsdaEncoding.getD .absolute).relocate distance common.addressSize))
      (augmentationData (origin.moved distance) (common.relocate origin data distance) offset) := by
  unfold augmentationData CommonEntry.relocate
  dsimp only
  split
  · refine becomes_bind fun length => (becomes_refl _).bind_of fun {cursor data} size read => ?_
    have data_size := (split_addressSize read).trans size
    dsimp only [id]
    split
    next encoding known =>
      obtain ⟨stated, _⟩ := Option.filter_eq_some_iff.mp known
      rw [stated]
      exact (becomes_ofExcept (encoding.becomes_moved origin distance _ offset data_size).1).bind
        fun pointer => becomes_pure rfl
    · exact becomes_pure rfl
  · exact becomes_pure rfl

theorem becomes_fields (offset : Nat) :
    (fields origin common offset).Becomes common.addressSize (relocate origin data distance)
      (fields (origin.moved distance) (common.relocate origin data distance) offset) := by
  have same_range := PointerEncoding.decode_section
    (PointerEncoding.formatOnly_absolute common.added.pointerEncoding) origin
    (origin.moved distance) offset
  refine (common.added.pointerEncoding.becomes_moved origin distance _ offset).bind fun start => ?_
  change Becomes _ _ _ (Decoder.bind (common.added.pointerEncoding.formatOnly.decode _ offset) _)
  rw [same_range]
  refine becomes_bind fun range => ?_
  refine (becomes_augmentationData origin data distance common offset).bind fun lsda => ?_
  exact becomes_bind fun rest => becomes_pure rfl

/-- A pointer to language-specific data is read only where its encoding is known. -/
theorem delivers_encoded (offset : Nat) :
    Delivers (fun function => function.common = common ∧
      (function.lsda.isSome = true → common.added.lsdaEncoding.isSome = true))
      (fields origin common offset) := by
  have detailed : Delivers (fun lsda =>
      lsda.isSome = true → common.added.lsdaEncoding.isSome = true)
      (augmentationData origin common offset) := by
    unfold augmentationData
    split
    · refine delivers_bind fun length => delivers_bind fun data => ?_
      split
      next encoding known =>
        obtain ⟨stated, _⟩ := Option.filter_eq_some_iff.mp known
        exact delivers_bind fun pointer => delivers_pure fun _ => stated ▸ rfl
      · exact delivers_pure nofun
    · exact delivers_pure nofun
  refine delivers_bind fun start => delivers_bind fun range => detailed.bind fun lsda known => ?_
  exact delivers_bind fun rest => delivers_pure ⟨rfl, known⟩

theorem decode_moved (frame : FrameEntry) :
    decode (origin.moved distance) (common.relocate origin data distance) frame =
      (decode origin common frame).map (relocate origin data distance) :=
  (((becomes_fields origin data distance common frame.offset).mapError _) rfl).1

end FunctionEntry

/-! ## Tables -/

namespace FrameTable

variable {origin : FrameSection} {data : List UInt8} {distance : UInt64}

theorem common_moved (known : List CommonEntry) (entry offset : Nat) :
    FrameTable.common (origin.moved distance) data
        (known.map (CommonEntry.relocate origin data distance)) entry offset =
      (FrameTable.common origin data known entry offset).map
        (CommonEntry.relocate origin data distance) := by
  have search : (known.map (CommonEntry.relocate origin data distance)).find?
      (fun common => common.offset == offset) = (known.find? fun common =>
        common.offset == offset).map (CommonEntry.relocate origin data distance) :=
    List.find?_map ..
  unfold FrameTable.common
  rw [search]
  cases known.find? fun common => common.offset == offset with
  | some common => rfl
  | none =>
      change (FrameEntry.frame origin data offset >>= _) = _
      cases found : FrameEntry.frame origin data offset with
      | error error => rfl
      | ok framed =>
          cases framed with
          | none => rfl
          | some frame =>
              simp only [ok_bind]
              split
              · exact CommonEntry.decode_moved found distance
              · rfl

theorem keep_relocate (common : CommonEntry) (known : List CommonEntry) :
    keep (common.relocate origin data distance)
        (known.map (CommonEntry.relocate origin data distance)) =
      (keep common known).map (CommonEntry.relocate origin data distance) := by
  induction known with
  | nil => rfl
  | cons other rest ih =>
      rw [List.map_cons, keep, keep, ih, apply_ite (List.map _), apply_ite (List.map _)]
      rfl

/-- The table moved with its section. -/
def relocate (data : List UInt8) (distance : UInt64) (table : FrameTable) : FrameTable :=
  { table with
    origin := table.origin.moved distance
    commons := table.commons.map (CommonEntry.relocate table.origin data distance)
    functions := table.functions.map (FunctionEntry.relocate table.origin data distance) }

/-- What a frame adds to the moved table is what becomes of what it adds. -/
theorem add_relocate (table : FrameTable) (frame : Nat × Except Error FrameEntry) :
    add data (table.relocate data distance) frame = (add data table frame).relocate data distance := by
  obtain ⟨offset, framed⟩ := frame
  cases framed with
  | error error => rfl
  | ok entry =>
      cases is_common : entry.isCommon with
      | true => rw [add_common is_common, add_common is_common]
      | false =>
          have named := @common_moved table.origin data distance table.commons entry.offset
            entry.commonOffset
          cases found : FrameTable.common table.origin data table.commons entry.offset
              entry.commonOffset with
          | error error =>
              rw [found] at named
              simp [add, relocate, is_common, named, found, Except.map]
          | ok common =>
              rw [found] at named
              have fields := FunctionEntry.decode_moved table.origin data distance common entry
              cases decoded : FunctionEntry.decode table.origin common entry with
              | error error =>
                  rw [decoded] at fields
                  simp [add, relocate, is_common, named, found, fields, decoded, keep_relocate,
                    Except.map]
              | ok function =>
                  rw [decoded] at fields
                  simp [add, relocate, is_common, named, found, fields, decoded, keep_relocate,
                    Except.map]

/-- The walk through a section does not look at its address. -/
theorem framesFrom_moved (origin : FrameSection) (data : List UInt8) (distance : UInt64)
    (offset : Nat) :
    FrameEntry.framesFrom (origin.moved distance) data offset =
      FrameEntry.framesFrom origin data offset := by
  have frames (offset : Nat) : FrameEntry.frame (origin.moved distance) data offset =
    FrameEntry.frame origin data offset := rfl
  fun_induction FrameEntry.framesFrom origin data offset with
  | case1 offset inside found => rw [FrameEntry.framesFrom, if_pos inside, frames, found]
  | case2 offset inside error found => rw [FrameEntry.framesFrom, if_pos inside, frames, found]
  | case3 offset inside entry found ih =>
      rw [FrameEntry.framesFrom, if_pos inside, frames, found]
      dsimp only
      split
      next forward => rw [ih forward]
      · rfl
  | case4 offset past => rw [FrameEntry.framesFrom, if_neg past]

theorem offsets_nodup (data : List UInt8) (origin : FrameSection) (budget : Nat) :
    ((decode data origin budget).functions.map FunctionEntry.offset).Nodup := by
  obtain ⟨entries, stop, framed⟩ := FrameEntry.exists_framed origin data 0
  rw [(decode_framed framed budget).1]
  have sorted := List.mergeSort_perm (entries.filterMap (decoded? origin data))
    fun a b => a.start ≤ b.start
  refine (sorted.map _).nodup_iff.mpr ?_
  refine List.pairwise_map.mpr (List.pairwise_filterMap.mpr ?_)
  refine framed.ascending.1.imp fun before function decoded later later_decoded => ?_
  rw [offset_of_decoded? decoded, offset_of_decoded? later_decoded]
  exact Nat.ne_of_lt before

theorem encodings_of_decode (data : List UInt8) (origin : FrameSection) (budget : Nat) :
    ∀ function ∈ (decode data origin budget).functions,
      (CommonEntry.personalityEncoding? origin data function.common.offset).isSome =
          function.common.added.personality.isSome ∧
        (function.lsda.isSome = true → function.common.added.lsdaEncoding.isSome = true) := by
  obtain ⟨entries, stop, framed⟩ := FrameEntry.exists_framed origin data 0
  intro function member
  obtain ⟨entry, _, _, decoded⟩ := (accounts_framed framed budget).functions_from function member
  obtain ⟨common, named, fields⟩ := bind_eq_ok_iff.mp decoded
  obtain ⟨rfl, lsda⟩ :=
    FunctionEntry.delivers_encoded origin common entry.offset (mapError_result_eq_ok.mp fields)
  exact ⟨CommonEntry.personalityEncoding?_isSome (stores_of_common named).1, lsda⟩

/-- The table of a section before its functions are sorted. -/
def collect (data : List UInt8) (origin : FrameSection) (budget : Nat) : FrameTable :=
  (FrameEntry.framesFrom origin data 0).foldl (add data) ⟨origin, budget, [], [], []⟩

theorem collect_moved (data : List UInt8) (origin : FrameSection) (distance : UInt64)
    (budget : Nat) :
    collect data (origin.moved distance) budget =
      (collect data origin budget).relocate data distance := by
  unfold collect
  rw [framesFrom_moved]
  exact @List.foldl_hom _ _ _ (relocate data distance) (add data) (add data)
    (FrameEntry.framesFrom origin data 0) ⟨origin, budget, [], [], []⟩ add_relocate

theorem collect_origin (data : List UInt8) (origin : FrameSection) (budget : Nat) :
    (collect data origin budget).origin = origin := by
  obtain ⟨entries, stop, framed⟩ := FrameEntry.exists_framed origin data 0
  obtain ⟨commons, _, same⟩ := decode_eq framed budget
  exact congrArg FrameTable.origin same

/-- Decoding commutes with moving the section.  The section that is loaded further up by a distance
has the same errors and, offset by offset, the same entries, but for the pointers that are relative
to their place: these are moved by the distance, and wrap at the size of addresses of their entry.
Each function has an offset of its own, and the section states how each pointer is encoded. -/
theorem decode_relocates (data : List UInt8) (origin : FrameSection) (distance : UInt64)
    (budget : Nat) :
    let table := decode data origin budget
    let moved := decode data (origin.moved distance) budget
    moved.errors = table.errors ∧
      moved.commons = table.commons.map (CommonEntry.relocate origin data distance) ∧
      moved.functions.Perm (table.functions.map (FunctionEntry.relocate origin data distance)) ∧
      moved.functions.Pairwise FunctionEntry.Precedes ∧
      (table.functions.map FunctionEntry.offset).Nodup ∧
      (∀ common ∈ table.commons,
        (CommonEntry.personalityEncoding? origin data common.offset).isSome =
          common.added.personality.isSome) ∧
      ∀ function ∈ table.functions,
        (CommonEntry.personalityEncoding? origin data function.common.offset).isSome =
            function.common.added.personality.isSome ∧
          (function.lsda.isSome = true → function.common.added.lsdaEncoding.isSome = true) := by
  intro table moved
  have moves : moved.errors = table.errors ∧
      moved.commons = table.commons.map (CommonEntry.relocate origin data distance) ∧
      moved.functions.Perm (table.functions.map (FunctionEntry.relocate origin data distance)) := by
    have sorted := List.mergeSort_perm (collect data origin budget).functions
      fun a b => a.start ≤ b.start
    have moved_eq : moved = { collect data (origin.moved distance) budget with
      functions := (collect data (origin.moved distance) budget).functions.mergeSort
        fun a b => a.start ≤ b.start } := rfl
    rw [moved_eq, collect_moved]
    unfold relocate
    rw [collect_origin]
    exact ⟨rfl, rfl, (List.mergeSort_perm ..).trans (sorted.symm.map _)⟩
  obtain ⟨errors_eq, commons_eq, functions_perm⟩ := moves
  refine ⟨errors_eq, commons_eq, functions_perm, precedes_of_decode data _ budget,
    offsets_nodup data origin budget, fun common member => ?_, encodings_of_decode data origin budget⟩
  exact CommonEntry.personalityEncoding?_isSome (stores_of_decode data origin budget common member)

end FrameTable

end Dwarf
