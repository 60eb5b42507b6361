import Dwarf.Proofs.TypeGraph.ArraySize

/-!
# Bit fields

A bit field is described by its first bit, counted from the start of the object, or by the storage
unit that it is in, where bits are counted from the most significant one.  Both descriptions lead
to the same bits, also where the location of the storage unit is given together with the first bit
of the object.  The size of a storage unit may have to be looked up in the type of the member, and
that is done while the types around it are still being built.
-/

namespace Dwarf

open Resolving

namespace Word

theorem mul?_eight (bytes : UInt64) (fits : 8 * bytes.toNat < 2 ^ 64) :
    ∃ bits, mul? bytes 8 = some bits ∧ bits.toNat = 8 * bytes.toNat := by
  have product : bytes.toNat * (8 : UInt64).toNat = 8 * bytes.toNat := Nat.mul_comm _ _
  refine ⟨bytes * 8, if_pos (product ▸ fits), ?_⟩
  rw [UInt64.toNat_mul, product, Nat.mod_eq_of_lt fits]

theorem sub?_of_le (first second : UInt64) (le : second.toNat ≤ first.toNat) :
    ∃ difference, sub? first second = some difference ∧
      difference.toNat = first.toNat - second.toNat := by
  have ordered : second ≤ first := UInt64.le_iff_toNat_le.mpr le
  exact ⟨first - second, if_pos ordered, UInt64.toNat_sub_of_le _ _ ordered⟩

theorem toNat_monus (first second : UInt64) :
    (monus first second).toNat = first.toNat - second.toNat := by
  unfold monus
  split
  next le => exact UInt64.toNat_sub_of_le _ _ le
  next more =>
    have less : first.toNat < second.toNat := UInt64.lt_iff_toNat_lt.mp (UInt64.not_le.mp more)
    rw [Nat.sub_eq_zero_of_le (Nat.le_of_lt less)]
    rfl

end Word

/-- Some bits of an object, counted from its least significant one, and a storage unit of whole
bytes that they are in. -/
structure BitField where
  /-- The first bit. -/
  first : UInt64
  /-- The number of bits. -/
  size : UInt64
  /-- The byte offset of the storage unit. -/
  unit : UInt64
  /-- The number of bytes of the storage unit. -/
  bytes : UInt64
  begins : 8 * unit.toNat ≤ first.toNat
  ends : first.toNat + size.toNat ≤ 8 * (unit.toNat + bytes.toNat)
  fits : 8 * (unit.toNat + bytes.toNat) < 2 ^ 64

namespace BitField

variable (field : BitField)

/-- The bits of the storage unit before the field, counted from the most significant one. -/
def before : Nat :=
  8 * field.bytes.toNat - (field.first.toNat - 8 * field.unit.toNat) - field.size.toNat

/-- The three ways to describe a bit field. -/
inductive Places : Option UInt64 → BitPlacement → Prop where
  /-- By its place in the storage unit. -/
  | inUnit {location : Option UInt64} {placement : BitPlacement} {first : UInt64}
      (located : location.getD 0 = field.unit)
      (relative : placement.dataBitOffset = none)
      (counted : placement.bitOffset = some first) (before : first.toNat = field.before)
      (sized : placement.bitSize = some field.size)
      (stored : placement.storage = some field.bytes) : Places location placement
  /-- By its place in the object. -/
  | inObject {placement : BitPlacement} (counted : placement.dataBitOffset = some field.first)
      (sized : placement.bitSize = some field.size) : Places none placement
  /-- By its place in the object, with the location of the storage unit beside it. -/
  | inBoth {placement : BitPlacement} (counted : placement.dataBitOffset = some field.first)
      (sized : placement.bitSize = some field.size) : Places (some field.unit) placement

variable {field} {location : Option UInt64} {placement : BitPlacement}

/-- Bits that are counted from the most significant one of a storage unit are as many bits above
its least significant one as the field begins behind the unit. -/
theorem fromLeastSignificant? {first : UInt64} (before : first.toNat = field.before) :
    ∃ bit, BitPlacement.fromLeastSignificant? field.bytes first field.size = some bit ∧
      bit.toNat = field.first.toNat - 8 * field.unit.toNat := by
  have begins := field.begins
  have ends := field.ends
  have fits := field.fits
  unfold BitField.before at before
  obtain ⟨bits, product, bits_eq⟩ := Word.mul?_eight field.bytes (by omega)
  obtain ⟨above, remaining, above_eq⟩ := Word.sub?_of_le bits first (by omega)
  obtain ⟨bit, rest, bit_eq⟩ := Word.sub?_of_le above field.size (by omega)
  refine ⟨bit, ?_, by omega⟩
  simp [BitPlacement.fromLeastSignificant?, product, remaining, rest]

/-- However a bit field is described, its first bit is found. -/
theorem Places.position (places : field.Places location placement) :
    ∃ bit, (placement.position location).2 = some bit ∧
      8 * (placement.position location).1.toNat + bit.toNat = field.first.toNat := by
  have begins := field.begins
  have fits := field.fits
  unfold BitPlacement.position
  cases places with
  | inUnit located relative counted before sized stored =>
      obtain ⟨bit, found, bit_eq⟩ := fromLeastSignificant? before
      refine ⟨bit, ?_, ?_⟩
      · simp [relative, counted, sized, stored, found]
      · simp only [relative, counted, located, bit_eq]
        omega
  | inObject counted sized =>
      refine ⟨field.first % 8, by simp [counted], ?_⟩
      simp only [counted, UInt64.toNat_div, UInt64.toNat_mod]
      exact Nat.div_add_mod _ 8
  | inBoth counted sized =>
      obtain ⟨base, product, base_eq⟩ := Word.mul?_eight field.unit (by omega)
      refine ⟨Word.monus field.first base, by simp [counted, product], ?_⟩
      simp only [counted, Word.toNat_monus, base_eq]
      omega

end BitField

/-- A member has the bits of a field: their number and the first one, counted from the start of the
object. -/
structure Member.HasBits (member : Member) (field : BitField) : Prop where
  number : member.bitSize = some field.size
  first : ∃ bit, member.bitOffset = some bit ∧
    8 * member.byteOffset.toNat + bit.toNat = field.first.toNat

/-! ## Sizes of types -/

namespace Tag

/-- Whether values of a type are addresses. -/
def isAddress : Tag → Bool
  | .pointerType | .referenceType | .rvalueReferenceType => true
  | _ => false

/-- Whether a type is another one under a name or with a qualifier. -/
def isLink : Tag → Bool
  | .typedef | .constType | .volatileType | .restrictType | .atomicType => true
  | _ => false

theorem shape?_of_isLink {tag : Tag} (link : tag.isLink = true) : tag.shape? = some .target := by
  unfold isLink at link
  split at link
  case h_6 => cases link
  all_goals rfl

end Tag

/-- The size that a type entry states.  What holds addresses has the size of an address. -/
def EntryRef.statedSize? (entry : EntryRef) : Option UInt64 :=
  if entry.tag.isAddress then
    (entry.unsigned? .byteSize).or (some entry.unit.encoding.addressSize.toUInt64)
  else entry.unsigned? .byteSize

namespace TypeSource

variable {source : TypeSource} {offset : Nat} {entry child : EntryRef} {id : TypeId}
variable {bytes : UInt64} {types pending : List Nat} {graph later : TypeGraph}

/-- The size of a type, with the entries from which it is known.  A typedef or a qualifier that
states none has the size of the type behind it, and an array the one that it is built with. -/
inductive SizedBy (source : TypeSource) (bytes : UInt64) : List Nat → Prop where
  | stated {offset : Nat} {entry : EntryRef} (found : source.units.entry? offset = some entry)
      (stated : entry.statedSize? = some bytes) : SizedBy source bytes [offset]
  | array {offset : Nat} {entry : EntryRef} {id : TypeId} (unsized : source.Unsized offset entry)
      (known : source.build.idAt? offset = some id)
      (size : (source.build.node id).byteSize = some bytes) : SizedBy source bytes [offset]
  | link {offset target : Nat} {types : List Nat} {entry : EntryRef}
      (found : source.units.entry? offset = some entry) (link : entry.tag.isLink = true)
      (bare : entry.unsigned? .byteSize = none) (reference : entry.reference? .type = some target)
      (behind : SizedBy source bytes (target :: types)) :
      SizedBy source bytes (offset :: target :: types)

theorem nodeOf_stated {inv : TypeGraph → Prop} {resolve : TypeResolver}
    (numbers : Numbers inv resolve) (stated : entry.statedSize? = some bytes) :
    Yields inv (source.nodeOf resolve entry) fun node _ => node.byteSize = some bytes := by
  have own := referent_yields numbers entry
  have size (other : entry.tag.isAddress = false) : entry.unsigned? .byteSize = some bytes := by
    simpa [EntryRef.statedSize?, other] using stated
  unfold nodeOf
  split
  case h_1 tag | h_17 tag => exact yields_pure fun _ => size (by rw [tag]; rfl)
  case h_2 tag | h_3 tag | h_4 tag =>
    have address : entry.tag.isAddress = true := by rw [tag]; rfl
    rw [EntryRef.statedSize?, if_pos address] at stated
    exact own.bind fun _ => yields_pure fun _ _ => stated
  case h_5 tag =>
    refine own.bind fun _ => yields_get.bind fun _ => yields_pure fun _ _ _ => ?_
    rw [size (by rw [tag]; rfl), Option.some_or]
  case h_6 tag | h_7 tag | h_8 tag | h_9 tag =>
    refine (members_yields numbers).bind fun _ => yields_pure fun _ _ => ?_
    exact size (by rw [tag]; rfl)
  case h_10 tag =>
    have underlying : Yields inv ((entry.value? .type).mapM fun _ => referent resolve entry)
        fun _ _ => True := by
      cases entry.value? .type with
      | none => exact yields_pure fun _ => trivial
      | some => exact own.bind fun _ => yields_pure fun _ _ => trivial
    exact underlying.bind fun _ => yields_pure fun _ _ => size (by rw [tag]; rfl)
  case h_11 tag | h_12 tag | h_13 tag | h_14 tag | h_15 tag =>
    exact own.bind fun _ => yields_pure fun _ _ => size (by rw [tag]; rfl)
  case h_16 tag =>
    refine own.bind fun _ =>
      (yields_mapM _ fun child _ => referent_yields numbers child).bind fun _ =>
        yields_pure fun _ _ _ => ?_
    exact size (by rw [tag]; rfl)
  case h_18 => exact yields_throw _

theorem nodeOf_link {resolve : TypeResolver} (link : entry.tag.isLink = true) {node : TypeNode}
    (built : source.nodeOf resolve entry graph = .ok (node, later)) :
    node.byteSize = entry.unsigned? .byteSize ∧
      ∃ type, node.kind.behind? = some type ∧ referent resolve entry graph = .ok (type, later) := by
  unfold Tag.isLink at link
  split at link
  case h_6 => cases link
  all_goals
    rename_i tag
    simp only [nodeOf, tag] at built
    change (referent resolve entry graph >>= fun pair => _) = _ at built
    obtain ⟨⟨type, middle⟩, referred, ended⟩ := bind_eq_ok_iff.mp built
    cases ended
    exact ⟨rfl, type, rfl, referred⟩

theorem nodeOf_composite {resolve : TypeResolver} (composite : entry.tag.shape? = some .composite)
    {node : TypeNode} (built : source.nodeOf resolve entry graph = .ok (node, later)) :
    ∃ kind members declaration, node.kind = .composite kind members declaration ∧
      source.members resolve entry graph = .ok (members, later) := by
  unfold Tag.shape? at composite
  split at composite
  case h_14 | h_15 | h_16 | h_17 =>
    rename_i tag
    simp only [nodeOf, tag] at built
    change (source.members resolve entry graph >>= fun pair => _) = _ at built
    obtain ⟨⟨members, middle⟩, listed, ended⟩ := bind_eq_ok_iff.mp built
    cases ended
    exact ⟨_, members, _, rfl, listed⟩
  all_goals cases composite

theorem InProgress.finished (progress : source.InProgress pending graph)
    (keeps : graph.Keeps source.build) (found : source.units.entry? offset = some entry)
    (known : graph.idAt? offset = some id) (outside : offset ∉ pending) :
    graph.node id = source.build.node id ∧ source.Mirrors graph entry (graph.node id) := by
  obtain ⟨_, same, member | mirrors⟩ := progress.consistent.known known
  · exact absurd member outside
  · cases found.symm.trans same
    refine ⟨(keeps.node fun unbuilt => ?_).symm, mirrors⟩
    have shape := mirrors.shape
    rw [unbuilt] at shape
    exact mirrors.shaped shape.symm

theorem Mirrors.behind {node : TypeNode} (mirrors : source.Mirrors graph entry node)
    (link : entry.tag.isLink = true) {type : TypeId} (behind : node.kind.behind? = some type) :
    graph.Leads entry type := by
  have shape := Tag.shape?_of_isLink link
  obtain ⟨referrer, refers, leads⟩ := mirrors.referrer (TypeKind.mem_edges_of_behind behind)
  cases refers with
  | own => exact leads
  | parameter signature => cases shape.symm.trans signature
  | member composite => cases shape.symm.trans composite

theorem build_stated (found : source.units.entry? offset = some entry)
    (known : source.build.idAt? offset = some id) (stated : entry.statedSize? = some bytes) :
    (source.build.node id).byteSize = some bytes := by
  obtain ⟨above, ⟨count, _, after, moment⟩, _⟩ := build_traces found known
  have numbers := @resolve_progresses source count (offset :: above)
  exact (nodeOf_stated numbers stated _ _ _ moment.begun moment.built).2.2 after (.refl after)

theorem build_link (found : source.units.entry? offset = some entry)
    (known : source.build.idAt? offset = some id) (link : entry.tag.isLink = true)
    (bare : entry.unsigned? .byteSize = none) :
    ∃ type, source.build.Defers id type := by
  obtain ⟨above, ⟨count, _, after, moment⟩, _⟩ := build_traces found known
  obtain ⟨size, type, behind, _⟩ := nodeOf_link link moment.built
  exact ⟨type, size.trans bare, behind⟩

theorem sizeWithin_of_node (progress : source.InProgress pending graph)
    (keeps : graph.Keeps source.build) (found : source.units.entry? offset = some entry)
    (known : graph.idAt? offset = some id) (size : (source.build.node id).byteSize = some bytes)
    (count : Nat) :
    graph.sizeWithin count id =
      if 1 ≤ count ∧ ∀ other ∈ [offset], other ∉ pending then some bytes else none := by
  simp only [List.forall_mem_singleton]
  by_cases member : offset ∈ pending
  · rw [TypeGraph.sizeWithin_eq_none_of_pending (progress.node member known), if_neg]
    exact fun ⟨_, outside⟩ => outside member
  cases count with
  | zero => rfl
  | succ count =>
      have node := (progress.finished keeps found known member).1
      rw [TypeGraph.sizeWithin, node, size, if_pos ⟨Nat.succ_pos count, member⟩]

/-- The size of a type is found unless it is behind too many typedefs and qualifiers, or one of the
entries on the way is being built. -/
theorem SizedBy.sizeWithin (sized : source.SizedBy bytes types)
    (progress : source.InProgress pending graph) (keeps : graph.Keeps source.build)
    (first : types.head? = some offset) (known : graph.idAt? offset = some id) (count : Nat) :
    graph.sizeWithin count id =
      if types.length ≤ count ∧ ∀ other ∈ types, other ∉ pending then some bytes else none := by
  induction sized generalizing offset id count with
  | stated found stated =>
      cases first
      have size := build_stated found (keeps.idAt? known) stated
      exact sizeWithin_of_node progress keeps found known size count
  | array unsized in_the_end size =>
      cases first
      cases in_the_end.symm.trans (keeps.idAt? known)
      exact sizeWithin_of_node progress keeps unsized.found known size count
  | @link offset target types entry found link bare reference _ ih =>
      cases first
      simp only [List.length_cons, List.forall_mem_cons]
      by_cases member : offset ∈ pending
      · rw [TypeGraph.sizeWithin_eq_none_of_pending (progress.node member known), if_neg]
        exact fun ⟨_, outside, _⟩ => outside member
      cases count with
      | zero => rfl
      | succ count =>
          obtain ⟨node, mirrors⟩ := progress.finished keeps found known member
          obtain ⟨type, sizeless, behind⟩ := build_link found (keeps.idAt? known) link bare
          have leads := mirrors.behind link (node ▸ behind)
          rw [TypeGraph.sizeWithin, node, sizeless, behind]
          change graph.sizeWithin count type = _
          rw [ih rfl (leads.target reference)]
          simp [member]

/-! ## Members -/

/-- The size of the storage unit of a member, with the types from which it is known: that of the
member entry itself or, if it states none, that of its type. -/
inductive StoredIn (source : TypeSource) (child : EntryRef) (bytes : UInt64) : List Nat → Prop where
  | own (stated : child.unsigned? .byteSize = some bytes) : StoredIn source child bytes []
  | typed {target : Nat} {types : List Nat} (bare : child.unsigned? .byteSize = none)
      (reference : child.reference? .type = some target)
      (sized : source.SizedBy bytes (target :: types)) :
      StoredIn source child bytes (target :: types)

/-- The three ways in which a member entry describes a bit field, with the types that have to be
looked at. -/
inductive Describes (source : TypeSource) (child : EntryRef) (field : BitField) :
    List Nat → Prop where
  /-- By its place in the storage unit. -/
  | inUnit {location : Option UInt64} {first : UInt64} {types : List Nat}
      (placed : source.location? child = .ok location) (located : location.getD 0 = field.unit)
      (relative : child.unsigned? .dataBitOffset = none)
      (counted : child.unsigned? .bitOffset = some first) (before : first.toNat = field.before)
      (sized : child.unsigned? .bitSize = some field.size)
      (stored : source.StoredIn child field.bytes types) : Describes source child field types
  /-- By its place in the object. -/
  | inObject (placed : source.location? child = .ok none)
      (counted : child.unsigned? .dataBitOffset = some field.first)
      (sized : child.unsigned? .bitSize = some field.size) : Describes source child field []
  /-- By its place in the object, with the location of the storage unit beside it. -/
  | inBoth (placed : source.location? child = .ok (some field.unit))
      (counted : child.unsigned? .dataBitOffset = some field.first)
      (sized : child.unsigned? .bitSize = some field.size) : Describes source child field []

variable {field : BitField} {location : Option UInt64}

theorem Describes.bitSize (describes : source.Describes child field types) :
    child.unsigned? .bitSize = some field.size := by
  cases describes with
  | inUnit _ _ _ _ _ sized _ => exact sized
  | inObject _ _ sized => exact sized
  | inBoth _ _ sized => exact sized

theorem Describes.sizedBy (describes : source.Describes child field types) :
    types = [] ∨ ∃ target behind, types = target :: behind ∧
      child.reference? .type = some target ∧ source.SizedBy field.bytes types := by
  cases describes with
  | inUnit _ _ _ _ _ _ stored =>
      cases stored with
      | own => exact .inl rfl
      | typed _ reference sized => exact .inr ⟨_, _, rfl, reference, sized⟩
  | inObject => exact .inl rfl
  | inBoth => exact .inl rfl

/-- The bits of a field are at their place if the size of its storage unit is known. -/
theorem Describes.places (describes : source.Describes child field types)
    (placed : source.location? child = .ok location) {typeSize : Option UInt64}
    (known : types = [] ∨ typeSize = some field.bytes) :
    field.Places location (placement child typeSize) := by
  cases describes with
  | inUnit same located relative counted before sized stored =>
      cases placed.symm.trans same
      refine .inUnit located relative counted before sized ?_
      cases stored with
      | own stated => simp [placement, stated]
      | typed bare => simpa [placement, bare] using known
  | inObject same counted sized =>
      cases placed.symm.trans same
      exact .inObject counted sized
  | inBoth same counted sized =>
      cases placed.symm.trans same
      exact .inBoth counted sized

theorem Describes.lost (describes : source.Describes child field types) (asked : types ≠ [])
    (location : Option UInt64) : ((placement child none).position location).2 = none := by
  cases describes with
  | inUnit _ _ relative counted _ _ stored =>
      cases stored with
      | own => exact absurd rfl asked
      | typed bare => simp [BitPlacement.position, placement, relative, counted, bare]
  | inObject => exact absurd rfl asked
  | inBoth => exact absurd rfl asked

/-- The bits of a member are found if and only if the size of its storage unit is. -/
theorem Describes.hasBits_iff {member : Member} (describes : source.Describes child field types)
    (made : source.MadeMember (source.InProgress pending) child member graph)
    (keeps : graph.Keeps source.build) :
    member.bitSize = some field.size ∧ (member.HasBits field ∨ member.bitOffset = none) ∧
      (member.HasBits field ↔ types.length ≤ 32 ∧ ∀ other ∈ types, other ∉ pending) := by
  obtain ⟨moment, location, isBase, progress, grows, leads, placed, same⟩ := made
  generalize member.type = type at leads same
  subst same
  refine ⟨describes.bitSize, ?_⟩
  have hasBits (known : types = [] ∨ moment.sizeOf? type = some field.bytes) :
      (source.memberAt child isBase location moment type).HasBits field :=
    ⟨describes.bitSize, (describes.places placed known).position⟩
  obtain rfl | ⟨target, behind, rfl, reference, sized⟩ := describes.sizedBy
  · have bits := hasBits (.inl rfl)
    exact ⟨.inl bits, fun _ => ⟨Nat.zero_le 32, List.forall_mem_nil _⟩, fun _ => bits⟩
  have size := sized.sizeWithin progress (grows.keeps.trans keeps) rfl (leads.target reference)
    TypeGraph.maxLevels
  by_cases found : (target :: behind).length ≤ 32 ∧ ∀ other ∈ target :: behind, other ∉ pending
  · have bits := hasBits (.inr (size.trans (if_pos found)))
    exact ⟨.inl bits, fun _ => found, fun _ => bits⟩
  · have unknown : moment.sizeOf? type = none := size.trans (if_neg found)
    have lost : (source.memberAt child isBase location moment type).bitOffset = none := by
      rw [memberAt, unknown]
      exact describes.lost (List.cons_ne_nil target behind) location
    refine ⟨.inr lost, fun bits => ?_, fun holds => absurd holds found⟩
    obtain ⟨bit, known, _⟩ := bits.first
    cases lost.symm.trans known

/-- However a bit field is described, the member that is made of it has the bits of the field, or no
place for them.  It has no place if and only if the size of the storage unit is left to the type of
the member and that is behind too many typedefs and qualifiers, or one of the types that are looked
at was being built when the structure was: the structure itself, or one that leads to it and was
begun before. -/
theorem bitField_position (source : TypeSource) {offset : Nat} {entry : EntryRef} {id : TypeId}
    (known : source.build.idAt? offset = some id)
    (found : source.units.entry? offset = some entry)
    (composite : entry.tag.shape? = some .composite) :
    ∃ unfinished : List Nat,
      offset ∈ unfinished ∧ (∀ other ∈ unfinished, source.Reaches other offset) ∧
        (source.Foremost offset → unfinished = [offset]) ∧
        ∀ (index : Nat) {child : EntryRef} {field : BitField} {types : List Nat},
          (entry.children.filter source.lists)[index]? = some child →
          source.Describes child field types →
          ∃ member, (source.build.members id)[index]? = some member ∧
            source.build.Leads child member.type ∧ member.bitSize = some field.size ∧
            (member.HasBits field ∨ member.bitOffset = none) ∧
            (member.HasBits field ↔
              types.length ≤ 32 ∧ ∀ other ∈ types, other ∉ unfinished) := by
  obtain ⟨above, ⟨count, before, after, moment⟩, foremost⟩ := build_traces found known
  refine ⟨offset :: above, List.mem_cons_self, ?_, fun first => by rw [foremost first], ?_⟩
  · exact List.forall_mem_cons.mpr ⟨.refl, moment.reaches⟩
  intro index child field types place describes
  obtain ⟨kind, members, declaration, node, listed⟩ := nodeOf_composite composite moment.built
  have numbers := @resolve_progresses source count (offset :: above)
  have made := (members_yields numbers _ _ _ moment.begun listed).2.2 after (.refl after)
  obtain ⟨same, each⟩ := List.forall₂_iff_get.mp made
  obtain ⟨within, rfl⟩ := List.getElem?_eq_some_iff.mp place
  have within_members : index < members.length := same ▸ within
  have contributed := each index within within_members
  refine ⟨members[index], ?_, ?_, describes.hasBits_iff contributed moment.keeps⟩
  · rw [TypeGraph.members, node]
    exact List.getElem?_eq_getElem within_members
  · obtain ⟨_, _, _, _, grows, leads, _⟩ := contributed
    exact leads.keep (grows.keeps.trans moment.keeps).idAt?

/-- A member entry for three bits of a number, which is at offset 15. -/
def threeBits (offset : Nat) (attributes : List Attribute) : Entry :=
  ⟨offset, .member, false,
    ⟨.type, .ref4, .unitReference 15⟩ :: ⟨.bitSize, .data1, .unsigned 3⟩ :: attributes,
    some 0, #[]⟩

/-- A structure with a bit field that is described in three ways. -/
def threeWaysUnit : CompilationUnit where
  header := ⟨0, 20, 4, 0, 8, 4, 11⟩
  order := .little
  abbreviations := ⟨[]⟩
  entries :=
    #[⟨11, .structureType, true, [⟨.byteSize, .data1, .unsigned 8⟩], none, #[1, 2, 3]⟩,
      threeBits 12
        [⟨.dataMemberLocation, .data1, .unsigned 4⟩, ⟨.bitOffset, .data1, .unsigned 24⟩],
      threeBits 13 [⟨.dataBitOffset, .data1, .unsigned 37⟩],
      threeBits 14
        [⟨.dataMemberLocation, .data1, .unsigned 4⟩, ⟨.dataBitOffset, .data1, .unsigned 37⟩],
      ⟨15, .baseType, false, [⟨.byteSize, .data1, .unsigned 4⟩], none, #[]⟩]

def threeWays : TypeSource :=
  { units := ⟨[threeWaysUnit]⟩, sections := default, settings := default }

/-- Three bits of the number at the fourth byte of the structure. -/
def threeBitsField : BitField :=
  ⟨37, 3, 4, 4, by decide, by decide, by decide⟩

def threeWaysEntry (id : Nat) : EntryRef :=
  ⟨threeWaysUnit, id, threeWaysUnit.entries[id]!⟩

theorem threeWays_inUnit : threeWays.Describes (threeWaysEntry 1) threeBitsField [15] := by
  have found : threeWays.units.entry? 15 = some (threeWaysEntry 4) := by decide +kernel
  have placed : threeWays.location? (threeWaysEntry 1) = .ok (some 4) := by decide +kernel
  have reference : (threeWaysEntry 1).reference? .type = some 15 := by decide +kernel
  have stored : threeWays.StoredIn (threeWaysEntry 1) 4 [15] :=
    .typed rfl reference (.stated found rfl)
  exact .inUnit placed rfl rfl rfl (by decide) rfl stored

theorem threeWays_inObject : threeWays.Describes (threeWaysEntry 2) threeBitsField [] :=
  .inObject (by decide +kernel) rfl rfl

theorem threeWays_inBoth : threeWays.Describes (threeWaysEntry 3) threeBitsField [] :=
  .inBoth (by decide +kernel) rfl rfl

/-- A member of the structure has the three bits. -/
def HasThreeBits (index : Nat) : Prop :=
  ∃ member, (threeWays.build.members 1)[index]? = some member ∧ member.HasBits threeBitsField

/-- All three members have the same bits.  The first one takes the size of its storage unit from
the number, the others do without. -/
theorem threeWays_agree : HasThreeBits 0 ∧ HasThreeBits 1 ∧ HasThreeBits 2 := by
  have known : threeWays.build.idAt? 11 = some 1 := by decide +kernel
  have found : threeWays.units.entry? 11 = some (threeWaysEntry 0) := by decide +kernel
  have first : threeWays.Foremost 11 := ⟨[], [15], by decide +kernel, List.forall_mem_nil _⟩
  have children : (threeWaysEntry 0).children.filter threeWays.lists =
      [threeWaysEntry 1, threeWaysEntry 2, threeWaysEntry 3] := by
    decide +kernel
  obtain ⟨unfinished, _, _, alone, fields⟩ := bitField_position threeWays known found rfl
  rw [alone first, children] at fields
  refine ⟨?_, ?_, ?_⟩
  · obtain ⟨member, listed, _, _, _, bits⟩ := fields 0 rfl threeWays_inUnit
    exact ⟨member, listed, bits.mpr (by decide)⟩
  · obtain ⟨member, listed, _, _, _, bits⟩ := fields 1 rfl threeWays_inObject
    exact ⟨member, listed, bits.mpr (by decide)⟩
  · obtain ⟨member, listed, _, _, _, bits⟩ := fields 2 rfl threeWays_inBoth
    exact ⟨member, listed, bits.mpr (by decide)⟩

/-- A name for the type before it. -/
def nameOfLast (index : Nat) : Entry :=
  ⟨12 + index, .typedef, false, [⟨.type, .ref4, .unitReference (.ofNat (11 + index))⟩], none, #[]⟩

/-- A structure with a bit field, the type of which is a number behind 32 typedefs. -/
def manyNamesUnit : CompilationUnit where
  header := ⟨0, 50, 4, 0, 8, 4, 11⟩
  order := .little
  abbreviations := ⟨[]⟩
  entries :=
    (⟨11, .baseType, false, [⟨.byteSize, .data1, .unsigned 4⟩], none, #[]⟩ ::
      ((List.range 32).map nameOfLast ++
        [⟨44, .structureType, true, [⟨.byteSize, .data1, .unsigned 8⟩], none, #[34]⟩,
          ⟨45, .member, false,
            [⟨.type, .ref4, .unitReference 43⟩, ⟨.bitSize, .data1, .unsigned 3⟩,
              ⟨.dataMemberLocation, .data1, .unsigned 4⟩, ⟨.bitOffset, .data1, .unsigned 24⟩],
            some 33, #[]⟩])).toArray

def manyNames : TypeSource :=
  { units := ⟨[manyNamesUnit]⟩, sections := default, settings := default }

theorem nameOfLast_found {index : Nat} (bound : index < 32) :
    manyNames.units.entry? (12 + index) = some ⟨manyNamesUnit, index + 1, nameOfLast index⟩ ∧
      EntryRef.reference? ⟨manyNamesUnit, index + 1, nameOfLast index⟩ .type =
        some (11 + index) := by
  revert index
  decide +kernel

theorem manyNames_sized {count : Nat} (le : count ≤ 32) :
    manyNames.SizedBy 4 ((11 + count) :: (List.range' 11 count).reverse) := by
  induction count with
  | zero =>
      have found : manyNames.units.entry? 11 =
          some ⟨manyNamesUnit, 0, manyNamesUnit.entries[0]⟩ := by
        decide +kernel
      exact .stated found rfl
  | succ count ih =>
      obtain ⟨found, reference⟩ := nameOfLast_found le
      rw [List.range'_1_concat, List.reverse_append]
      rw [show 11 + (count + 1) = 12 + count by omega]
      exact .link found rfl rfl reference (ih (Nat.le_of_lt le))

/-- The size of the storage unit is not found behind 32 typedefs, and so the bits of the field have
no place. -/
theorem manyNames_lost :
    manyNames.Describes ⟨manyNamesUnit, 34, manyNamesUnit.entries[34]⟩ threeBitsField
        (43 :: (List.range' 11 32).reverse) ∧
      (manyNames.build.members 34).map Member.bitOffset = [none] := by
  have placed : manyNames.location? ⟨manyNamesUnit, 34, manyNamesUnit.entries[34]⟩ =
      .ok (some 4) := by
    decide +kernel
  have stored : manyNames.StoredIn ⟨manyNamesUnit, 34, manyNamesUnit.entries[34]⟩ 4
      (43 :: (List.range' 11 32).reverse) :=
    .typed rfl (by decide +kernel) (manyNames_sized (Nat.le_refl 32))
  exact ⟨.inUnit placed rfl rfl rfl (by decide) rfl stored, by decide +kernel⟩

end TypeSource

end Dwarf
