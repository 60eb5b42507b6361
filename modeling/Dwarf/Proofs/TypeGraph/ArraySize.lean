import Dwarf.Proofs.TypeGraph.Construction

/-!
# Sizes of arrays

The size of an array is computed as soon as the type of its elements is known, and that type may
still be being built then if it refers back to the array.  A size that was found at the moment of the
array is the size in the end.  One that was not found is missing in the end too, unless the array
leads back to an entry above it.
-/

namespace Dwarf

open Resolving

namespace TypeSource

variable {source : TypeSource} {above : List Nat} {graph later : TypeGraph}
variable {offset : Nat} {entry : EntryRef} {id : TypeId}

/-- The entry at an offset is an array that does not give its size. -/
structure Unsized (source : TypeSource) (offset : Nat) (entry : EntryRef) : Prop where
  found : source.units.entry? offset = some entry
  array : entry.tag = .arrayType
  bare : entry.unsigned? .byteSize = none

theorem nodeOf_array {resolve : TypeResolver} (unsized : source.Unsized offset entry)
    {node : TypeNode} (built : source.nodeOf resolve entry graph = .ok (node, later)) :
    ∃ element, referent resolve entry graph = .ok (element, later) ∧
      node.kind = .array element (dimensionsOf entry) ∧
      node.byteSize = arraySize later element (dimensionsOf entry) := by
  simp only [nodeOf, unsized.array, unsized.bare, Option.none_or] at built
  change (referent resolve entry graph >>= fun pair => _) = _ at built
  obtain ⟨⟨element, middle⟩, referred, ended⟩ := bind_eq_ok_iff.mp built
  cases ended
  exact ⟨element, referred, rfl, rfl⟩

theorem Moment.array {count : Nat} {before after : TypeGraph}
    (moment : source.Moment graph offset entry id above count before after)
    (unsized : source.Unsized offset entry) :
    ∃ element, after.Leads entry element ∧
      (graph.node id).kind = .array element (dimensionsOf entry) ∧
      (graph.node id).byteSize = arraySize after element (dimensionsOf entry) := by
  obtain ⟨element, referred, kind, size⟩ := nodeOf_array unsized moment.built
  have numbers := @resolve_progresses source count (offset :: above)
  obtain ⟨_, _, leads⟩ := referent_yields numbers entry _ _ _ moment.begun referred
  exact ⟨element, leads after (.refl after), kind, size⟩

/-- The size is that of the finished elements, or the array leads back to an entry above it. -/
theorem Moment.size_cases {count : Nat} {before after : TypeGraph}
    (moment : source.Moment graph offset entry id above count before after)
    (unsized : source.Unsized offset entry) {element : TypeId} (leads : after.Leads entry element)
    (kind : (graph.node id).kind = .array element (dimensionsOf entry))
    (size : (graph.node id).byteSize = arraySize after element (dimensionsOf entry)) :
    (graph.node id).byteSize = arraySize graph element (dimensionsOf entry) ∨
      (graph.node id).byteSize = none ∧
        ∃ other ∈ above, Relation.TransGen source.Follows offset other := by
  rw [size]
  obtain same | ⟨fewer, last, defers, unbuilt, missing, rest⟩ :=
    moment.keeps.sizeWithin TypeGraph.maxLevels element
  · exact .inl (arraySize_congr same _).symm
  have unknown := arraySize_eq_none missing (dimensionsOf entry)
  obtain ⟨_, rfl⟩ | ⟨target, reference, known⟩ := leads
  · cases moment.ended.consistent.eq_void_of_defers defers
    exact absurd unbuilt moment.ended.consistent.void_ne_pending
  obtain ⟨other, member, other_place, reaches⟩ := moment.ended.reaches_of_defers known defers unbuilt
  obtain rfl | member := List.mem_cons.mp member
  · cases moment.place.symm.trans other_place
    have still_missing : graph.sizeOf? element = none := by
      rw [TypeGraph.sizeOf?, rest]
      cases fewer with
      | zero => rfl
      | succ fewer =>
          rw [TypeGraph.sizeWithin, size, unknown, kind]
          rfl
    exact .inl (unknown.trans (arraySize_eq_none still_missing _).symm)
  · obtain ⟨_, target_found, _⟩ := moment.ended.consistent.known known
    have own : source.Refers entry entry := .own (.inl (by rw [unsized.array]; rfl))
    have follows : source.Follows offset target :=
      ⟨entry, entry, unsized.found, own, reference, by rw [target_found]; rfl⟩
    exact .inr ⟨unknown, other, member, .head' follows reaches⟩

/-- The size of an array that does not give it is the product of the size of its elements, as it is
known in the end, and the numbers of elements of its dimensions.  It can only be missing, never
wrong.  It is not missing if no reference leads from the array back to it, or if the array comes
before all types that lead to it, unless the product is zero but exceeds a word before a dimension
without elements is met. -/
theorem build_arraySize (source : TypeSource) {offset : Nat} {entry : EntryRef} {id : TypeId}
    (known : source.build.idAt? offset = some id)
    (found : source.units.entry? offset = some entry) (array : entry.tag = .arrayType)
    (bare : entry.unsigned? .byteSize = none) :
    ∃ element,
      let dimensions := (childrenOf entry .subrangeType).map Dimension.ofEntry
      let size := (source.build.node id).byteSize
      let elementSize := source.build.sizeOf? element
      source.build.Leads entry element ∧
        (source.build.node id).kind = .array element dimensions ∧
        (size = none ∨ size = wordSize? elementSize dimensions) ∧
        (¬Relation.TransGen source.Follows offset offset ∨ source.Foremost offset →
          size = wordSize? elementSize dimensions ∨
            size = none ∧ wordSize? elementSize dimensions = some 0 ∧
              ∃ shorter, shorter <+: dimensions ∧ wordSize? elementSize shorter = none) := by
  have unsized : source.Unsized offset entry := ⟨found, array, bare⟩
  obtain ⟨above, ⟨count, before, after, moment⟩, foremost⟩ := build_traces found known
  obtain ⟨element, leads, kind, size⟩ := moment.array unsized
  refine ⟨element, leads.keep moment.keeps.idAt?, kind, ?_⟩
  have product := arraySize_cases source.build element (dimensionsOf entry)
  obtain same | ⟨missing, other, member, leads_back⟩ := moment.size_cases unsized leads kind size
  · rw [same]
    exact ⟨product.symm.imp_left And.left, fun _ => product⟩
  · refine ⟨.inl missing, ?_⟩
    rintro (acyclic | first)
    · exact absurd (leads_back.trans_left (moment.reaches other member)) acyclic
    · rw [foremost first] at member
      cases member

/-- An array of two structures, each with a pointer to such an array. -/
def arrayFirstUnit : CompilationUnit where
  header := ⟨0, 20, 4, 0, 8, 4, 11⟩
  order := .little
  abbreviations := ⟨[]⟩
  entries :=
    #[⟨11, .arrayType, true, [⟨.type, ⟨0x13⟩, .unitReference 13⟩], none, #[1]⟩,
      ⟨12, .subrangeType, false, [⟨.count, ⟨0x0b⟩, .unsigned 2⟩], some 0, #[]⟩,
      ⟨13, .structureType, true, [⟨.byteSize, ⟨0x0b⟩, .unsigned 8⟩], none, #[3]⟩,
      ⟨14, .member, false, [⟨.type, ⟨0x13⟩, .unitReference 15⟩], some 2, #[]⟩,
      ⟨15, .pointerType, false, [⟨.type, ⟨0x13⟩, .unitReference 11⟩], none, #[]⟩]

def arrayFirst : TypeSource :=
  { units := ⟨[arrayFirstUnit]⟩, sections := default, settings := default }

/-- The same types with the structure in front. -/
def structureFirstUnit : CompilationUnit where
  header := ⟨0, 20, 4, 0, 8, 4, 11⟩
  order := .little
  abbreviations := ⟨[]⟩
  entries :=
    #[⟨11, .structureType, true, [⟨.byteSize, ⟨0x0b⟩, .unsigned 8⟩], none, #[1]⟩,
      ⟨12, .member, false, [⟨.type, ⟨0x13⟩, .unitReference 13⟩], some 0, #[]⟩,
      ⟨13, .pointerType, false, [⟨.type, ⟨0x13⟩, .unitReference 14⟩], none, #[]⟩,
      ⟨14, .arrayType, true, [⟨.type, ⟨0x13⟩, .unitReference 11⟩], none, #[4]⟩,
      ⟨15, .subrangeType, false, [⟨.count, ⟨0x0b⟩, .unsigned 2⟩], some 3, #[]⟩]

def structureFirst : TypeSource :=
  { units := ⟨[structureFirstUnit]⟩, sections := default, settings := default }

/-- Laid out in front of the structure, the array has the size of two structures. -/
theorem arrayFirst_sized : (arrayFirst.build.node 1).byteSize = some 16 := by
  have known : arrayFirst.build.idAt? 11 = some 1 := by decide +kernel
  have found : arrayFirst.units.entry? 11 =
      some ⟨arrayFirstUnit, 0, arrayFirstUnit.entries[0]⟩ := by decide +kernel
  obtain ⟨element, _, kind, _, complete⟩ := build_arraySize arrayFirst known found rfl rfl
  have node : (arrayFirst.build.node 1).kind = .array 2 [⟨0, some 2⟩] := by decide +kernel
  have product : wordSize? (arrayFirst.build.sizeOf? 2) [⟨0, some 2⟩] = some 16 := by decide +kernel
  obtain ⟨rfl, dimensions⟩ := TypeKind.array.inj (node.symm.trans kind)
  rw [← dimensions, product] at complete
  have first : arrayFirst.Foremost 11 := ⟨[], [13, 15], by decide +kernel, List.forall_mem_nil _⟩
  obtain size | ⟨_, zero, _⟩ := complete (.inr first)
  · exact size
  · cases zero

/-- Laid out behind the structure, the array has no size, although that of the structure is known
and the product fits. -/
theorem structureFirst_unsized :
    structureFirst.build.idAt? 14 = some 3 ∧
      (structureFirst.build.node 3).kind = .array 1 [⟨0, some 2⟩] ∧
      structureFirst.build.sizeOf? 1 = some 8 ∧
      wordSize? (structureFirst.build.sizeOf? 1) [⟨0, some 2⟩] = some 16 ∧
      (structureFirst.build.node 3).byteSize = none := by
  refine ⟨?_, ?_, ?_, ?_, ?_⟩ <;> decide +kernel

end TypeSource

end Dwarf
