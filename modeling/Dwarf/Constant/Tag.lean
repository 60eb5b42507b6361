/-! # Entry tags

The tag of a debugging information entry says what kind of thing the entry describes. Tags are
16-bit codes; the standard and the vendors give names to some of them, and messages use these. -/

namespace Dwarf

/-- The tag of an entry. Any 16-bit code may occur. -/
structure Tag where
  code : UInt16
  deriving DecidableEq, Repr, Inhabited

namespace Tag

@[match_pattern] def arrayType : Tag := ⟨0x0001⟩
@[match_pattern] def classType : Tag := ⟨0x0002⟩
@[match_pattern] def enumerationType : Tag := ⟨0x0004⟩
@[match_pattern] def formalParameter : Tag := ⟨0x0005⟩
@[match_pattern] def lexicalBlock : Tag := ⟨0x000b⟩
@[match_pattern] def member : Tag := ⟨0x000d⟩
@[match_pattern] def pointerType : Tag := ⟨0x000f⟩
@[match_pattern] def referenceType : Tag := ⟨0x0010⟩
@[match_pattern] def compileUnit : Tag := ⟨0x0011⟩
@[match_pattern] def stringType : Tag := ⟨0x0012⟩
@[match_pattern] def structureType : Tag := ⟨0x0013⟩
@[match_pattern] def subroutineType : Tag := ⟨0x0015⟩
@[match_pattern] def typedef : Tag := ⟨0x0016⟩
@[match_pattern] def unionType : Tag := ⟨0x0017⟩
@[match_pattern] def unspecifiedParameters : Tag := ⟨0x0018⟩
@[match_pattern] def inheritance : Tag := ⟨0x001c⟩
@[match_pattern] def ptrToMemberType : Tag := ⟨0x001f⟩
@[match_pattern] def setType : Tag := ⟨0x0020⟩
@[match_pattern] def subrangeType : Tag := ⟨0x0021⟩
@[match_pattern] def baseType : Tag := ⟨0x0024⟩
@[match_pattern] def constType : Tag := ⟨0x0026⟩
@[match_pattern] def enumerator : Tag := ⟨0x0028⟩
@[match_pattern] def fileType : Tag := ⟨0x0029⟩
@[match_pattern] def packedType : Tag := ⟨0x002d⟩
@[match_pattern] def subprogram : Tag := ⟨0x002e⟩
@[match_pattern] def variableEntry : Tag := ⟨0x0034⟩
@[match_pattern] def volatileType : Tag := ⟨0x0035⟩
@[match_pattern] def restrictType : Tag := ⟨0x0037⟩
@[match_pattern] def interfaceType : Tag := ⟨0x0038⟩
@[match_pattern] def unspecifiedType : Tag := ⟨0x003b⟩
@[match_pattern] def sharedType : Tag := ⟨0x0040⟩
@[match_pattern] def rvalueReferenceType : Tag := ⟨0x0042⟩
@[match_pattern] def atomicType : Tag := ⟨0x0047⟩

/-- Codes with a name, in ascending order. -/
def names : List (UInt16 × String) :=
  [
    (0x0000, "null"), (0x0001, "array_type"), (0x0002, "class_type"), (0x0003, "entry_point"),
    (0x0004, "enumeration_type"), (0x0005, "formal_parameter"), (0x0006, "global_subroutine"),
    (0x0007, "global_variable"), (0x0008, "imported_declaration"), (0x000a, "label"),
    (0x000b, "lexical_block"), (0x000c, "local_variable"), (0x000d, "member"),
    (0x000f, "pointer_type"), (0x0010, "reference_type"), (0x0011, "compile_unit"),
    (0x0012, "string_type"), (0x0013, "structure_type"), (0x0014, "subroutine"),
    (0x0015, "subroutine_type"), (0x0016, "typedef"), (0x0017, "union_type"),
    (0x0018, "unspecified_parameters"), (0x0019, "variant"), (0x001a, "common_block"),
    (0x001b, "common_inclusion"), (0x001c, "inheritance"), (0x001d, "inlined_subroutine"),
    (0x001e, "module"), (0x001f, "ptr_to_member_type"), (0x0020, "set_type"),
    (0x0021, "subrange_type"), (0x0022, "with_stmt"), (0x0023, "access_declaration"),
    (0x0024, "base_type"), (0x0025, "catch_block"), (0x0026, "const_type"), (0x0027, "constant"),
    (0x0028, "enumerator"), (0x0029, "file_type"), (0x002a, "friend"), (0x002b, "namelist"),
    (0x002c, "namelist_item"), (0x002d, "packed_type"), (0x002e, "subprogram"),
    (0x002f, "template_type_parameter"), (0x0030, "template_value_parameter"),
    (0x0031, "thrown_type"), (0x0032, "try_block"), (0x0033, "variant_part"), (0x0034, "variable"),
    (0x0035, "volatile_type"), (0x0036, "dwarf_procedure"), (0x0037, "restrict_type"),
    (0x0038, "interface_type"), (0x0039, "namespace"), (0x003a, "imported_module"),
    (0x003b, "unspecified_type"), (0x003c, "partial_unit"), (0x003d, "imported_unit"),
    (0x003f, "condition"), (0x0040, "shared_type"), (0x0041, "type_unit"),
    (0x0042, "rvalue_reference_type"), (0x0043, "template_alias"), (0x0044, "coarray_type"),
    (0x0045, "generic_subrange"), (0x0046, "dynamic_type"), (0x0047, "atomic_type"),
    (0x0048, "call_site"), (0x0049, "call_site_parameter"), (0x004a, "skeleton_unit"),
    (0x004b, "immutable_type"), (0x4080, "lo_user"), (0x4081, "MIPS_loop"),
    (0x4090, "HP_array_descriptor"), (0x4091, "HP_Bliss_field"), (0x4092, "HP_Bliss_field_set"),
    (0x4101, "format_label"), (0x4102, "function_template"), (0x4103, "class_template"),
    (0x4104, "GNU_BINCL"), (0x4105, "GNU_EINCL"), (0x4106, "GNU_template_template_param"),
    (0x4107, "GNU_template_parameter_pack"), (0x4108, "GNU_formal_parameter_pack"),
    (0x4109, "GNU_call_site"), (0x410a, "GNU_call_site_parameter"), (0x4200, "APPLE_property"),
    (0x4201, "SUN_function_template"), (0x4202, "SUN_class_template"),
    (0x4203, "SUN_struct_template"), (0x4204, "SUN_union_template"),
    (0x4205, "SUN_indirect_inheritance"), (0x4206, "SUN_codeflags"), (0x4207, "SUN_memop_info"),
    (0x4208, "SUN_omp_child_func"), (0x4209, "SUN_rtti_descriptor"), (0x420a, "SUN_dtor_info"),
    (0x420b, "SUN_dtor"), (0x420c, "SUN_f90_interface"), (0x420d, "SUN_fortran_vax_structure"),
    (0x5101, "ALTIUM_circ_type"), (0x5102, "ALTIUM_mwa_circ_type"),
    (0x5103, "ALTIUM_rev_carry_type"), (0x5111, "ALTIUM_rom"), (0x8765, "upc_shared_type"),
    (0x8766, "upc_strict_type"), (0x8767, "upc_relaxed_type"), (0xa000, "PGI_kanji_type"),
    (0xa020, "PGI_interface_block"), (0xb000, "BORLAND_property"),
    (0xb001, "BORLAND_Delphi_string"), (0xb002, "BORLAND_Delphi_dynamic_array"),
    (0xb003, "BORLAND_Delphi_set"), (0xb004, "BORLAND_Delphi_variant"), (0xffff, "hi_user") ]

/-- The name of a tag in messages. -/
def text (tag : Tag) : String :=
  match names.lookup tag.code with
  | some name => "DW_TAG_" ++ name
  | none => "Unknown DwTag: " ++ toString tag.code.toNat

end Tag

end Dwarf
