/-! # Attribute names

An attribute name says what a value of an entry means. Names are 16-bit codes; the standard and
the vendors give a spelling to some of them, and messages use these. -/

namespace Dwarf

/-- The name of an attribute. Any 16-bit code may occur. -/
structure AttributeName where
  code : UInt16
  deriving DecidableEq, Repr, Inhabited

namespace AttributeName

@[match_pattern] def sibling : AttributeName := ⟨0x0001⟩
@[match_pattern] def location : AttributeName := ⟨0x0002⟩
@[match_pattern] def name : AttributeName := ⟨0x0003⟩
@[match_pattern] def byteSize : AttributeName := ⟨0x000b⟩
@[match_pattern] def bitOffset : AttributeName := ⟨0x000c⟩
@[match_pattern] def bitSize : AttributeName := ⟨0x000d⟩
@[match_pattern] def stmtList : AttributeName := ⟨0x0010⟩
@[match_pattern] def lowPc : AttributeName := ⟨0x0011⟩
@[match_pattern] def highPc : AttributeName := ⟨0x0012⟩
@[match_pattern] def language : AttributeName := ⟨0x0013⟩
@[match_pattern] def imported : AttributeName := ⟨0x0018⟩
@[match_pattern] def stringLength : AttributeName := ⟨0x0019⟩
@[match_pattern] def compDir : AttributeName := ⟨0x001b⟩
@[match_pattern] def constValue : AttributeName := ⟨0x001c⟩
@[match_pattern] def containingType : AttributeName := ⟨0x001d⟩
@[match_pattern] def inline : AttributeName := ⟨0x0020⟩
@[match_pattern] def lowerBound : AttributeName := ⟨0x0022⟩
@[match_pattern] def producer : AttributeName := ⟨0x0025⟩
@[match_pattern] def prototyped : AttributeName := ⟨0x0027⟩
@[match_pattern] def returnAddr : AttributeName := ⟨0x002a⟩
@[match_pattern] def upperBound : AttributeName := ⟨0x002f⟩
@[match_pattern] def abstractOrigin : AttributeName := ⟨0x0031⟩
@[match_pattern] def accessibility : AttributeName := ⟨0x0032⟩
@[match_pattern] def artificial : AttributeName := ⟨0x0034⟩
@[match_pattern] def callingConvention : AttributeName := ⟨0x0036⟩
@[match_pattern] def count : AttributeName := ⟨0x0037⟩
@[match_pattern] def dataMemberLocation : AttributeName := ⟨0x0038⟩
@[match_pattern] def declColumn : AttributeName := ⟨0x0039⟩
@[match_pattern] def declFile : AttributeName := ⟨0x003a⟩
@[match_pattern] def declLine : AttributeName := ⟨0x003b⟩
@[match_pattern] def declaration : AttributeName := ⟨0x003c⟩
@[match_pattern] def encoding : AttributeName := ⟨0x003e⟩
@[match_pattern] def external : AttributeName := ⟨0x003f⟩
@[match_pattern] def frameBase : AttributeName := ⟨0x0040⟩
@[match_pattern] def macroInfo : AttributeName := ⟨0x0043⟩
@[match_pattern] def specification : AttributeName := ⟨0x0047⟩
@[match_pattern] def type : AttributeName := ⟨0x0049⟩
@[match_pattern] def virtuality : AttributeName := ⟨0x004c⟩
@[match_pattern] def ranges : AttributeName := ⟨0x0055⟩
@[match_pattern] def mainSubprogram : AttributeName := ⟨0x006a⟩
@[match_pattern] def dataBitOffset : AttributeName := ⟨0x006b⟩
@[match_pattern] def linkageName : AttributeName := ⟨0x006e⟩
@[match_pattern] def mipsLinkageName : AttributeName := ⟨0x2007⟩

/-- Codes with a spelling, in ascending order. -/
def names : List (UInt16 × String) :=
  [
    (0x0000, "null"), (0x0001, "sibling"), (0x0002, "location"), (0x0003, "name"),
    (0x0005, "fund_type"), (0x0006, "mod_fund_type"), (0x0007, "user_def_type"),
    (0x0008, "mod_u_d_type"), (0x0009, "ordering"), (0x000a, "subscr_data"), (0x000b, "byte_size"),
    (0x000c, "bit_offset"), (0x000d, "bit_size"), (0x000f, "element_list"), (0x0010, "stmt_list"),
    (0x0011, "low_pc"), (0x0012, "high_pc"), (0x0013, "language"), (0x0014, "member"),
    (0x0015, "discr"), (0x0016, "discr_value"), (0x0017, "visibility"), (0x0018, "import"),
    (0x0019, "string_length"), (0x001a, "common_reference"), (0x001b, "comp_dir"),
    (0x001c, "const_value"), (0x001d, "containing_type"), (0x001e, "default_value"),
    (0x001f, "friends"), (0x0020, "inline"), (0x0021, "is_optional"), (0x0022, "lower_bound"),
    (0x0023, "program"), (0x0024, "private"), (0x0025, "producer"), (0x0026, "protected"),
    (0x0027, "prototyped"), (0x0028, "public"), (0x0029, "pure_virtual"), (0x002a, "return_addr"),
    (0x002b, "specification_v1"), (0x002c, "start_scope"), (0x002e, "bit_stride"),
    (0x002f, "upper_bound"), (0x0030, "virtual"), (0x0031, "abstract_origin"),
    (0x0032, "accessibility"), (0x0033, "address_class"), (0x0034, "artificial"),
    (0x0035, "base_types"), (0x0036, "calling_convention"), (0x0037, "count"),
    (0x0038, "data_member_location"), (0x0039, "decl_column"), (0x003a, "decl_file"),
    (0x003b, "decl_line"), (0x003c, "declaration"), (0x003d, "discr_list"), (0x003e, "encoding"),
    (0x003f, "external"), (0x0040, "frame_base"), (0x0041, "friend"), (0x0042, "identifier_case"),
    (0x0043, "macro_info"), (0x0044, "namelist_item"), (0x0045, "priority"), (0x0046, "segment"),
    (0x0047, "specification"), (0x0048, "static_link"), (0x0049, "type"), (0x004a, "use_location"),
    (0x004b, "variable_parameter"), (0x004c, "virtuality"), (0x004d, "vtable_elem_location"),
    (0x004e, "allocated"), (0x004f, "associated"), (0x0050, "data_location"),
    (0x0051, "byte_stride"), (0x0052, "entry_pc"), (0x0053, "use_UTF8"), (0x0054, "extension"),
    (0x0055, "ranges"), (0x0056, "trampoline"), (0x0057, "call_column"), (0x0058, "call_file"),
    (0x0059, "call_line"), (0x005a, "description"), (0x005b, "binary_scale"),
    (0x005c, "decimal_scale"), (0x005d, "small"), (0x005e, "decimal_sign"),
    (0x005f, "digit_count"), (0x0060, "picture_string"), (0x0061, "mutable"),
    (0x0062, "threads_scaled"), (0x0063, "explicit"), (0x0064, "object_pointer"),
    (0x0065, "endianity"), (0x0066, "elemental"), (0x0067, "pure"), (0x0068, "recursive"),
    (0x0069, "signature"), (0x006a, "main_subprogram"), (0x006b, "data_bit_offset"),
    (0x006c, "const_expr"), (0x006d, "enum_class"), (0x006e, "linkage_name"),
    (0x006f, "string_length_bit_size"), (0x0070, "string_length_byte_size"), (0x0071, "rank"),
    (0x0072, "str_offsets_base"), (0x0073, "addr_base"), (0x0074, "rnglists_base"),
    (0x0076, "dwo_name"), (0x0077, "reference"), (0x0078, "rvalue_reference"), (0x0079, "macros"),
    (0x007a, "call_all_calls"), (0x007b, "call_all_source_calls"), (0x007c, "call_all_tail_calls"),
    (0x007d, "call_return_pc"), (0x007e, "call_value"), (0x007f, "call_origin"),
    (0x0080, "call_parameter"), (0x0081, "call_pc"), (0x0082, "call_tail_call"),
    (0x0083, "call_target"), (0x0084, "call_target_clobbered"), (0x0085, "call_data_location"),
    (0x0086, "call_data_value"), (0x0087, "noreturn"), (0x0088, "alignment"),
    (0x0089, "export_symbols"), (0x008a, "deleted"), (0x008b, "defaulted"),
    (0x008c, "loclists_base"), (0x2000, "lo_user"), (0x2001, "MIPS_fde"),
    (0x2002, "MIPS_loop_begin"), (0x2003, "MIPS_tail_loop_begin"), (0x2004, "MIPS_epilog_begin"),
    (0x2005, "MIPS_loop_unroll_factor"), (0x2006, "MIPS_software_pipeline_depth"),
    (0x2007, "MIPS_linkage_name"), (0x2008, "MIPS_stride"), (0x2009, "MIPS_abstract_name"),
    (0x200a, "MIPS_clone_origin"), (0x200b, "MIPS_has_inlines"), (0x200c, "MIPS_stride_byte"),
    (0x200d, "MIPS_stride_elem"), (0x200e, "MIPS_ptr_dopetype"),
    (0x200f, "MIPS_allocatable_dopetype"), (0x2010, "MIPS_assumed_shape_dopetype"),
    (0x2011, "MIPS_assumed_size"), (0x2026, "INTEL_other_endian"), (0x2101, "sf_names"),
    (0x2102, "src_info"), (0x2103, "mac_info"), (0x2104, "src_coords"), (0x2105, "body_begin"),
    (0x2106, "body_end"), (0x2107, "GNU_vector"), (0x2108, "GNU_guarded_by"),
    (0x2109, "GNU_pt_guarded_by"), (0x210a, "GNU_guarded"), (0x210b, "GNU_pt_guarded"),
    (0x210c, "GNU_locks_excluded"), (0x210d, "GNU_exclusive_locks_required"),
    (0x210e, "GNU_shared_locks_required"), (0x210f, "GNU_odr_signature"),
    (0x2110, "GNU_template_name"), (0x2111, "GNU_call_site_value"),
    (0x2112, "GNU_call_site_data_value"), (0x2113, "GNU_call_site_target"),
    (0x2114, "GNU_call_site_target_clobbered"), (0x2115, "GNU_tail_call"),
    (0x2116, "GNU_all_tail_call_sites"), (0x2117, "GNU_all_call_sites"),
    (0x2118, "GNU_all_source_call_sites"), (0x2119, "GNU_macros"), (0x211a, "GNU_deleted"),
    (0x2130, "GNU_dwo_name"), (0x2131, "GNU_dwo_id"), (0x2132, "GNU_ranges_base"),
    (0x2133, "GNU_addr_base"), (0x2134, "GNU_pubnames"), (0x2135, "GNU_pubtypes"),
    (0x2136, "GNU_discriminator"), (0x2137, "GNU_locviews"), (0x2138, "GNU_entry_view"),
    (0x2201, "SUN_template"), (0x2202, "SUN_alignment"), (0x2203, "SUN_vtable"),
    (0x2204, "SUN_count_guarantee"), (0x2205, "SUN_command_line"), (0x2206, "SUN_vbase"),
    (0x2207, "SUN_compile_options"), (0x2208, "SUN_language"), (0x2209, "SUN_browser_file"),
    (0x2210, "SUN_vtable_abi"), (0x2211, "SUN_func_offsets"), (0x2212, "SUN_cf_kind"),
    (0x2213, "SUN_vtable_index"), (0x2214, "SUN_omp_tpriv_addr"), (0x2215, "SUN_omp_child_func"),
    (0x2216, "SUN_func_offset"), (0x2217, "SUN_memop_type_ref"), (0x2218, "SUN_profile_id"),
    (0x2219, "SUN_memop_signature"), (0x2220, "SUN_obj_dir"), (0x2221, "SUN_obj_file"),
    (0x2222, "SUN_original_name"), (0x2223, "SUN_hwcprof_signature"),
    (0x2224, "SUN_amd64_parmdump"), (0x2225, "SUN_part_link_name"), (0x2226, "SUN_link_name"),
    (0x2227, "SUN_pass_with_const"), (0x2228, "SUN_return_with_const"),
    (0x2229, "SUN_import_by_name"), (0x222a, "SUN_f90_pointer"), (0x222b, "SUN_pass_by_ref"),
    (0x222c, "SUN_f90_allocatable"), (0x222d, "SUN_f90_assumed_shape_array"),
    (0x222e, "SUN_c_vla"), (0x2230, "SUN_return_value_ptr"), (0x2231, "SUN_dtor_start"),
    (0x2232, "SUN_dtor_length"), (0x2233, "SUN_dtor_state_initial"),
    (0x2234, "SUN_dtor_state_final"), (0x2235, "SUN_dtor_state_deltas"),
    (0x2236, "SUN_import_by_lname"), (0x2237, "SUN_f90_use_only"), (0x2238, "SUN_namelist_spec"),
    (0x2239, "SUN_is_omp_child_func"), (0x223a, "SUN_fortran_main_alias"),
    (0x223b, "SUN_fortran_based"), (0x2300, "ALTIUM_loclist"),
    (0x2301, "use_GNAT_descriptive_type"), (0x2302, "GNAT_descriptive_type"),
    (0x2303, "GNU_numerator"), (0x2304, "GNU_denominator"), (0x2305, "GNU_bias"),
    (0x3210, "upc_threads_scaled"), (0x3a00, "PGI_lbase"), (0x3a01, "PGI_soffset"),
    (0x3a02, "PGI_lstride"), (0x3b11, "BORLAND_property_read"), (0x3b12, "BORLAND_property_write"),
    (0x3b13, "BORLAND_property_implements"), (0x3b14, "BORLAND_property_index"),
    (0x3b15, "BORLAND_property_default"), (0x3b20, "BORLAND_Delphi_unit"),
    (0x3b21, "BORLAND_Delphi_class"), (0x3b22, "BORLAND_Delphi_record"),
    (0x3b23, "BORLAND_Delphi_metaclass"), (0x3b24, "BORLAND_Delphi_constructor"),
    (0x3b25, "BORLAND_Delphi_destructor"), (0x3b26, "BORLAND_Delphi_anonymous_method"),
    (0x3b27, "BORLAND_Delphi_interface"), (0x3b28, "BORLAND_Delphi_ABI"),
    (0x3b29, "BORLAND_Delphi_return"), (0x3b30, "BORLAND_Delphi_frameptr"),
    (0x3b31, "BORLAND_closure"), (0x3e00, "LLVM_include_path"), (0x3e01, "LLVM_config_macros"),
    (0x3e02, "LLVM_isysroot"), (0x3fe1, "APPLE_optimized"), (0x3fe2, "APPLE_flags"),
    (0x3fe3, "APPLE_isa"), (0x3fe4, "APPLE_block"), (0x3fe5, "APPLE_major_runtime_vers"),
    (0x3fe6, "APPLE_runtime_class"), (0x3fe7, "APPLE_omit_frame_ptr"),
    (0x3fe8, "APPLE_property_name"), (0x3fe9, "APPLE_property_getter"),
    (0x3fea, "APPLE_property_setter"), (0x3feb, "APPLE_property_attribute"),
    (0x3fec, "APPLE_objc_complete_type"), (0x3fed, "APPLE_property"), (0x3fff, "hi_user") ]

/-- The spelling of an attribute name in messages. -/
def text (name : AttributeName) : String :=
  match names.lookup name.code with
  | some spelling => "DW_AT_" ++ spelling
  | none => "Unknown DwAt: " ++ toString name.code.toNat

end AttributeName

end Dwarf
