/-! # Section names

The sections that debug information is spread over. -/

namespace Dwarf

/-- A section that holds debug information. -/
inductive SectionId where
  | abbreviations
  | info
  | line
  | loc
  | ranges
  | str
  | frame
  | ehFrame
  | types
  deriving DecidableEq, Repr, Inhabited

namespace SectionId

/-- Every section. -/
def all : List SectionId :=
  [abbreviations, info, line, loc, ranges, str, frame, ehFrame, types]

/-- The name of a section, with the leading dot. -/
def name : SectionId → String
  | abbreviations => ".debug_abbrev"
  | info => ".debug_info"
  | line => ".debug_line"
  | loc => ".debug_loc"
  | ranges => ".debug_ranges"
  | str => ".debug_str"
  | frame => ".debug_frame"
  | ehFrame => ".eh_frame"
  | types => ".debug_types"

/-- The section of a given name. -/
def ofName? (text : String) : Option SectionId :=
  all.find? fun id => id.name == text

end SectionId

end Dwarf
