import Mathlib.Data.List.Sort
import Dwarf.Proofs.Frame.Entry

/-!
# The two formats of call frame information

The same entries, laid out in the section for debuggers and in the section that is loaded with the
program, make the same table.  Walking through either section comes to every entry in its place, and
every function finds its common entry, whether it names its offset or the distance back to it.  The
rows of the functions depend on the section through the byte order only.
-/

namespace Dwarf

open Decoder

namespace FrameKind

theorem classify_commonMark (kind : FrameKind) (place : Nat) :
    (FrameEntry.classify kind place kind.commonMark 4).1 = true := by
  cases kind <;> rfl

theorem commonMark_lt (kind : FrameKind) : kind.commonMark < 256 ^ 4 := by
  cases kind <;> decide

variable {offset named : Nat} (earlier : named ≤ offset) (nameable : named < 0xffffffff)
  (near : offset + 4 - named < 0x100000000)
include earlier nameable near

/-- The mark of a function leads to its common entry. -/
theorem classify_functionMark (kind : FrameKind) :
    FrameEntry.classify kind (offset + 4) (kind.functionMark offset named) 4 = (false, named) := by
  cases kind with
  | debug =>
      have other : (named == 0xffffffff) = false := by
        rw [beq_eq_false_iff_ne]
        omega
      exact Prod.ext other rfl
  | exception =>
      have other : (offset + 4 - named == 0) = false := by
        rw [beq_eq_false_iff_ne]
        omega
      refine Prod.ext other ?_
      change (offset + 4 + (UInt64.size - (offset + 4 - named))) % UInt64.size = named
      have wrapped : offset + 4 + (UInt64.size - (offset + 4 - named)) = named + UInt64.size := by
        unfold UInt64.size
        omega
      rw [wrapped, Nat.add_mod_right]
      exact Nat.mod_eq_of_lt (Nat.lt_trans nameable (by decide))

omit earlier in
theorem functionMark_lt (kind : FrameKind) : kind.functionMark offset named < 256 ^ 4 := by
  cases kind with
  | debug => exact Nat.lt_trans nameable (by decide)
  | exception => exact near

end FrameKind

namespace FrameEntry

variable {origin : FrameSection}

/-- The walk through a section comes to an entry and goes on behind it. -/
theorem framesFrom_framed {data before contents after : List UInt8} {number : Nat}
    (small : 4 + contents.length < 0xffffffff) (narrow : number < 256 ^ 4)
    (split : data = before ++ (origin.framed number contents ++ after)) :
    ∃ body : Cursor, body.Under origin.encoding ∧ body.rest = contents ∧
      body.offset = before.length + 8 ∧
        let frame : FrameEntry := ⟨before.length,
          (classify origin.kind (before.length + 4) number 4).1,
          (classify origin.kind (before.length + 4) number 4).2, body,
          before.length + (origin.framed number contents).length⟩
        FrameEntry.frame origin data before.length = .ok (some frame) ∧
          framesFrom origin data before.length = (before.length, .ok frame) ::
            framesFrom origin data (before ++ origin.framed number contents).length := by
  obtain ⟨body, found, under, rest, offset⟩ :=
    @frame_framed origin before contents after number small narrow
  rw [← split] at found
  have length := origin.framed_length number contents
  have inside : before.length < data.length := by
    rw [split, List.length_append, List.length_append, length]
    omega
  refine ⟨body, under, rest, offset, found, ?_⟩
  rw [framesFrom, if_pos inside, found]
  dsimp only
  rw [if_pos (by omega), List.length_append]

theorem framesFrom_terminator (origin : FrameSection) (before : List UInt8) :
    framesFrom origin (before ++ origin.kind.terminator) before.length = [] := by
  rw [framesFrom]
  cases kind : origin.kind with
  | debug => rw [if_neg (by simp [FrameKind.terminator])]
  | exception =>
      have ended := frame_terminator before [] kind
      rw [List.append_nil] at ended
      rw [if_pos (by simp [FrameKind.terminator]), FrameKind.terminator, ended]

end FrameEntry

/-! ## Sections of one byte order -/

namespace FrameMachine

variable {origin other : FrameSection} (order_eq : other.order = origin.order)
include order_eq

theorem close_section (machine : FrameMachine) (entry : FunctionEntry) (stop : UInt64) :
    machine.close other entry stop = machine.close origin entry stop := by
  simp only [close, encoding, order_eq]

theorem step_section (machine : FrameMachine) (entry : FunctionEntry) (initial : Option RuleSet)
    (place : Nat) (instruction : FrameInstruction) :
    machine.step other entry initial place instruction =
      machine.step origin entry initial place instruction := by
  cases instruction <;> simp only [step, moveTo, close_section order_eq]

namespace Replay

/-- Where locations are absolute, a function has the same rows in all sections of one byte order. -/
theorem rows_section {entry : FunctionEntry}
    (absolute : ¬entry.common.added.pointerEncoding.IsRelative) (budget : Nat) :
    rows ⟨other, entry, budget⟩ = rows ⟨origin, entry, budget⟩ := by
  have decoded :=
    @FrameInstruction.decode_section (reader ⟨origin, entry, budget⟩) absolute other order_eq
  have passes : pass ⟨other, entry, budget⟩ = pass ⟨origin, entry, budget⟩ := by
    funext initial machine
    simp only [pass, step_section order_eq]
    rw [← decoded]
    rfl
  have runs : run ⟨other, entry, budget⟩ = run ⟨origin, entry, budget⟩ := by
    funext initial instructions offset machine
    unfold run
    rw [passes]
    dsimp only
    rw [order_eq]
  simp only [rows, runs, close_section order_eq]

end Replay

end FrameMachine

/-! ## Functions that are laid out -/

namespace FrameDescription

/-- The functions that are laid out in a section, in the order of the section. -/
def functions (addressSize : Nat) (descriptions : List FrameDescription) : List FunctionEntry :=
  (place addressSize 0 [] descriptions).filterMap PlacedFrame.function?

/-- The functions that are laid out have common entries without augmentation. -/
theorem place_plain {addressSize offset : Nat} {known : List CommonEntry}
    (plain : ∀ common ∈ known, common.added = {}) (descriptions : List FrameDescription) :
    ∀ function ∈ (place addressSize offset known descriptions).filterMap PlacedFrame.function?,
      function.common.added = {} := by
  induction descriptions generalizing offset known with
  | nil => exact List.forall_mem_nil _
  | cons description rest ih =>
      cases description with
      | common description =>
          rw [place, List.filterMap_cons]
          refine ih fun common member => ?_
          rcases List.mem_append.mp member with old | last
          · exact plain common old
          · rw [List.mem_singleton.mp last]
            rfl
      | function description =>
          rw [place, List.filterMap_append, List.forall_mem_append]
          refine ⟨?_, ih plain⟩
          cases found : known[description.common]? with
          | none => exact List.forall_mem_nil _
          | some common =>
              intro function member
              rw [List.mem_singleton.mp member]
              exact plain common (List.mem_of_getElem? found)

end FrameDescription

open FrameDescription (place CommonsPrecede)

namespace FrameTable

variable {origin : FrameSection} {data : List UInt8}

/-! ## Common entries -/

/-- The section has a common entry at its offset. -/
def StoresCommon (origin : FrameSection) (data : List UInt8) (common : CommonEntry) : Prop :=
  ∃ frame, FrameEntry.frame origin data common.offset = .ok (some frame) ∧
    frame.isCommon = true ∧ CommonEntry.decode origin frame = .ok common

theorem StoresCommon.unique {common other : CommonEntry} (stores : StoresCommon origin data common)
    (other_stores : StoresCommon origin data other) (same : other.offset = common.offset) :
    other = common := by
  obtain ⟨frame, found, _, decoded⟩ := stores
  obtain ⟨again, other_found, _, other_decoded⟩ := other_stores
  rw [same, found] at other_found
  cases other_found
  exact Except.ok.inj (other_decoded.symm.trans decoded)

/-- A common entry of the section is found, whether it is known or has to be decoded. -/
theorem common_eq {known : List CommonEntry} {common : CommonEntry}
    (known_stored : ∀ other ∈ known, StoresCommon origin data other)
    (stores : StoresCommon origin data common) (entry : Nat) :
    FrameTable.common origin data known entry common.offset = .ok common := by
  unfold FrameTable.common
  split
  next other found =>
    have same : other.offset = common.offset := by simpa using List.find?_some found
    rw [stores.unique (known_stored other (List.mem_of_find?_eq_some found)) same]
  next =>
    obtain ⟨frame, found, is_common, decoded⟩ := stores
    rw [found, ok_bind]
    simp only [is_common, if_true]
    exact decoded

theorem mem_keep {common other : CommonEntry} {known : List CommonEntry}
    (member : other ∈ keep common known) : other = common ∨ other ∈ known := by
  induction known with
  | nil => exact .inl (List.mem_singleton.mp member)
  | cons first rest ih =>
      unfold keep at member
      split at member
      · exact List.mem_cons.mp member
      · split at member
        · exact .inr member
        · rcases List.mem_cons.mp member with rfl | later
          · exact .inr (List.mem_cons_self ..)
          · exact (ih later).imp_right (List.mem_cons_of_mem _)

/-! ## Walking through a section -/

/-- The table with one more function and its common entry. -/
def hold (table : FrameTable) (function : FunctionEntry) : FrameTable :=
  { table with
    commons := keep function.common table.commons
    functions := table.functions ++ [function] }

theorem add_common {frame : FrameEntry} (is_common : frame.isCommon = true) (table : FrameTable)
    (offset : Nat) : add data table (offset, .ok frame) = table := by
  simp only [add, is_common, if_true]

theorem add_function {table : FrameTable} {frame : FrameEntry} {function : FunctionEntry}
    (is_function : frame.isCommon = false)
    (named : FrameTable.common table.origin data table.commons frame.offset frame.commonOffset =
      .ok function.common)
    (decoded : FunctionEntry.decode table.origin function.common frame = .ok function)
    (offset : Nat) : add data table (offset, .ok frame) = table.hold function := by
  simp only [add, is_function, Bool.false_eq_true, if_false, named, decoded, hold]

theorem foldl_hold (functions : List FunctionEntry) (table : FrameTable) :
    functions.foldl hold table = { table with
      commons := functions.foldl (fun known function => keep function.common known) table.commons
      functions := table.functions ++ functions } := by
  induction functions generalizing table with
  | nil => rw [List.foldl_nil, List.foldl_nil, List.append_nil]
  | cons function rest ih =>
      rw [List.foldl_cons, ih, List.foldl_cons, hold, List.append_assoc]
      rfl

/-- A common entry that stands before the place of a walk, where the functions that follow can name
it. -/
structure Passed (origin : FrameSection) (data : List UInt8) (place : Nat) (common : CommonEntry) :
    Prop where
  stores : StoresCommon origin data common
  before : common.offset ≤ place
  addressSize_eq : common.addressSize = origin.addressSize
  plain : common.added = {} ∧ common.hasData = false

theorem Passed.mono {place later : Nat} {common : CommonEntry}
    (passed : Passed origin data place common) (le : place ≤ later) :
    Passed origin data later common :=
  { passed with before := passed.before.trans le }

/-- The walk passes a common entry, which leaves the table as it is. -/
theorem foldl_common {before after : List UInt8} {description : CommonDescription}
    (small : 4 + description.contents.length < 0xffffffff)
    (split : data = before ++ (origin.framed origin.kind.commonMark description.contents ++ after))
    (table : FrameTable) :
    StoresCommon origin data (description.entry before.length origin.addressSize) ∧
      (FrameEntry.framesFrom origin data before.length).foldl (add data) table =
        (FrameEntry.framesFrom origin data (before ++
          origin.framed origin.kind.commonMark description.contents).length).foldl
            (add data) table := by
  obtain ⟨body, under, rest, offset, found, walk⟩ :=
    FrameEntry.framesFrom_framed small origin.kind.commonMark_lt split
  have is_common := origin.kind.classify_commonMark (before.length + 4)
  refine ⟨⟨_, found, is_common, description.decode_entry under rest offset⟩, ?_⟩
  rw [walk, List.foldl_cons, add_common is_common]

/-- The walk passes a function, whose common entry it has passed before. -/
theorem foldl_function (possible : origin.addressSize ∈ [1, 2, 4, 8]) {before after : List UInt8}
    {description : FunctionDescription} {common : CommonEntry}
    (storable : (PlacedFrame.function before.length common description).Storable origin.addressSize)
    (split : data = before ++ (origin.framed (origin.kind.functionMark before.length common.offset)
      (description.contents origin.order origin.addressSize) ++ after))
    (passed : Passed origin data before.length common) {table : FrameTable}
    (same : table.origin = origin)
    (stored : ∀ other ∈ table.commons, StoresCommon origin data other) :
    (FrameEntry.framesFrom origin data before.length).foldl (add data) table =
      (FrameEntry.framesFrom origin data (before ++
        origin.framed (origin.kind.functionMark before.length common.offset)
          (description.contents origin.order origin.addressSize)).length).foldl
            (add data) (table.hold (description.entry before.length common)) := by
  obtain ⟨small, ⟨start_fits, range_fits⟩, nameable, near⟩ := storable
  rw [← description.contents_length origin.order] at small
  obtain ⟨body, under, rest, offset, found, walk⟩ := FrameEntry.framesFrom_framed small
    (FrameKind.functionMark_lt nameable near origin.kind) split
  rw [FrameKind.classify_functionMark passed.before nameable near] at walk
  rw [walk, List.foldl_cons]
  congr 1
  refine add_function rfl ?_ ?_ _
  · rw [same]
    exact common_eq stored passed.stores before.length
  · rw [same]
    exact description.decode_entry possible passed.addressSize_eq passed.plain start_fits range_fits
      under rest offset

/-- The walk through what is left of a section holds the functions that are laid out there.  The
common entries that have been passed are in the section, whether the table knows them or not. -/
theorem foldl_framesFrom (possible : origin.addressSize ∈ [1, 2, 4, 8])
    {descriptions : List FrameDescription} {before : List UInt8} {known : List CommonEntry}
    {table : FrameTable}
    (split : data = before ++
      ((place origin.addressSize before.length known descriptions).flatMap origin.stored ++
        origin.kind.terminator))
    (precede : CommonsPrecede known.length descriptions)
    (storable : ∀ placed ∈ place origin.addressSize before.length known descriptions,
      placed.Storable origin.addressSize)
    (passed : ∀ common ∈ known, Passed origin data before.length common)
    (same : table.origin = origin)
    (stored : ∀ common ∈ table.commons, StoresCommon origin data common) :
    (FrameEntry.framesFrom origin data before.length).foldl (add data) table =
      ((place origin.addressSize before.length known descriptions).filterMap
        PlacedFrame.function?).foldl hold table := by
  induction descriptions generalizing before known table with
  | nil =>
      rw [split, place, List.flatMap_nil, List.nil_append, FrameEntry.framesFrom_terminator]
      rfl
  | cons description rest ih =>
      cases description with
      | common description =>
          rw [place] at split storable ⊢
          rw [List.flatMap_cons, List.append_assoc] at split
          rw [List.forall_mem_cons] at storable
          obtain ⟨new, walk⟩ := foldl_common storable.1 split table
          have next : before.length + 8 + description.contents.length =
              (before ++ origin.framed origin.kind.commonMark description.contents).length := by
            rw [List.length_append, FrameSection.framed_length, Nat.add_assoc]
          have onward : before.length ≤
              (before ++ origin.framed origin.kind.commonMark description.contents).length := by
            rw [List.length_append]
            exact Nat.le_add_right ..
          rw [walk, List.filterMap_cons]
          rw [next, ← List.append_assoc] at split
          rw [next] at storable ⊢
          refine ih split (by rw [List.length_append]; exact precede) storable.2
            (fun common member => ?_) same stored
          rcases List.mem_append.mp member with old | last
          · exact (passed common old).mono onward
          · rw [List.mem_singleton.mp last]
            exact ⟨new, onward, rfl, rfl, rfl⟩
      | function description =>
          obtain ⟨earlier, precede⟩ := precede
          have named := passed _ (List.getElem_mem earlier)
          rw [place, List.getElem?_eq_getElem earlier, Option.map_some, Option.toList_some,
            List.singleton_append] at split storable ⊢
          rw [List.flatMap_cons, List.append_assoc] at split
          rw [List.forall_mem_cons] at storable
          have walk := foldl_function possible storable.1 split named same stored
          have next : before.length + 8 +
                (2 * origin.addressSize + description.instructions.length) =
              (before ++ origin.framed (origin.kind.functionMark before.length
                known[description.common].offset)
                  (description.contents origin.order origin.addressSize)).length := by
            rw [List.length_append, FrameSection.framed_length, Nat.add_assoc,
              description.contents_length]
          rw [walk, List.filterMap_cons]
          rw [next, ← List.append_assoc] at split
          rw [next] at storable ⊢
          refine ih split precede storable.2
            (fun common member => (passed common member).mono (by rw [← next]; omega)) same ?_
          intro common member
          rcases mem_keep member with rfl | old
          · exact named.stores
          · exact stored common old

/-- The table of a section that has some functions, in this order. -/
def holding (origin : FrameSection) (budget : Nat) (functions : List FunctionEntry) :
    FrameTable where
  origin
  budget
  commons := functions.foldl (fun known function => keep function.common known) []
  functions := functions.mergeSort fun a b => a.start ≤ b.start
  errors := []

/-- The table of a section has exactly what is laid out in it. -/
theorem decode_encode (possible : origin.addressSize ∈ [1, 2, 4, 8])
    {descriptions : List FrameDescription} (precede : CommonsPrecede 0 descriptions)
    (storable : ∀ placed ∈ place origin.addressSize 0 [] descriptions,
      placed.Storable origin.addressSize) (budget : Nat) :
    decode (origin.encode descriptions) origin budget =
      holding origin budget (FrameDescription.functions origin.addressSize descriptions) := by
  have split : origin.encode descriptions = [] ++
      ((place origin.addressSize 0 [] descriptions).flatMap origin.stored ++
        origin.kind.terminator) := rfl
  have walk := @foldl_framesFrom _ _ possible descriptions [] [] ⟨origin, budget, [], [], []⟩ split
    precede storable (List.forall_mem_nil _) rfl (List.forall_mem_nil _)
  rw [foldl_hold] at walk
  unfold decode
  rw [show 0 = ([] : List UInt8).length from rfl, walk]
  rfl

/-! ## The rows of functions -/

theorem rows_holding {function : FunctionEntry} (absolute : function.common.added = {})
    {other : FrameSection} (order_eq : other.order = origin.order) (budget : Nat)
    (functions : List FunctionEntry) :
    (holding other budget functions).rows function =
      (holding origin budget functions).rows function :=
  FrameMachine.Replay.rows_section order_eq (by rw [absolute]; decide) budget

/-- One table answers as another one. -/
structure AnswersAs (table other : FrameTable) : Prop where
  errors_eq : table.errors = other.errors
  commons_eq : table.commons = other.commons
  functions_eq : table.functions = other.functions
  rows_eq : ∀ function ∈ other.functions, table.rows function = other.rows function
  unwindAt_eq : ∀ pc, table.unwindAt pc = other.unwindAt pc

theorem answersAs_holding {functions : List FunctionEntry}
    (plain : ∀ function ∈ functions, function.common.added = {}) {other : FrameSection}
    (order_eq : other.order = origin.order) (budget : Nat) :
    (holding other budget functions).AnswersAs (holding origin budget functions) := by
  have rows_eq : ∀ function ∈ (holding origin budget functions).functions,
      (holding other budget functions).rows function =
        (holding origin budget functions).rows function :=
    fun function member =>
      rows_holding (plain function (List.mem_mergeSort.mp member)) order_eq budget functions
  refine ⟨rfl, rfl, rfl, rows_eq, fun pc => ?_⟩
  have same : (holding other budget functions).functionFor? pc =
      (holding origin budget functions).functionFor? pc := rfl
  unfold unwindAt
  rw [same]
  cases found : (holding origin budget functions).functionFor? pc with
  | none => rfl
  | some function =>
      have member := List.mem_of_mem_take (List.mem_reverse.mp (List.mem_of_find?_eq_some found))
      dsimp only
      rw [rows_eq function member]

/-- Entries that are stored as call frame information for debuggers and as that which is loaded with
the program make the same table: it has the functions that are laid out, with their common entries,
and no errors.  The functions have the same rows or the same error, and an address is unwound by the
same row. -/
theorem decode_formats {addressSize : Nat} (possible : addressSize ∈ [1, 2, 4, 8])
    {descriptions : List FrameDescription} (precede : CommonsPrecede 0 descriptions)
    (storable : ∀ placed ∈ place addressSize 0 [] descriptions, placed.Storable addressSize)
    (order : ByteOrder) (debugAddress exceptionAddress : UInt64) (budget : Nat) :
    let debug : FrameSection := ⟨.debug, order, debugAddress, addressSize⟩
    let exception : FrameSection := ⟨.exception, order, exceptionAddress, addressSize⟩
    let table := decode (debug.encode descriptions) debug budget
    let loaded := decode (exception.encode descriptions) exception budget
    let functions := FrameDescription.functions addressSize descriptions
    table = holding debug budget functions ∧ loaded = holding exception budget functions ∧
      loaded.AnswersAs table := by
  intro debug exception table loaded functions
  have table_eq : table = holding debug budget functions :=
    decode_encode possible precede storable budget
  have loaded_eq : loaded = holding exception budget functions :=
    decode_encode possible precede storable budget
  have plain : ∀ function ∈ functions, function.common.added = {} :=
    FrameDescription.place_plain (List.forall_mem_nil _) descriptions
  have same : exception.order = debug.order := rfl
  refine ⟨table_eq, loaded_eq, ?_⟩
  rw [table_eq, loaded_eq]
  exact answersAs_holding plain same budget

/-- A common entry of each version and three functions, the last of which names the first common
entry again. -/
def sampleDescriptions : List FrameDescription :=
  [.common ⟨1, -8, .byte 16, [0x0c, 7, 8]⟩, .function ⟨0, 0x1020, 0x10, [0x41, 0x0e, 16]⟩,
    .common ⟨4, -4, .leb128 300, [0x0c, 4, 4]⟩, .function ⟨1, 0x1000, 0x20, []⟩,
    .function ⟨0, 0x1030, 0x10, [0x42, 0x0a, 0x0b]⟩]

/-- The sample makes the same table in both sections. -/
theorem decode_formats_sample :
    let debug : FrameSection := ⟨.debug, .little, 0, 4⟩
    let exception : FrameSection := ⟨.exception, .little, 0x4000, 4⟩
    let table := decode (debug.encode sampleDescriptions) debug 100
    let loaded := decode (exception.encode sampleDescriptions) exception 100
    loaded.AnswersAs table ∧
      table.functions.map FunctionEntry.start = [0x1000, 0x1020, 0x1030] := by
  have precede : CommonsPrecede 0 sampleDescriptions := by decide
  have storable : ∀ placed ∈ place 4 0 [] sampleDescriptions, placed.Storable 4 := by decide +kernel
  obtain ⟨table_eq, _, answers⟩ := decode_formats (by decide) precede storable .little 0 0x4000 100
  refine ⟨answers, ?_⟩
  have starts : (FrameDescription.functions 4 sampleDescriptions).map FunctionEntry.start =
      [0x1020, 0x1000, 0x1030] := by
    decide +kernel
  have sorted (functions : List FunctionEntry) :
      (functions.mergeSort fun a b => a.start ≤ b.start).map FunctionEntry.start =
        (functions.map FunctionEntry.start).mergeSort fun a b => a ≤ b :=
    List.map_mergeSort fun _ _ _ _ => rfl
  rw [table_eq, holding]
  dsimp only
  rw [sorted, starts, List.mergeSort_eq_insertionSort]
  decide

end FrameTable

end Dwarf
