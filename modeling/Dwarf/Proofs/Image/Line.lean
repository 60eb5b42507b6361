import Dwarf.Image.Line
import Dwarf.Proofs.Image.Load
import Dwarf.Proofs.Line.Lookup

/-!
# Lines of an image by address

Every line table of an image has been decoded, so its sequences are finished and sorted.  What two
bisections and a walk backwards find in one table is then what a search of all its sequences and
rows would find, and the image answers from the first table that covers the address.
-/

namespace Dwarf

/-! ## The tables of an image -/

namespace Image

variable {sections : Sections} {settings : Settings} {image : Image}

/-- The line table of a unit has been decoded from the line section. -/
theorem decoded_of_decodeLines {unit : CompilationUnit} {table : LineTable}
    (found : ImageUnit.decodeLines sections unit = .ok (some table)) :
    ∃ offset compDir, LineTable.decode (sections.data .line) offset unit.order
      unit.encoding.addressSize compDir = .ok table := by
  unfold ImageUnit.decodeLines at found
  cases named : (unit.root.value? .stmtList).bind AttributeValue.sectionOffset? with
  | none =>
      rw [named] at found
      cases found
  | some offset =>
      rw [named, Option.mapM_some] at found
      refine ⟨offset.toNat, (unit.compDir? sections).getD "", ?_⟩
      generalize LineTable.decode _ _ _ _ _ = result at found ⊢
      cases result with
      | error error => cases found
      | ok value =>
          cases found
          rfl

theorem mem_lineTables {table : LineTable} :
    table ∈ image.lineTables ↔ ∃ unit ∈ image.units, unit.lines = some table :=
  List.mem_filterMap

theorem mem_lineTables_of_covering {pc : UInt64} {table : LineTable}
    (member : table ∈ image.coveringLineTables pc) : table ∈ image.lineTables := by
  obtain ⟨unit, covering, lines⟩ := List.mem_filterMap.mp member
  exact mem_lineTables.mpr ⟨unit, (List.mem_filter.mp covering).1, lines⟩

theorem sorted_of_load (loaded : load sections settings = .ok image) :
    ∀ table ∈ image.lineTables, table.Sorted := by
  intro table member
  obtain ⟨unit, among, lines⟩ := mem_lineTables.mp member
  rw [(made_of_load loaded).units] at among
  obtain ⟨found, _, rfl⟩ := List.mem_map.mp among
  have decoded : ImageUnit.decodeLines sections found = .ok (some table) := by
    change (ImageUnit.decodeLines sections found).toOption.join = some table at lines
    cases result : ImageUnit.decodeLines sections found with
    | error failure =>
        rw [result] at lines
        cases lines
    | ok table? =>
        rw [result] at lines
        exact congrArg Except.ok lines
  obtain ⟨_, _, decoded⟩ := decoded_of_decodeLines decoded
  exact LineTable.sorted_of_decode decoded

/-! ## The table that answers -/

/-- The table is the first that covers an address, where the tables of units that cover it are
tried before all others. -/
def AnswersFrom (image : Image) (pc : UInt64) (table : LineTable) : Prop :=
  ∃ earlier later,
    image.coveringLineTables pc ++ image.lineTables = earlier ++ table :: later ∧
      table.Covers pc ∧ ∀ other ∈ earlier, ¬other.Covers pc

section

variable {pc : UInt64} (sorted : ∀ table ∈ image.lineTables, table.Sorted)
  (ascending : ∀ table ∈ image.lineTables, table.Ascending)
include sorted ascending

theorem locate?_of_tried {tables : List LineTable}
    (tables_eq : image.coveringLineTables pc ++ image.lineTables = tables) {table : LineTable}
    (tried : table ∈ tables) :
    (table.locate? pc = none ↔ ¬table.Covers pc) ∧
      ∀ location, table.locate? pc = some location ↔
        ∃ row, table.Holds pc row ∧ location = table.location row := by
  have member : table ∈ image.lineTables := by
    rw [← tables_eq] at tried
    exact (List.mem_append.mp tried).elim mem_lineTables_of_covering id
  exact ⟨LineTable.locate?_eq_none_iff (sorted table member) (ascending table member),
    fun _ => LineTable.locate?_eq_some_iff (sorted table member) (ascending table member)⟩

theorem lineForAddress?_eq_none_iff :
    image.lineForAddress? pc = none ↔ ∀ table ∈ image.lineTables, ¬table.Covers pc := by
  unfold lineForAddress?
  rw [List.findSome?_eq_none_iff]
  constructor
  · intro missed table member
    have tried := List.mem_append_right (image.coveringLineTables pc) member
    exact (locate?_of_tried sorted ascending rfl tried).1.mp (missed table tried)
  · intro uncovered table tried
    refine (locate?_of_tried sorted ascending rfl tried).1.mpr (uncovered table ?_)
    exact (List.mem_append.mp tried).elim mem_lineTables_of_covering id

theorem lineForAddress?_eq_some_iff {location : SourceLocation} :
    image.lineForAddress? pc = some location ↔
      ∃ table row, image.AnswersFrom pc table ∧ table.Holds pc row ∧
        location = table.location row := by
  unfold lineForAddress?
  rw [List.findSome?_eq_some_iff]
  constructor
  · rintro ⟨earlier, table, later, tables_eq, found, missed⟩
    have answers {other : LineTable} := @locate?_of_tried _ _ sorted ascending _ tables_eq other
    obtain ⟨row, holds, same⟩ := ((answers (by simp)).2 location).mp found
    refine ⟨table, row, ⟨earlier, later, tables_eq, holds.covers, ?_⟩, holds, same⟩
    intro other before
    exact (answers (List.mem_append_left _ before)).1.mp (missed other before)
  · rintro ⟨table, row, ⟨earlier, later, tables_eq, _, uncovered⟩, holds, same⟩
    have answers {other : LineTable} := @locate?_of_tried _ _ sorted ascending _ tables_eq other
    refine ⟨earlier, table, later, tables_eq, ?_, ?_⟩
    · exact ((answers (by simp)).2 location).mpr ⟨row, holds, same⟩
    · intro other before
      exact (answers (List.mem_append_left _ before)).1.mpr (uncovered other before)

end

/-- Where the rows of each sequence ascend, the row at an address is the last one at or below it in
the last sequence that contains it, and there is one if any sequence does.  An image answers with
such a row of the first table that covers the address, and has no answer only if none does. -/
theorem lines_by_search :
    (∀ {data : List UInt8} {offset : Nat} {order : ByteOrder} {addressSize : Nat}
        {compDir : String} {table : LineTable},
      LineTable.decode data offset order addressSize compDir = .ok table → table.Ascending →
        ∀ pc, ((table.rowFor? pc).isSome = true ↔ table.Covers pc) ∧
          ∀ row, (table.rowFor? pc = some row ↔ table.Holds pc row) ∧
            (table.rowFor? pc = some row → row.endSequence = false)) ∧
    ∀ {sections : Sections} {settings : Settings} {image : Image},
      load sections settings = .ok image → (∀ table ∈ image.lineTables, table.Ascending) →
        ∀ pc, (image.lineForAddress? pc = none ↔ ∀ table ∈ image.lineTables, ¬table.Covers pc) ∧
          ∀ location, image.lineForAddress? pc = some location ↔
            ∃ table row, image.AnswersFrom pc table ∧ table.Holds pc row ∧
              location = table.location row := by
  constructor
  · intro data offset order addressSize compDir table decoded ascending pc
    have sorted := LineTable.sorted_of_decode decoded
    refine ⟨LineTable.rowFor?_isSome_iff sorted ascending, fun row => ?_⟩
    have found_iff := @LineTable.rowFor?_eq_some_iff table pc row sorted ascending
    exact ⟨found_iff, fun found => LineTable.Holds.inside sorted (found_iff.mp found)⟩
  · intro sections settings image loaded ascending pc
    have sorted := sorted_of_load loaded
    exact ⟨lineForAddress?_eq_none_iff sorted ascending,
      fun _ => lineForAddress?_eq_some_iff sorted ascending⟩

/-- A unit whose line table has two rows at one address. -/
def twoLines : Sections where
  order := .little
  entries :=
    [(.abbreviations, ⟨[1, 0x11, 0, 0x10, 0x17, 0, 0, 0], 0⟩),
      (.info, ⟨[12, 0, 0, 0, 4, 0, 0, 0, 0, 0, 8, 1, 0, 0, 0, 0], 0⟩),
      (.line, ⟨[26, 0, 0, 0, 2, 0, 7, 0, 0, 0, 1, 1, 0, 14, 1, 0, 0,
        0, 2, 2, 0x10, 1, 2, 0, 2, 2, 0x20, 0, 1, 1], 0⟩)]

/-- The table of the unit. -/
def twoLineTable : LineTable where
  header := ⟨0, 2, 4, 1, 1, true, 0, 14, 1, [], []⟩
  files := []
  sequences := [⟨0x10, 0x20, [{ address := 0x10, isStmt := true },
    { address := 0x10, line := 2, isStmt := true },
    { address := 0x20, line := 2, isStmt := true, endSequence := true }]⟩]

/-- The second row holds, up to the end of the sequence. -/
theorem twoLines_located :
    LineTable.decode (twoLines.data .line) 0 .little 8 "" = .ok twoLineTable ∧
      twoLineTable.rowFor? 0x18 = some { address := 0x10, line := 2, isStmt := true } ∧
      ∃ image, load twoLines {} = .ok image ∧
        image.lineForAddress? 0x18 = some ⟨"<file 1>", 2, 0, 0x10⟩ ∧
        image.lineForAddress? 0x20 = none := by
  have decoded : LineTable.decode (twoLines.data .line) 0 .little 8 "" = .ok twoLineTable := by
    decide +kernel
  have ascending : twoLineTable.Ascending := by decide
  have holds : twoLineTable.Holds 0x18 { address := 0x10, line := 2, isStmt := true } :=
    ⟨_, ⟨[], [], rfl, by decide, nofun⟩, [_], [_], rfl, by decide, by decide⟩
  have facts : (load twoLines {}).map (fun image =>
      (image.coveringLineTables 0x18, image.lineTables)) = .ok ([], [twoLineTable]) := by
    decide +kernel
  refine ⟨decoded, ((lines_by_search.1 decoded ascending 0x18).2 _).1.mpr holds, ?_⟩
  cases loaded : load twoLines {} with
  | error error =>
      rw [loaded] at facts
      cases facts
  | ok image =>
      rw [loaded] at facts
      obtain ⟨none_covering, one_table⟩ := Prod.mk.inj (Except.ok.inj facts)
      have search := lines_by_search.2 loaded (by
        rw [one_table]
        exact List.forall_mem_singleton.mpr ascending)
      refine ⟨image, rfl, ((search 0x18).2 _).mpr ⟨twoLineTable, _, ?_, holds, ?_⟩,
        (search 0x20).1.mpr ?_⟩
      · refine ⟨[], [], ?_, holds.covers, nofun⟩
        rw [none_covering, one_table, List.nil_append]
      · decide +kernel
      · rw [one_table]
        refine List.forall_mem_singleton.mpr ?_
        rintro ⟨sequence, member, contains⟩
        rw [List.mem_singleton.mp member] at contains
        exact absurd contains (by decide)

end Image

end Dwarf
