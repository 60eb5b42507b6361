import Dwarf.Proofs.Decoder.Delivery
import Dwarf.Proofs.Frame.Formats
import Dwarf.Proofs.StableSort

/-!
# Entries of a section and what becomes of them

Every entry that the walk through a section comes to is accounted for once: a function entry is in
the table or reported at its own offset.  The common entries that the table knows are those of the
section, so it makes no difference whether one is known or has to be decoded, and what becomes of an
entry can be told from the section alone.
-/

namespace Dwarf

open Decoder

/-! ## The walk through a section -/

/-- How the walk through a section ends: with the section, or where the extent of an entry cannot be
read. -/
inductive FrameStop where
  | finished
  | failed (offset : Nat) (error : Error)

namespace FrameStop

/-- The error that ends the walk. -/
def errors : FrameStop → List (Nat × Error)
  | finished => []
  | failed offset error => [(offset, error)]

/-- The last frame of the walk, if it is none of an entry. -/
def frames : FrameStop → List (Nat × Except Error FrameEntry)
  | finished => []
  | failed offset error => [(offset, .error error)]

end FrameStop

namespace FrameEntry

variable {origin : FrameSection} {data : List UInt8}

/-- The entries from an offset on, each of which begins where the one before it ends, up to the end
of the data, the end of the loaded section or an entry whose extent cannot be read. -/
inductive Framed (origin : FrameSection) (data : List UInt8) :
    Nat → List FrameEntry → FrameStop → Prop where
  | past {offset : Nat} (past : data.length ≤ offset) : Framed origin data offset [] .finished
  | terminated {offset : Nat} (inside : offset < data.length)
      (found : frame origin data offset = .ok none) : Framed origin data offset [] .finished
  | failed {offset : Nat} {error : Error} (inside : offset < data.length)
      (found : frame origin data offset = .error error) :
      Framed origin data offset [] (.failed offset error)
  | entry {offset : Nat} {entry : FrameEntry} {entries : List FrameEntry} {stop : FrameStop}
      (inside : offset < data.length) (found : frame origin data offset = .ok (some entry))
      (rest : Framed origin data entry.next entries stop) :
      Framed origin data offset (entry :: entries) stop

theorem afterSplit_some {offset : Nat} {length : UInt64} {inner cursor : Cursor}
    {entry : FrameEntry}
    (read : (afterSplit origin offset length inner cursor).result = .ok (some entry)) :
    entry.offset = offset ∧ entry.next = cursor.offset := by
  obtain ⟨next, same, onward⟩ := bind_result_eq_ok.mp read
  cases same
  split at onward
  · cases onward
    exact ⟨rfl, rfl⟩
  · obtain ⟨classified, _, last⟩ := bind_result_eq_ok.mp onward
    cases last
    exact ⟨rfl, rfl⟩

/-- An entry begins where it has been looked for, and it ends further behind. -/
theorem frame_some {offset : Nat} {entry : FrameEntry}
    (found : frame origin data offset = .ok (some entry)) :
    entry.offset = offset ∧ offset < entry.next := by
  unfold frame at found
  split at found
  next =>
    change (extent origin offset (startAt origin data offset)).result = _ at found
    rw [extent_eq] at found
    obtain ⟨length, length_read, later⟩ := bind_result_eq_ok.mp found
    have advanced := initialLength.advances _ _ (mapError_result_eq_ok.mp length_read)
    have base := (initialLength.read (startAt origin data offset)).reached.base_eq
    rw [(mapError_eq ..).2] at later
    generalize (initialLength.read (startAt origin data offset)).next = behind at later advanced base
    unfold afterLength at later
    split at later
    next => cases later
    next =>
      obtain ⟨inner, _, last⟩ := bind_result_eq_ok.mp later
      obtain ⟨offset_eq, next_eq⟩ := afterSplit_some last
      refine ⟨offset_eq, ?_⟩
      have onward := ((split length.toNat).mapError (FrameDefect.restate offset .entryPastSection)
        behind).reached
      have started := startAt_offset origin data offset
      have position := onward.position_le
      have place_base := onward.base_eq
      rw [next_eq]
      unfold Cursor.offset at started ⊢
      omega
  next => cases found

/-- From an offset there is a walk. -/
theorem exists_framed (origin : FrameSection) (data : List UInt8) (offset : Nat) :
    ∃ entries stop, Framed origin data offset entries stop := by
  by_cases inside : offset < data.length
  · cases found : frame origin data offset with
    | error error => exact ⟨[], _, .failed inside found⟩
    | ok framed =>
        cases framed with
        | none => exact ⟨[], _, .terminated inside found⟩
        | some entry =>
            have forward := (frame_some found).2
            obtain ⟨entries, stop, rest⟩ := exists_framed origin data entry.next
            exact ⟨entry :: entries, stop, .entry inside found rest⟩
  · exact ⟨[], _, .past (Nat.not_lt.mp inside)⟩
termination_by data.length - offset

section

variable {offset : Nat} {entries : List FrameEntry} {stop : FrameStop}
  (framed : Framed origin data offset entries stop)
include framed

/-- From an offset there is one walk only. -/
theorem Framed.unique {others : List FrameEntry} {other : FrameStop}
    (again : Framed origin data offset others other) : others = entries ∧ other = stop := by
  induction framed generalizing others other with
  | past past =>
      cases again with
      | past => exact ⟨rfl, rfl⟩
      | terminated inside | failed inside | entry inside => exact absurd inside (Nat.not_lt.mpr past)
  | terminated inside found =>
      cases again with
      | past past => exact absurd inside (Nat.not_lt.mpr past)
      | terminated => exact ⟨rfl, rfl⟩
      | failed _ other_found | entry _ other_found => cases found.symm.trans other_found
  | failed inside found =>
      cases again with
      | past past => exact absurd inside (Nat.not_lt.mpr past)
      | failed _ other_found =>
          cases found.symm.trans other_found
          exact ⟨rfl, rfl⟩
      | terminated _ other_found | entry _ other_found => cases found.symm.trans other_found
  | entry inside found _ ih =>
      cases again with
      | past past => exact absurd inside (Nat.not_lt.mpr past)
      | terminated _ other_found | failed _ other_found => cases found.symm.trans other_found
      | entry _ other_found rest =>
          cases found.symm.trans other_found
          obtain ⟨rfl, rfl⟩ := ih rest
          exact ⟨rfl, rfl⟩

/-- The frames that a table is made from are those of the walk. -/
theorem Framed.framesFrom_eq :
    framesFrom origin data offset =
      entries.map (fun entry => (entry.offset, .ok entry)) ++ stop.frames := by
  induction framed with
  | past past =>
      rw [framesFrom, if_neg (Nat.not_lt.mpr past)]
      rfl
  | terminated inside found =>
      rw [framesFrom, if_pos inside, found]
      rfl
  | failed inside found =>
      rw [framesFrom, if_pos inside, found]
      rfl
  | @entry offset entry entries stop inside found _ ih =>
      obtain ⟨offset_eq, forward⟩ := frame_some found
      rw [framesFrom, if_pos inside, found]
      dsimp only
      rw [if_pos forward, ih, List.map_cons, List.cons_append, offset_eq]

theorem Framed.found :
    ∀ entry ∈ entries, frame origin data entry.offset = .ok (some entry) := by
  induction framed with
  | past | terminated | failed => exact nofun
  | entry _ found _ ih =>
      exact List.forall_mem_cons.mpr ⟨(frame_some found).1.symm ▸ found, ih⟩

theorem Framed.behind :
    (∀ entry ∈ entries, offset ≤ entry.offset) ∧ ∀ error ∈ stop.errors, offset ≤ error.1 := by
  induction framed with
  | past | terminated => exact ⟨nofun, nofun⟩
  | failed => exact ⟨nofun, List.forall_mem_singleton.mpr (Nat.le_refl _)⟩
  | entry _ found _ ih =>
      obtain ⟨offset_eq, forward⟩ := frame_some found
      obtain ⟨entries_behind, stop_behind⟩ := ih
      refine ⟨List.forall_mem_cons.mpr ⟨Nat.le_of_eq offset_eq.symm, fun entry member => ?_⟩,
        fun error member => ?_⟩
      · exact Nat.le_trans (Nat.le_of_lt forward) (entries_behind entry member)
      · exact Nat.le_trans (Nat.le_of_lt forward) (stop_behind error member)

/-- The entries of a walk are in the order of their offsets, and it fails behind all of them. -/
theorem Framed.ascending :
    entries.Pairwise (fun entry later => entry.offset < later.offset) ∧
      ∀ entry ∈ entries, ∀ error ∈ stop.errors, entry.offset < error.1 := by
  induction framed with
  | past | terminated | failed => exact ⟨.nil, nofun⟩
  | @entry offset first entries stop _ found rest ih =>
      obtain ⟨offset_eq, forward⟩ := frame_some found
      obtain ⟨entries_behind, stop_behind⟩ := rest.behind
      obtain ⟨entries_ascending, stop_ascending⟩ := ih
      rw [← offset_eq] at forward
      refine ⟨List.pairwise_cons.mpr ⟨fun entry member => ?_, entries_ascending⟩,
        List.forall_mem_cons.mpr ⟨fun error member => ?_, stop_ascending⟩⟩
      · exact Nat.lt_of_lt_of_le forward (entries_behind entry member)
      · exact Nat.lt_of_lt_of_le forward (stop_behind error member)

end

end FrameEntry

/-! ## Entries on their own -/

namespace CommonEntry

variable {β δ : Type}

/-- Read the fields of the common entry at an offset, with some reading of its augmentation data. -/
def fieldsWith (origin : FrameSection) (offset : Nat) (data : Nat → String → Decoder δ)
    (finish : CommonEntry → δ → β) : Decoder β := do
  let version ← Decoder.uint8
  if !supports origin.kind version then
    throw (.malformedCallFrame offset (.unsupportedVersion version))
  else
    let augmentation := Utf8.decode (← Decoder.cstring)
    let addressSize ← statedAddressSize origin offset version
    let codeAlignment ← Decoder.unsigned
    let dataAlignment ← Decoder.signed
    let returnRegister ← register offset version
    let found ← data addressSize augmentation
    let rest ← Decoder.cursor
    return finish
      { offset, version, augmentation, addressSize, codeAlignment, dataAlignment, returnRegister
        added := {}
        hasData := false
        instructions := rest.rest
        instructionsOffset := rest.offset } found

theorem fields_eq (origin : FrameSection) (offset : Nat) :
    fields origin offset =
      fieldsWith origin offset (augmentationData origin offset) fun common found =>
        { common with hasData := found.1, added := found.2 } :=
  rfl

theorem delivers_fieldsWith {origin : FrameSection} {offset : Nat}
    {data : Nat → String → Decoder δ} {finish : CommonEntry → δ → β} {property : β → Prop}
    (finishes : ∀ common found, common.offset = offset → property (finish common found)) :
    Delivers property (fieldsWith origin offset data finish) := by
  refine delivers_bind fun version => ?_
  split
  · exact delivers_fail
  · refine delivers_bind fun augmentation => delivers_bind fun addressSize => ?_
    refine delivers_bind fun codeAlignment => delivers_bind fun dataAlignment => ?_
    refine delivers_bind fun returnRegister => delivers_bind fun found => ?_
    exact delivers_bind fun rest => delivers_pure (finishes _ found rfl)

theorem delivers_fields (origin : FrameSection) (offset : Nat) :
    Delivers (fun common => common.offset = offset) (fields origin offset) :=
  fields_eq origin offset ▸ delivers_fieldsWith fun _ _ same => same

end CommonEntry

theorem FunctionEntry.delivers_fields (origin : FrameSection) (common : CommonEntry)
    (offset : Nat) :
    Delivers (fun function => function.offset = offset) (fields origin common offset) := by
  refine delivers_bind fun start => delivers_bind fun range => delivers_bind fun lsda => ?_
  exact delivers_bind fun rest => delivers_pure rfl

namespace FrameTable

variable {origin : FrameSection} {data : List UInt8} {entry : FrameEntry}

/-- Decode a function entry alone, with a common entry that is decoded for it. -/
def alone (origin : FrameSection) (data : List UInt8) (entry : FrameEntry) :
    Except Error FunctionEntry := do
  let common ← FrameTable.common origin data [] entry.offset entry.commonOffset
  FunctionEntry.decode origin common entry

/-- What an entry adds to the functions of a table. -/
def decoded? (origin : FrameSection) (data : List UInt8) (entry : FrameEntry) :
    Option FunctionEntry :=
  if entry.isCommon then none else (alone origin data entry).toOption

/-- What an entry adds to the errors of a table. -/
def failed? (origin : FrameSection) (data : List UInt8) (entry : FrameEntry) :
    Option (Nat × Error) :=
  if entry.isCommon then none
  else
    match alone origin data entry with
    | .ok _ => none
    | .error error => some (entry.offset, error)

theorem becomes_of_common (is_common : entry.isCommon = true) :
    decoded? origin data entry = none ∧ failed? origin data entry = none :=
  ⟨if_pos is_common, if_pos is_common⟩

theorem becomes_of_ok (is_function : entry.isCommon = false) {function : FunctionEntry}
    (decoded : alone origin data entry = .ok function) :
    decoded? origin data entry = some function ∧ failed? origin data entry = none := by
  unfold decoded? failed?
  rw [is_function, decoded]
  exact ⟨rfl, rfl⟩

theorem becomes_of_error (is_function : entry.isCommon = false) {error : Error}
    (failed : alone origin data entry = .error error) :
    decoded? origin data entry = none ∧
      failed? origin data entry = some (entry.offset, error) := by
  unfold decoded? failed?
  rw [is_function, failed]
  exact ⟨rfl, rfl⟩

theorem decoded?_eq_some_iff {function : FunctionEntry} :
    decoded? origin data entry = some function ↔
      entry.isCommon = false ∧ alone origin data entry = .ok function := by
  unfold decoded?
  cases entry.isCommon with
  | true => simp
  | false => simp [toOption_eq_some_iff]

theorem offset_of_decoded? {function : FunctionEntry}
    (decoded : decoded? origin data entry = some function) : function.offset = entry.offset := by
  obtain ⟨_, alone⟩ := decoded?_eq_some_iff.mp decoded
  obtain ⟨common, _, fields⟩ := bind_eq_ok_iff.mp alone
  exact FunctionEntry.delivers_fields origin common entry.offset (mapError_result_eq_ok.mp fields)

theorem offset_of_failed? {report : Nat × Error}
    (failed : failed? origin data entry = some report) : report.1 = entry.offset := by
  unfold failed? at failed
  split at failed
  · cases failed
  · split at failed
    · cases failed
    · cases failed
      rfl

/-- A common entry that has been decoded is one of the section. -/
theorem stores_of_common {place offset : Nat} {common : CommonEntry}
    (found : FrameTable.common origin data [] place offset = .ok common) :
    StoresCommon origin data common ∧ common.offset = offset := by
  unfold FrameTable.common at found
  rw [List.find?_nil] at found
  obtain ⟨framed, frame_found, decoded⟩ := bind_eq_ok_iff.mp found
  cases framed with
  | none => cases decoded
  | some frame =>
      dsimp only at decoded
      split at decoded
      next is_common =>
        have offset_eq : common.offset = offset :=
          (CommonEntry.delivers_fields origin frame.offset (mapError_result_eq_ok.mp decoded)).trans
            (FrameEntry.frame_some frame_found).1
        exact ⟨⟨frame, offset_eq.symm ▸ frame_found, is_common, decoded⟩, offset_eq⟩
      next => cases decoded

theorem common_known {known : List CommonEntry}
    (stored : ∀ common ∈ known, StoresCommon origin data common) (place offset : Nat) :
    FrameTable.common origin data known place offset =
      FrameTable.common origin data [] place offset := by
  cases found : known.find? fun common => common.offset == offset with
  | none =>
      unfold FrameTable.common
      rw [found, List.find?_nil]
  | some common =>
      obtain rfl : common.offset = offset := by simpa using List.find?_some found
      have stores := stored common (List.mem_of_find?_eq_some found)
      rw [common_eq stored stores, common_eq (List.forall_mem_nil _) stores]

/-! ## Making the table -/

/-- The table with what becomes of some entries. -/
def extend (data : List UInt8) (table : FrameTable) (commons : List CommonEntry)
    (entries : List FrameEntry) : FrameTable :=
  { table with
    commons
    functions := table.functions ++ entries.filterMap (decoded? table.origin data)
    errors := table.errors ++ entries.filterMap (failed? table.origin data) }

/-- An entry adds to a table what becomes of it alone. -/
theorem add_entry {table : FrameTable}
    (stored : ∀ common ∈ table.commons, StoresCommon table.origin data common)
    (entry : FrameEntry) :
    ∃ commons, (∀ common ∈ commons, StoresCommon table.origin data common) ∧
      add data table (entry.offset, .ok entry) = table.extend data commons [entry] := by
  cases is_common : entry.isCommon with
  | true =>
      obtain ⟨decoded, failed⟩ := @becomes_of_common table.origin data entry is_common
      refine ⟨table.commons, stored, ?_⟩
      rw [add_common is_common]
      simp [extend, decoded, failed]
  | false =>
      cases named : FrameTable.common table.origin data [] entry.offset entry.commonOffset with
      | error error =>
          have alone : alone table.origin data entry = .error error := by
            rw [alone, named]
            rfl
          obtain ⟨decoded, failed⟩ := becomes_of_error is_common alone
          refine ⟨table.commons, stored, ?_⟩
          simp [add, extend, is_common, common_known stored, named, decoded, failed]
      | ok common =>
          refine ⟨keep common table.commons, fun other member => ?_, ?_⟩
          · rcases mem_keep member with rfl | known
            · exact (stores_of_common named).1
            · exact stored other known
          · have alone : alone table.origin data entry =
                FunctionEntry.decode table.origin common entry := by
              rw [alone, named]
              rfl
            cases fields : FunctionEntry.decode table.origin common entry with
            | error error =>
                obtain ⟨decoded, failed⟩ := becomes_of_error is_common (alone.trans fields)
                simp [add, extend, is_common, common_known stored, named, fields, decoded, failed]
            | ok function =>
                obtain ⟨decoded, failed⟩ := becomes_of_ok is_common (alone.trans fields)
                simp [add, extend, is_common, common_known stored, named, fields, decoded, failed]

theorem foldl_entries (entries : List FrameEntry) {table : FrameTable}
    (stored : ∀ common ∈ table.commons, StoresCommon table.origin data common) :
    ∃ commons, (∀ common ∈ commons, StoresCommon table.origin data common) ∧
      (entries.map fun entry => (entry.offset, .ok entry)).foldl (add data) table =
        table.extend data commons entries := by
  induction entries generalizing table with
  | nil => exact ⟨table.commons, stored, by simp [extend]⟩
  | cons entry entries ih =>
      obtain ⟨commons, kept, added⟩ := add_entry stored entry
      rw [List.map_cons, List.foldl_cons, added]
      obtain ⟨last, last_stored, rest⟩ := @ih (table.extend data commons [entry]) kept
      refine ⟨last, last_stored, rest.trans ?_⟩
      simp only [extend, List.append_assoc, ← List.filterMap_append, List.singleton_append]

/-- A table is made of common entries of the section, what becomes of the entries of a walk, and the
error that ends the walk. -/
theorem decode_eq {entries : List FrameEntry} {stop : FrameStop}
    (framed : FrameEntry.Framed origin data 0 entries stop) (budget : Nat) :
    ∃ commons, (∀ common ∈ commons, StoresCommon origin data common) ∧
      decode data origin budget = ⟨origin, budget, commons,
        (entries.filterMap (decoded? origin data)).mergeSort fun a b => a.start ≤ b.start,
        entries.filterMap (failed? origin data) ++ stop.errors⟩ := by
  obtain ⟨commons, stored, walk⟩ := @foldl_entries data entries ⟨origin, budget, [], [], []⟩
    (List.forall_mem_nil _)
  refine ⟨commons, stored, ?_⟩
  unfold decode
  rw [framed.framesFrom_eq, List.foldl_append, walk]
  cases stop with
  | finished =>
      rw [FrameStop.errors, List.append_nil]
      rfl
  | failed offset error => rfl

theorem decode_framed {entries : List FrameEntry} {stop : FrameStop}
    (framed : FrameEntry.Framed origin data 0 entries stop) (budget : Nat) :
    (decode data origin budget).functions =
        ((entries.filterMap (decoded? origin data)).mergeSort fun a b => a.start ≤ b.start) ∧
      (decode data origin budget).errors =
        entries.filterMap (failed? origin data) ++ stop.errors := by
  obtain ⟨commons, _, same⟩ := decode_eq framed budget
  rw [same]
  exact ⟨rfl, rfl⟩

theorem stores_of_decode (data : List UInt8) (origin : FrameSection) (budget : Nat) :
    ∀ common ∈ (decode data origin budget).commons, StoresCommon origin data common := by
  obtain ⟨entries, stop, framed⟩ := FrameEntry.exists_framed origin data 0
  obtain ⟨commons, stored, same⟩ := decode_eq framed budget
  rw [same]
  exact stored

/-- What entries in the order of their offsets become is found by the offset of the entry. -/
theorem filter_becomes {α : Type} {becomes : FrameEntry → Option α} {place : α → Nat}
    (placed : ∀ {entry item}, becomes entry = some item → place item = entry.offset)
    {entries : List FrameEntry}
    (ascending : entries.Pairwise fun entry later => entry.offset < later.offset)
    (member : entry ∈ entries) :
    ((entries.filterMap becomes).filter fun item => place item == entry.offset) =
      (becomes entry).toList := by
  obtain ⟨front, back, rfl⟩ := List.append_of_mem member
  obtain ⟨_, onward, before⟩ := List.pairwise_append.mp ascending
  have apart {others : List FrameEntry} (distinct : ∀ other ∈ others, other.offset ≠ entry.offset) :
      ((others.filterMap becomes).filter fun item => place item == entry.offset) = [] := by
    refine List.filter_eq_nil_iff.mpr fun item found => ?_
    obtain ⟨other, inside, same⟩ := List.mem_filterMap.mp found
    rw [placed same, beq_iff_eq]
    exact distinct other inside
  rw [← List.singleton_append, List.filterMap_append, List.filterMap_append, List.filter_append,
    List.filter_append, apart fun other inside =>
      Nat.ne_of_lt (before other inside entry (List.mem_cons_self ..)),
    apart fun other inside => Nat.ne_of_gt ((List.pairwise_cons.mp onward).1 other inside),
    List.nil_append, List.append_nil]
  cases same : becomes entry with
  | none => simp [same]
  | some item => simp [same, placed same]

/-- The table accounts for the entries of a walk and its end. -/
structure Accounts (table : FrameTable) (origin : FrameSection) (data : List UInt8)
    (entries : List FrameEntry) (stop : FrameStop) : Prop where
  /-- A function entry is in the table or reported, once, as what becomes of it alone. -/
  once : ∀ entry ∈ entries, entry.isCommon = false →
    (∃ function, alone origin data entry = .ok function ∧
      (table.functions.filter fun other => other.offset == entry.offset) = [function] ∧
      (table.errors.filter fun report => report.1 == entry.offset) = []) ∨
    ∃ error, alone origin data entry = .error error ∧
      (table.functions.filter fun other => other.offset == entry.offset) = [] ∧
      (table.errors.filter fun report => report.1 == entry.offset) = [(entry.offset, error)]
  /-- The functions are those of entries. -/
  functions_from : ∀ function ∈ table.functions, ∃ entry ∈ entries,
    entry.isCommon = false ∧ alone origin data entry = .ok function
  /-- The errors are those of entries, in their order, and the one that ends the walk. -/
  errors_eq : table.errors = entries.filterMap (failed? origin data) ++ stop.errors
  /-- The functions are sorted by their starts, and where these agree by their offsets. -/
  sorted : table.functions.Pairwise fun function later =>
    function.start < later.start ∨
      function.start = later.start ∧ function.offset < later.offset

section

variable {entries : List FrameEntry} {stop : FrameStop}
  (framed : FrameEntry.Framed origin data 0 entries stop) (budget : Nat)
include framed

/-- Sorting does not change how many functions there are of an entry. -/
theorem functions_at (member : entry ∈ entries) :
    ((decode data origin budget).functions.filter fun other => other.offset == entry.offset) =
      (decoded? origin data entry).toList := by
  have sorted := (List.mergeSort_perm (entries.filterMap (decoded? origin data))
    fun a b => a.start ≤ b.start).filter fun other => other.offset == entry.offset
  rw [filter_becomes (fun found => offset_of_decoded? found) framed.ascending.1 member] at sorted
  rw [(decode_framed framed budget).1]
  cases becomes : decoded? origin data entry with
  | none =>
      rw [becomes] at sorted
      exact sorted.eq_nil
  | some function =>
      rw [becomes] at sorted
      exact List.perm_singleton.mp sorted

theorem errors_at (member : entry ∈ entries) :
    ((decode data origin budget).errors.filter fun report => report.1 == entry.offset) =
      (failed? origin data entry).toList := by
  obtain ⟨ascending, stop_behind⟩ := framed.ascending
  have apart : stop.errors.filter (fun report => report.1 == entry.offset) = [] := by
    refine List.filter_eq_nil_iff.mpr fun report inside => ?_
    rw [beq_iff_eq]
    exact Nat.ne_of_gt (stop_behind entry member report inside)
  rw [(decode_framed framed budget).2, List.filter_append, apart, List.append_nil]
  exact filter_becomes (fun found => offset_of_failed? found) ascending member

theorem accounts_framed : (decode data origin budget).Accounts origin data entries stop := by
  obtain ⟨functions_eq, errors_eq⟩ := decode_framed framed budget
  refine ⟨fun entry member is_function => ?_, fun function member => ?_, errors_eq, ?_⟩
  · rw [functions_at framed budget member, errors_at framed budget member]
    cases becomes : alone origin data entry with
    | ok function =>
        obtain ⟨decoded, failed⟩ := becomes_of_ok is_function becomes
        rw [decoded, failed]
        exact .inl ⟨function, rfl, rfl, rfl⟩
    | error error =>
        obtain ⟨decoded, failed⟩ := becomes_of_error is_function becomes
        rw [decoded, failed]
        exact .inr ⟨error, rfl, rfl, rfl⟩
  · rw [functions_eq, List.mem_mergeSort, List.mem_filterMap] at member
    obtain ⟨entry, inside, decoded⟩ := member
    exact ⟨entry, inside, decoded?_eq_some_iff.mp decoded⟩
  · rw [functions_eq]
    refine pairwise_mergeSort_lex FunctionEntry.start (List.pairwise_filterMap.mpr ?_)
    refine framed.ascending.1.imp fun before function decoded later later_decoded => ?_
    rw [offset_of_decoded? decoded, offset_of_decoded? later_decoded]
    exact before

end

/-- Every entry is accounted for.  From the start of any section there is one walk from entry to
entry.  Each function entry on it is decoded as it is decoded alone, and is then in the table once,
or it fails as it fails alone, and is then reported once; there is one more error just if the walk
ends with one.  The functions are sorted by their starts, and by the order of the section where
these agree. -/
theorem decode_accounts (data : List UInt8) (origin : FrameSection) (budget : Nat) :
    ∃ entries stop,
      (∀ others other, FrameEntry.Framed origin data 0 others other ↔
        others = entries ∧ other = stop) ∧
      (∀ entry ∈ entries, FrameEntry.frame origin data entry.offset = .ok (some entry)) ∧
      (entries.Pairwise fun entry later => entry.offset < later.offset) ∧
      (decode data origin budget).Accounts origin data entries stop := by
  obtain ⟨entries, stop, framed⟩ := FrameEntry.exists_framed origin data 0
  refine ⟨entries, stop, fun others other => ⟨framed.unique, ?_⟩, framed.found,
    framed.ascending.1, accounts_framed framed budget⟩
  rintro ⟨rfl, rfl⟩
  exact framed

end FrameTable

end Dwarf
