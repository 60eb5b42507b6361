import Dwarf.Encoding
import Dwarf.Proofs.Decoder.Reads

/-!
# Cursors are faithful windows

A session starts with one cursor over some bytes, the root, and acts on its cursors in any order:
it reads, skips, moves to a position and splits windows off, from the innermost cursor or from one
around it.  Whatever it has done, each of its cursors looks at a part of the root that lies where
the offset of the cursor says, and a read delivers what is stored in the bytes that it passes, all
of them in the window of the cursor.  So a decoder cannot see anything outside the window that was
split off for it.
-/

namespace Dwarf

/-! ## Sessions -/

/-- What can be asked of a cursor. -/
inductive CursorAction where
  | read (kind : Read)
  | skip (count : Nat)
  | split (count : Nat)
  | seek (position : Nat)
  deriving DecidableEq, Repr

/-- What a cursor has done. -/
inductive CursorOutcome where
  /-- It has delivered a value. -/
  | delivered (value : ReadValue)
  /-- It has moved. -/
  | moved
  /-- It has split off another cursor. -/
  | opened (inner : Cursor)

/-- What a cursor answers, and where it is afterwards. -/
structure CursorAnswer where
  result : Except Error CursorOutcome
  next : Cursor

/-- The answer of a decoder at a cursor. -/
def Decoder.answer (decoder : Decoder CursorOutcome) (cursor : Cursor) : CursorAnswer :=
  ⟨(decoder cursor).result, (decoder cursor).next⟩

/-- Carry out an action. -/
def Cursor.answer (cursor : Cursor) : CursorAction → CursorAnswer
  | .read kind => (kind.decoder.restate .delivered).answer cursor
  | .skip count => ((Decoder.skip count).restate fun _ => .moved).answer cursor
  | .split count => ((Decoder.split count).restate .opened).answer cursor
  | .seek position =>
    match cursor.seek position with
    | .ok next => ⟨.ok .moved, next⟩
    | .error error => ⟨.error error, cursor⟩

/-- The cursor that an answer has split off. -/
def CursorAnswer.inner? (answer : CursorAnswer) : Option Cursor :=
  match answer.result with
  | .ok (.opened inner) => some inner
  | _ => none

namespace Session

/-- Act on one of the cursors of a session; a cursor that is split off comes last. -/
def step (cursors : List Cursor) (command : Nat × CursorAction) : List Cursor :=
  match cursors[command.1]? with
  | none => cursors
  | some cursor =>
    cursors.set command.1 (cursor.answer command.2).next ++ (cursor.answer command.2).inner?.toList

/-- The cursors after a number of actions, each on the cursor with the number beside it. -/
def run (cursors : List Cursor) (commands : List (Nat × CursorAction)) : List Cursor :=
  commands.foldl step cursors

end Session

namespace Cursor

/-- The cursor looks at a part of the root, and its base is the offset of this part. -/
structure WindowOf (root : List UInt8) (base : Nat) (cursor : Cursor) : Prop where
  base_le : base ≤ cursor.base
  end_le : cursor.base + cursor.window.length ≤ base + root.length
  window_eq : cursor.window = (root.drop (cursor.base - base)).take cursor.window.length

end Cursor

namespace CursorAction

/-- The number of bytes that an action of fixed size asks for at a cursor. -/
def size? (cursor : Cursor) : CursorAction → Option Nat
  | read kind => kind.width? cursor
  | skip count | split count => some count
  | seek _ => none

/-- The action is done at once or not at all: it is of fixed size, or it moves to a position. -/
def AtOnce (cursor : Cursor) (action : CursorAction) : Prop :=
  (action.size? cursor).isSome ∨ ∃ position, action = .seek position

end CursorAction

/-- A cursor over a part of the root answers faithfully. -/
structure Cursor.AnswersFrom (root : List UInt8) (base : Nat) (cursor : Cursor)
    (action : CursorAction) : Prop where
  /-- What a read delivers is stored in the bytes that it passes, which are bytes of the window, and
  these are the bytes of the root at the offset of the cursor. -/
  delivered : ∀ {kind value}, action = .read kind →
    (cursor.answer action).result = .ok (.delivered value) →
      ∃ stored, kind.Conveys cursor stored value ∧
        stored = (root.drop (cursor.offset - base)).take stored.length ∧
        cursor.position + stored.length ≤ cursor.window.length ∧
        (cursor.answer action).next.position = cursor.position + stored.length
  /-- What is split off has the next bytes as its window. -/
  opened : ∀ {count inner}, action = .split count →
    (cursor.answer action).result = .ok (.opened inner) →
      inner.position = 0 ∧ inner.base = cursor.offset ∧ inner.window.length = count ∧
        inner.WindowOf cursor.window cursor.base
  /-- An action of fixed size passes as many bytes as it asks for. -/
  passed : ∀ {count outcome}, action.size? cursor = some count →
    (cursor.answer action).result = .ok outcome →
      (cursor.answer action).next.position = cursor.position + count
  sought : ∀ {position outcome}, action = .seek position →
    (cursor.answer action).result = .ok outcome →
      (cursor.answer action).next.position = position
  /-- An action that fails leaves the cursor unchanged, unless it is of variable size. -/
  unmoved : ∀ {error}, action.AtOnce cursor → (cursor.answer action).result = .error error →
    (cursor.answer action).next = cursor

namespace Cursor

variable {root : List UInt8} {base : Nat} {cursor next : Cursor}

/-! ## Windows -/

theorem WindowOf.of_same (part : cursor.WindowOf root base) (window : next.window = cursor.window)
    (place : next.base = cursor.base) : next.WindowOf root base where
  base_le := place ▸ part.base_le
  end_le := by
    rw [place, window]
    exact part.end_le
  window_eq := by
    rw [place, window]
    exact part.window_eq

theorem WindowOf.take_rest (part : cursor.WindowOf root base) {count : Nat}
    (within : cursor.position + count ≤ cursor.window.length) :
    cursor.rest.take count = (root.drop (cursor.offset - base)).take count := by
  have base_le := part.base_le
  have place : cursor.base - base + cursor.position = cursor.offset - base := by
    unfold offset
    omega
  rw [cursor.rest_eq, part.window_eq, List.drop_take, List.drop_drop, place, List.take_take,
    Nat.min_eq_left (by omega)]

/-- A window in a window of the root is a window of the root. -/
theorem WindowOf.trans {inner : Cursor} (nested : inner.WindowOf cursor.window cursor.base)
    (part : cursor.WindowOf root base) : inner.WindowOf root base := by
  have base_le := part.base_le
  have nested_base_le := nested.base_le
  have end_le := part.end_le
  have nested_end_le := nested.end_le
  refine ⟨by omega, by omega, ?_⟩
  have place : cursor.base - base + (inner.base - cursor.base) = inner.base - base := by omega
  have within : inner.window.length ≤ cursor.window.length - (inner.base - cursor.base) := by omega
  calc inner.window
      = (cursor.window.drop (inner.base - cursor.base)).take inner.window.length := nested.window_eq
    _ = (((root.drop (cursor.base - base)).take cursor.window.length).drop
          (inner.base - cursor.base)).take inner.window.length := by rw [← part.window_eq]
    _ = (root.drop (inner.base - base)).take inner.window.length := by
      rw [List.drop_take, List.drop_drop, place, List.take_take, Nat.min_eq_left within]

theorem windowOf_cursor (encoding : Encoding) (root : List UInt8) (base : Nat) :
    (encoding.cursor root base).WindowOf root base := by
  refine ⟨Nat.le_refl base, Nat.le_refl _, ?_⟩
  change root = (root.drop (base - base)).take root.length
  rw [Nat.sub_self, List.drop_zero, List.take_length]

theorem windowOf_splitOff {count : Nat} (fits : count ≤ cursor.remaining) :
    (Decoder.splitOff cursor count).WindowOf cursor.window cursor.base := by
  have within := cursor.position_le
  have size := cursor.size_eq
  have length : (Decoder.splitOff cursor count).window.length = count := cursor.length_take fits
  have place : (Decoder.splitOff cursor count).base = cursor.base + cursor.position := rfl
  unfold remaining at fits
  refine ⟨by omega, by omega, ?_⟩
  rw [length, place, Nat.add_sub_cancel_left, ← cursor.rest_eq]
  rfl

theorem Reaches.position_le_window (reached : cursor.Reaches next) :
    next.position ≤ cursor.window.length := by
  have within := next.position_le
  rw [next.size_eq, reached.window_eq] at within
  exact within

theorem Reaches.length_passedTo (reached : cursor.Reaches next) :
    cursor.position + (cursor.passedTo next).length = next.position := by
  have later := reached.position_le
  have within := reached.position_le_window
  rw [passedTo, List.length_take, cursor.rest_eq, List.length_drop]
  omega

/-! ## Answers -/

theorem seek_eq_ok {position : Nat} (sought : cursor.seek position = .ok next) :
    next.position = position ∧ next.window = cursor.window ∧ next.base = cursor.base := by
  unfold seek at sought
  split at sought
  · cases sought
    exact ⟨rfl, rfl, rfl⟩
  · cases sought

theorem answer_seek (cursor : Cursor) (position : Nat) :
    (∃ next, cursor.seek position = .ok next ∧ cursor.answer (.seek position) = ⟨.ok .moved, next⟩) ∨
      ∃ error, cursor.answer (.seek position) = ⟨.error error, cursor⟩ := by
  cases sought : cursor.seek position with
  | ok next => exact .inl ⟨next, rfl, by simp only [answer, sought]⟩
  | error error => exact .inr ⟨error, by simp only [answer, sought]⟩

/-- No action changes the window that a cursor looks at. -/
theorem answer_window (cursor : Cursor) (action : CursorAction) :
    (cursor.answer action).next.window = cursor.window ∧
      (cursor.answer action).next.base = cursor.base := by
  cases action with
  | read kind => exact ⟨(kind.decoder cursor).reached.window_eq, (kind.decoder cursor).reached.base_eq⟩
  | skip count =>
      have reached := (Decoder.skip count cursor).reached
      exact ⟨reached.window_eq, reached.base_eq⟩
  | split count =>
      have reached := (Decoder.split count cursor).reached
      exact ⟨reached.window_eq, reached.base_eq⟩
  | seek position =>
      obtain ⟨next, sought, answered⟩ | ⟨error, answered⟩ := answer_seek cursor position
      · rw [answered]
        exact (seek_eq_ok sought).2
      · rw [answered]
        exact ⟨rfl, rfl⟩

/-- An action of fixed size is done at once or not at all. -/
theorem answer_of_size {action : CursorAction} {count : Nat}
    (size : action.size? cursor = some count) :
    ∃ outcome reading, Decoder.AllOrNothing cursor count outcome reading ∧
      cursor.answer action = ⟨reading.result, reading.next⟩ := by
  cases action with
  | read kind => exact ⟨_, _, (Decoder.read_allOrNothing size).restate .delivered, rfl⟩
  | skip count =>
      cases size
      exact ⟨_, _, ((Decoder.plainAs_skip count).allOrNothing cursor).restate fun _ => .moved, rfl⟩
  | split count =>
      cases size
      exact ⟨_, _, (Decoder.split_allOrNothing cursor count).restate .opened, rfl⟩
  | seek position => cases size

theorem answer_opened {count : Nat} {inner : Cursor}
    (opened : (cursor.answer (.split count)).result = .ok (.opened inner)) :
    ∃ fits, inner = Decoder.splitOff cursor count ∧
      (cursor.answer (.split count)).next = cursor.forward count fits := by
  obtain ⟨split, read, same⟩ := map_eq_ok_iff.mp opened
  obtain ⟨fits, found, next⟩ := (Decoder.split_allOrNothing cursor count).of_ok read
  cases same
  exact ⟨fits, found, next⟩

/-- Only splitting opens a cursor, and its window is a window of the window. -/
theorem windowOf_inner {action : CursorAction} {inner : Cursor}
    (opened : (cursor.answer action).result = .ok (.opened inner)) :
    inner.WindowOf cursor.window cursor.base := by
  cases action with
  | read kind =>
      obtain ⟨_, _, same⟩ := map_eq_ok_iff.mp opened
      cases same
  | skip count =>
      obtain ⟨_, _, same⟩ := map_eq_ok_iff.mp opened
      cases same
  | split count =>
      obtain ⟨fits, rfl, _⟩ := answer_opened opened
      exact windowOf_splitOff fits
  | seek position =>
      obtain ⟨_, _, answered⟩ | ⟨_, answered⟩ := answer_seek cursor position
      · rw [answered] at opened
        cases opened
      · rw [answered] at opened
        cases opened

/-- A cursor over a part of the root answers every action faithfully. -/
theorem WindowOf.answersFrom (part : cursor.WindowOf root base) (action : CursorAction) :
    cursor.AnswersFrom root base action where
  delivered {kind value} read_kind delivered := by
    subst read_kind
    obtain ⟨_, read, same⟩ := map_eq_ok_iff.mp delivered
    cases same
    have reached := (kind.decoder cursor).reached
    have within : cursor.position + (cursor.passedTo (kind.decoder cursor).next).length ≤
        cursor.window.length := by
      rw [reached.length_passedTo]
      exact reached.position_le_window
    refine ⟨_, Decoder.conveys_of_read read, ?_, within, reached.length_passedTo.symm⟩
    rw [← part.take_rest within]
    exact Cursor.passedTo_of_position reached.length_passedTo.symm
  opened {count inner} split_count opened := by
    subst split_count
    obtain ⟨fits, rfl, _⟩ := answer_opened opened
    exact ⟨rfl, rfl, cursor.length_take fits, windowOf_splitOff fits⟩
  passed {count outcome} size done := by
    obtain ⟨_, reading, answer, same⟩ := answer_of_size size
    rw [same] at done ⊢
    obtain ⟨fits, _, next⟩ := answer.of_ok done
    exact congrArg position next
  sought {position outcome} seek_position done := by
    subst seek_position
    obtain ⟨next, sought, answered⟩ | ⟨error, answered⟩ := answer_seek cursor position
    · rw [answered]
      exact (seek_eq_ok sought).1
    · rw [answered] at done
      cases done
  unmoved {error} atOnce failed := by
    obtain sized | ⟨position, rfl⟩ := atOnce
    · obtain ⟨count, size⟩ := Option.isSome_iff_exists.mp sized
      obtain ⟨_, reading, answer, same⟩ := answer_of_size size
      rw [same] at failed ⊢
      exact answer.of_error failed
    · obtain ⟨next, _, answered⟩ | ⟨_, answered⟩ := answer_seek cursor position
      · rw [answered] at failed
        cases failed
      · rw [answered]

end Cursor

theorem CursorAnswer.opened_of_inner? {answer : CursorAnswer} {inner : Cursor}
    (found : answer.inner? = some inner) : answer.result = .ok (.opened inner) := by
  unfold inner? at found
  split at found
  next opened => rw [opened, Option.some.inj found]
  next => cases found

namespace Session

variable {root : List UInt8} {base : Nat} {cursors : List Cursor} {cursor : Cursor}

/-- One action keeps the windows of all cursors, and it opens windows of windows only. -/
theorem windowOf_step (parts : ∀ cursor ∈ cursors, cursor.WindowOf root base)
    (command : Nat × CursorAction) : ∀ cursor ∈ step cursors command, cursor.WindowOf root base := by
  intro cursor member
  unfold step at member
  split at member
  next => exact parts cursor member
  next acting found =>
    have part := parts acting (List.mem_of_getElem? found)
    obtain ⟨window, place⟩ := acting.answer_window command.2
    rcases List.mem_append.mp member with among | opened
    · rcases List.mem_or_eq_of_mem_set among with before | rfl
      · exact parts cursor before
      · exact part.of_same window place
    · have result := CursorAnswer.opened_of_inner? (Option.mem_toList.mp opened)
      exact (Cursor.windowOf_inner result).trans part

/-- The window of a cursor stays what it was when the cursor was opened. -/
theorem kept_step {reader : Nat} (found : cursors[reader]? = some cursor)
    (command : Nat × CursorAction) :
    ∃ moved, (step cursors command)[reader]? = some moved ∧ moved.window = cursor.window ∧
      moved.base = cursor.base := by
  unfold step
  split
  next => exact ⟨cursor, found, rfl, rfl⟩
  next acting at_reader =>
    have bound := (List.getElem?_eq_some_iff.mp found).1
    rw [List.getElem?_append_left (by rwa [List.length_set])]
    by_cases same : command.1 = reader
    · subst same
      cases at_reader.symm.trans found
      exact ⟨_, List.getElem?_set_self bound, cursor.answer_window command.2⟩
    · exact ⟨cursor, (List.getElem?_set_ne same).trans found, rfl, rfl⟩

theorem windowOf_run (parts : ∀ cursor ∈ cursors, cursor.WindowOf root base)
    (commands : List (Nat × CursorAction)) :
    ∀ cursor ∈ run cursors commands, cursor.WindowOf root base := by
  induction commands generalizing cursors with
  | nil => exact parts
  | cons command rest ih => exact ih (windowOf_step parts command)

theorem kept_run {reader : Nat} (found : cursors[reader]? = some cursor)
    (commands : List (Nat × CursorAction)) :
    ∃ moved, (run cursors commands)[reader]? = some moved ∧ moved.window = cursor.window ∧
      moved.base = cursor.base := by
  induction commands generalizing cursors cursor with
  | nil => exact ⟨cursor, found, rfl, rfl⟩
  | cons command rest ih =>
      obtain ⟨next, next_found, next_window, next_base⟩ := kept_step found command
      obtain ⟨last, last_found, window, place⟩ := ih next_found
      exact ⟨last, last_found, window.trans next_window, place.trans next_base⟩

/-- In every session over a root, whatever its cursors have done, each of them has a position in its
window and the offset that belongs to it.  The window is the part of the root at the base of the
cursor, and later actions do not change it.  Every answer is faithful to the root. -/
theorem cursors_are_windows (encoding : Encoding) (root : List UInt8) (base : Nat)
    (commands : List (Nat × CursorAction)) (reader : Nat) {cursor : Cursor}
    (opened : (run [encoding.cursor root base] commands)[reader]? = some cursor) :
    cursor.position ≤ cursor.window.length ∧ cursor.offset = cursor.base + cursor.position ∧
      cursor.WindowOf root base ∧
      (∀ later, ∃ moved, (run [encoding.cursor root base] (commands ++ later))[reader]? = some moved ∧
        moved.window = cursor.window ∧ moved.base = cursor.base) ∧
      ∀ action, cursor.AnswersFrom root base action := by
  have start : ∀ cursor ∈ [encoding.cursor root base], cursor.WindowOf root base := by
    intro cursor member
    rw [List.mem_singleton.mp member]
    exact Cursor.windowOf_cursor encoding root base
  have part := windowOf_run start commands cursor (List.mem_of_getElem? opened)
  refine ⟨cursor.size_eq ▸ cursor.position_le, rfl, part, fun later => ?_, part.answersFrom⟩
  have appended : run [encoding.cursor root base] (commands ++ later) =
      run (run [encoding.cursor root base] commands) later := List.foldl_append ..
  rw [appended]
  exact kept_run opened later

/-- A window of two bytes that has been split off in the middle, after one of them has been read:
the read has moved neither the cursor around it nor the window, and a read that is too long leaves
the cursor where it is. -/
theorem cursors_are_windows_nested :
    ∃ cursor, (run [Encoding.cursor {} [0, 1, 2, 3, 4] 0x100]
        [(0, .skip 1), (0, .split 2), (1, .read .uint8)])[1]? = some cursor ∧
      cursor.window = [1, 2] ∧ cursor.offset = 0x102 ∧
      cursor.WindowOf [0, 1, 2, 3, 4] 0x100 ∧ (cursor.answer (.read .uint16)).next = cursor := by
  let commands : List (Nat × CursorAction) := [(0, .skip 1), (0, .split 2), (1, .read .uint8)]
  refine ⟨_, rfl, rfl, rfl, ?_, ?_⟩
  · exact (cursors_are_windows {} [0, 1, 2, 3, 4] 0x100 commands 1 rfl).2.2.1
  · have answers := (cursors_are_windows {} [0, 1, 2, 3, 4] 0x100 commands 1 rfl).2.2.2.2
    exact (answers (.read .uint16)).unmoved (.inl rfl) rfl

end Session

end Dwarf
