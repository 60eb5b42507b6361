import Dwarf.Decoder

/-!
# Passes over a window

A loop of decoders that comes to the end of its window without an error is a finite chain of
passes.  Proofs about such loops are inductions on this chain, and the cursor arithmetic that
makes the loop terminate stays out of them.
-/

namespace Dwarf.Decoder

variable {α β σ : Type}

theorem reading_of_result {cursor : Cursor} {reading : Reading cursor α} {value : α}
    (read : reading.result = .ok value) : reading = ⟨.ok value, reading.next, reading.reached⟩ := by
  cases reading
  cases read
  rfl

/-- A sequence of two decoders succeeds exactly when both do, one after the other. -/
theorem bind_result_eq_ok {first : Decoder α} {second : α → Decoder β} {cursor : Cursor}
    {value : β} :
    (bind first second cursor).result = .ok value ↔
      ∃ inner, (first cursor).result = .ok inner ∧
        (second inner (first cursor).next).result = .ok value := by
  unfold bind
  rcases first cursor with ⟨result, next, reached⟩
  cases result with
  | error error => simp [Reading.andThen]
  | ok inner => simp [Reading.andThen, Reading.since]

/-- It fails exactly when one of them does, the second one behind the first. -/
theorem bind_result_eq_error {first : Decoder α} {second : α → Decoder β} {cursor : Cursor}
    {error : Error} :
    (bind first second cursor).result = .error error ↔
      (first cursor).result = .error error ∨
        ∃ inner, (first cursor).result = .ok inner ∧
          (second inner (first cursor).next).result = .error error := by
  unfold bind
  rcases first cursor with ⟨result, next, reached⟩
  cases result with
  | error error => simp [Reading.andThen]
  | ok inner => simp [Reading.andThen, Reading.since]

theorem bind_next {first : Decoder α} {second : α → Decoder β} {cursor : Cursor} {inner : α}
    (read : (first cursor).result = .ok inner) :
    (bind first second cursor).next = (second inner (first cursor).next).next := by
  unfold bind
  rw [reading_of_result read]
  rfl

theorem bind_result {first : Decoder α} {second : α → Decoder β} {cursor : Cursor} {inner : α}
    (read : (first cursor).result = .ok inner) :
    (bind first second cursor).result = (second inner (first cursor).next).result := by
  unfold bind
  rw [reading_of_result read]
  rfl

theorem bind_of_error {first : Decoder α} {second : α → Decoder β} {cursor : Cursor} {error : Error}
    (failed : (first cursor).result = .error error) :
    (bind first second cursor).result = .error error ∧
      (bind first second cursor).next = (first cursor).next := by
  unfold bind
  generalize first cursor = reading at failed ⊢
  rcases reading with ⟨result, next, reached⟩
  cases failed
  exact ⟨rfl, rfl⟩

theorem mapError_eq (restate : Error → Error) (decoder : Decoder α) (cursor : Cursor) :
    (decoder.mapError restate cursor).result = (decoder cursor).result.mapError restate ∧
      (decoder.mapError restate cursor).next = (decoder cursor).next := by
  unfold mapError
  rcases decoder cursor with ⟨result, next, reached⟩
  cases result with
  | error error => exact ⟨rfl, rfl⟩
  | ok value => exact ⟨rfl, rfl⟩

theorem mapError_result_eq_ok {restate : Error → Error} {decoder : Decoder α} {cursor : Cursor}
    {value : α} :
    (decoder.mapError restate cursor).result = .ok value ↔ (decoder cursor).result = .ok value := by
  unfold mapError
  split
  next found => simp [found]
  next found => simp [found]

/-- The chain of passes from one state to another, from a cursor to the end of its window. -/
inductive Passes (pass : σ → Consuming σ) : Cursor → σ → σ → Prop where
  | done {cursor : Cursor} {state : σ} (finished : cursor.atEnd = true) :
      Passes pass cursor state state
  | more {cursor : Cursor} {state middle last : σ} (unfinished : cursor.atEnd = false)
      (read : ((pass state).read cursor).result = .ok middle)
      (rest : Passes pass ((pass state).read cursor).next middle last) :
      Passes pass cursor state last

theorem untilEnd_of_atEnd {pass : σ → Consuming σ} {state : σ} {cursor : Cursor}
    (finished : cursor.atEnd = true) :
    untilEnd pass state cursor = ⟨.ok state, cursor, .refl cursor⟩ := by
  rw [untilEnd, if_pos finished]

/-- A pass that succeeds is followed by the rest of the loop. -/
theorem untilEnd_result_of_ok {pass : σ → Consuming σ} {state middle : σ} {cursor : Cursor}
    (unfinished : cursor.atEnd = false)
    (read : ((pass state).read cursor).result = .ok middle) :
    (untilEnd pass state cursor).result =
        (untilEnd pass middle ((pass state).read cursor).next).result ∧
      (untilEnd pass state cursor).next =
        (untilEnd pass middle ((pass state).read cursor).next).next := by
  rw [untilEnd, if_neg (by simp [unfinished])]
  split
  next same => rw [same] at read; cases read
  next found _ _ same =>
    rw [same] at read ⊢
    cases read
    exact ⟨rfl, rfl⟩

theorem untilEnd_result_of_error {pass : σ → Consuming σ} {state : σ} {cursor : Cursor}
    {error : Error} (unfinished : cursor.atEnd = false)
    (failed : ((pass state).read cursor).result = .error error) :
    (untilEnd pass state cursor).result = .error error := by
  rw [untilEnd, if_neg (by simp [unfinished])]
  split
  next same =>
    rw [same] at failed
    exact failed
  next same => rw [same] at failed; cases failed

/-- The loop succeeds exactly when a chain of passes leads to the end of the window. -/
theorem untilEnd_eq_ok_iff {pass : σ → Consuming σ} {state last : σ} {cursor : Cursor} :
    (untilEnd pass state cursor).result = .ok last ↔ Passes pass cursor state last := by
  constructor
  · intro run
    fun_induction untilEnd pass state cursor with
    | case1 state cursor finished =>
        cases run
        exact .done finished
    | case2 state cursor unfinished error next reached found => cases run
    | case3 state cursor unfinished following next reached found ih =>
        have read : ((pass state).read cursor).result = .ok following := by rw [found]
        have onward : ((pass state).read cursor).next = next := by rw [found]
        exact .more (by simpa using unfinished) read (onward ▸ ih run)
  · intro passes
    induction passes with
    | done finished => rw [untilEnd_of_atEnd finished]
    | more unfinished read rest ih => rw [(untilEnd_result_of_ok unfinished read).1, ih]

/-- The places and states that a loop comes to, whatever it meets there. -/
inductive Visits (pass : σ → Consuming σ) (start : Cursor) (initial : σ) : Cursor → σ → Prop where
  | start : Visits pass start initial start initial
  | pass {cursor : Cursor} {state following : σ} (visited : Visits pass start initial cursor state)
      (unfinished : cursor.atEnd = false)
      (read : ((pass state).read cursor).result = .ok following) :
      Visits pass start initial ((pass state).read cursor).next following

theorem Visits.behind {pass : σ → Consuming σ} {start cursor : Cursor} {initial following state : σ}
    (unfinished : start.atEnd = false)
    (read : ((pass initial).read start).result = .ok following)
    (visits : Visits pass ((pass initial).read start).next following cursor state) :
    Visits pass start initial cursor state := by
  induction visits with
  | start => exact .pass .start unfinished read
  | pass _ unfinished read ih => exact .pass ih unfinished read

theorem Passes.visits {pass : σ → Consuming σ} {cursor : Cursor} {state last : σ}
    (passes : Passes pass cursor state last) :
    ∃ place, Visits pass cursor state place last := by
  induction passes with
  | done finished => exact ⟨_, .start⟩
  | more unfinished read _ ih =>
      obtain ⟨place, visits⟩ := ih
      exact ⟨place, visits.behind unfinished read⟩

theorem Visits.untilEnd_result {pass : σ → Consuming σ} {start cursor : Cursor}
    {initial state : σ} (visits : Visits pass start initial cursor state) :
    (untilEnd pass initial start).result = (untilEnd pass state cursor).result := by
  induction visits with
  | start => rfl
  | pass _ unfinished read ih => exact ih.trans (untilEnd_result_of_ok unfinished read).1

/-- The loop fails exactly when it comes to a place where a pass fails, and with the same error. -/
theorem untilEnd_eq_error_iff {pass : σ → Consuming σ} {state : σ} {cursor : Cursor}
    {error : Error} :
    (untilEnd pass state cursor).result = .error error ↔
      ∃ place reached, Visits pass cursor state place reached ∧ place.atEnd = false ∧
        ((pass reached).read place).result = .error error := by
  constructor
  · intro run
    fun_induction untilEnd pass state cursor with
    | case1 state cursor finished => cases run
    | case2 state cursor unfinished earlier next reached found =>
        have failed : ((pass state).read cursor).result = .error error := by rw [found]; exact run
        exact ⟨cursor, state, .start, by simpa using unfinished, failed⟩
    | case3 state cursor unfinished following next reached found ih =>
        have read : ((pass state).read cursor).result = .ok following := by rw [found]
        have onward : ((pass state).read cursor).next = next := by rw [found]
        obtain ⟨place, last, visits, more, failed⟩ := ih run
        exact ⟨place, last, (onward ▸ visits).behind (by simpa using unfinished) read, more, failed⟩
  · rintro ⟨place, reached, visits, unfinished, failed⟩
    rw [visits.untilEnd_result]
    exact untilEnd_result_of_error unfinished failed

/-- Reading items one after the other from a cursor to the end of its window. -/
inductive Reads (item : Consuming α) : Cursor → List α → Prop where
  | done {cursor : Cursor} (finished : cursor.atEnd = true) : Reads item cursor []
  | more {cursor : Cursor} {value : α} {values : List α} (unfinished : cursor.atEnd = false)
      (read : (item.read cursor).result = .ok value)
      (rest : Reads item (item.read cursor).next values) : Reads item cursor (value :: values)

/-- The passes of a loop that collects items, latest first. -/
theorem Reads.passes {item : Consuming α} {cursor : Cursor} {values : List α}
    (reads : Reads item cursor values) (found : List α) :
    Passes (fun found => item.map (· :: found)) cursor found (values.reverse ++ found) := by
  induction reads generalizing found with
  | done finished => exact .done finished
  | @more cursor value values unfinished read rest ih =>
      have collected : ((item.map (· :: found)).read cursor).result = .ok (value :: found) :=
        bind_result_eq_ok.mpr ⟨value, read, rfl⟩
      have onward : ((item.map (· :: found)).read cursor).next = (item.read cursor).next :=
        bind_next read
      refine .more unfinished collected ?_
      rw [onward, List.reverse_cons, List.append_assoc]
      exact ih (value :: found)

theorem Reads.many {item : Consuming α} {cursor : Cursor} {values : List α}
    (reads : Reads item cursor values) : (Decoder.many item).run cursor = .ok values := by
  have passes := reads.passes []
  refine bind_result_eq_ok.mpr ⟨_, untilEnd_eq_ok_iff.mpr passes, ?_⟩
  simp [Decoder.pure]

/-- If every pass reads one item and goes on to a state that the item allows, then the items can
be read on their own, and the states follow each other as they allow. -/
theorem Passes.reads {item : Consuming α} {pass : σ → Consuming σ} {moves : σ → α → σ → Prop}
    (runs : σ → List α → σ → Prop) (stay : ∀ state, runs state [] state)
    (go : ∀ {state value middle values last}, moves state value middle → runs middle values last →
      runs state (value :: values) last)
    (factors : ∀ {state middle : σ} {cursor : Cursor},
      ((pass state).read cursor).result = .ok middle →
        ∃ value, (item.read cursor).result = .ok value ∧
          ((pass state).read cursor).next = (item.read cursor).next ∧ moves state value middle)
    {cursor : Cursor} {state last : σ} (passes : Passes pass cursor state last) :
    ∃ values, Reads item cursor values ∧ runs state values last := by
  induction passes with
  | done finished => exact ⟨[], .done finished, stay _⟩
  | more unfinished read rest ih =>
      obtain ⟨value, item_read, onward, moved⟩ := factors read
      obtain ⟨values, reads, ran⟩ := ih
      rw [onward] at reads
      exact ⟨value :: values, .more unfinished item_read reads, go moved ran⟩

end Dwarf.Decoder
