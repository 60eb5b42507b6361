import Dwarf.Proofs.Decoder.Local

/-!
# Composed decoders

A sequence of local decoders recognizes what its parts recognize one after the other, and nothing
else; restated errors and errors that name an offset make no difference.  The same holds of loops:
`Rounds`, `Listed` and `Spelled` name the concatenations that the three loops read.
-/

namespace Dwarf

namespace Decoder

variable {α β σ : Type} {encoding : Encoding}

/-! ## Errors and offsets -/

theorem Follows.mapError {decoder other : Decoder α} (follows : decoder.Follows other)
    (restate again : Error → Error) :
    (decoder.mapError restate).Follows (other.mapError again) := by
  intro cursor value read
  obtain ⟨value_eq, next_eq⟩ := follows (mapError_result_eq_ok.mp read)
  refine ⟨mapError_result_eq_ok.mpr value_eq, ?_⟩
  rw [(mapError_eq ..).2, (mapError_eq ..).2, next_eq]

theorem Recognizes.mapError {decoder : Decoder α} {bytes : List UInt8} {value : α}
    (recognizes : decoder.Recognizes encoding bytes value) (restate : Error → Error) :
    (decoder.mapError restate).Recognizes encoding bytes value := by
  intro cursor after under rest
  obtain ⟨fits, read, next⟩ := recognizes under rest
  exact ⟨fits, mapError_result_eq_ok.mpr read, (mapError_eq ..).2.trans next⟩

theorem Local.mapError {decoder : Decoder α} (locality : decoder.Local)
    (restate : Error → Error) : (decoder.mapError restate).Local := by
  intro encoding cursor value under read
  obtain ⟨bytes, after, rest, recognizes⟩ := locality under (mapError_result_eq_ok.mp read)
  exact ⟨bytes, after, rest, recognizes.mapError restate⟩

theorem Recognizes.located {decoder : Nat → Consuming α} {bytes : List UInt8} {value : α}
    (recognizes : ∀ offset, (decoder offset).read.Recognizes encoding bytes value) :
    (Consuming.located decoder).read.Recognizes encoding bytes value :=
  fun cursor _ under rest => recognizes cursor.offset under rest

theorem Recognizes.of_located {decoder : Nat → Consuming α} {bytes : List UInt8} {value : α}
    (alike : ∀ offset other, (decoder other).read.Follows (decoder offset).read)
    (recognizes : (Consuming.located decoder).read.Recognizes encoding bytes value)
    (offset : Nat) : (decoder offset).read.Recognizes encoding bytes value := by
  intro cursor after under rest
  obtain ⟨fits, read, next⟩ := recognizes under rest
  obtain ⟨value_eq, next_eq⟩ := alike cursor.offset offset read
  exact ⟨fits, value_eq, next_eq.trans next⟩

theorem local_located {decoder : Nat → Consuming α} (locality : ∀ offset, (decoder offset).read.Local)
    (alike : ∀ offset other, (decoder other).read.Follows (decoder offset).read) :
    (Consuming.located decoder).read.Local := by
  intro encoding cursor value under read
  obtain ⟨bytes, after, rest, recognizes⟩ := locality cursor.offset under read
  exact ⟨bytes, after, rest, .located fun other => recognizes.follow (alike cursor.offset other)⟩

theorem Recognizes.ne_nil {decoder : Consuming α} {bytes : List UInt8} {value : α}
    (recognizes : decoder.read.Recognizes encoding bytes value) : bytes ≠ [] := by
  rintro rfl
  obtain ⟨fits, read, next⟩ := recognizes (Cursor.under_cursor encoding [] 0) rfl
  have advanced := decoder.advances _ _ read
  rw [next] at advanced
  exact Nat.lt_irrefl _ advanced

/-! ## Sequences -/

/-- What a sequence of local decoders recognizes is cut between the two. -/
theorem Recognizes.of_bind {first : Decoder α} {second : α → Decoder β} (left : first.Local)
    (right : ∀ inner, (second inner).Local) {bytes : List UInt8} {value : β}
    (recognizes : (Decoder.bind first second).Recognizes encoding bytes value) :
    ∃ front back inner, bytes = front ++ back ∧ first.Recognizes encoding front inner ∧
      (second inner).Recognizes encoding back value := by
  have under := Cursor.under_cursor encoding bytes 0
  obtain ⟨read, ended⟩ := recognizes.consumes
  obtain ⟨inner, first_read, second_read⟩ := bind_result_eq_ok.mp read
  obtain ⟨front, after, rest, front_recognizes⟩ := left under first_read
  obtain ⟨fits, _, next⟩ := front_recognizes under rest
  rw [bind_next first_read, next] at ended
  rw [next] at second_read
  obtain ⟨back, behind, more, back_recognizes⟩ := right inner (under.forward fits) second_read
  obtain ⟨more_fits, _, stop⟩ := back_recognizes (under.forward fits) more
  rw [stop, Cursor.atEnd_iff_rest, Cursor.forward_rest more more_fits] at ended
  rw [Cursor.forward_rest rest fits, ended, List.append_nil] at more
  exact ⟨front, back, inner, more ▸ rest, front_recognizes, back_recognizes⟩

theorem local_ofExcept (result : Except Error α) : (Decoder.ofExcept result).Local := by
  cases result with
  | error error => exact local_fail error
  | ok value => exact local_pure value

theorem Recognizes.ofExcept {result : Except Error α} {value : α} (same : result = .ok value) :
    (Decoder.ofExcept result).Recognizes encoding [] value :=
  same ▸ Recognizes.pure value

theorem Recognizes.of_ofExcept {result : Except Error α} {value : α} {bytes : List UInt8}
    (recognizes : (Decoder.ofExcept result).Recognizes encoding bytes value) :
    bytes = [] ∧ result = .ok value := by
  obtain ⟨read, ended⟩ := recognizes.consumes
  exact ⟨Cursor.atEnd_iff_rest.mp ended, read⟩

theorem Recognizes.not_fail {error : Error} {value : α} {bytes : List UInt8} :
    ¬(Decoder.fail error).Recognizes encoding bytes value :=
  fun recognizes => nomatch recognizes.consumes.1

theorem Recognizes.of_pure {value result : α} {bytes : List UInt8}
    (recognizes : (Decoder.pure value).Recognizes encoding bytes result) :
    bytes = [] ∧ value = result := by
  obtain ⟨read, ended⟩ := recognizes.consumes
  exact ⟨Cursor.atEnd_iff_rest.mp ended, Except.ok.inj read⟩

theorem Recognizes.map {decoder : Decoder α} {bytes : List UInt8} {value : α}
    (recognizes : decoder.Recognizes encoding bytes value) (f : α → β) :
    (Decoder.bind decoder fun value => Decoder.pure (f value)).Recognizes encoding bytes
      (f value) := by
  have both : (Decoder.bind decoder fun value => Decoder.pure (f value)).Recognizes encoding
      (bytes ++ []) (f value) := recognizes.bind (Recognizes.pure (f value))
  rw [List.append_nil] at both
  exact both

theorem Recognizes.of_map {decoder : Decoder α} (locality : decoder.Local) {f : α → β}
    {bytes : List UInt8} {result : β}
    (recognizes : (Decoder.bind decoder fun value => Decoder.pure (f value)).Recognizes encoding
      bytes result) :
    ∃ value, decoder.Recognizes encoding bytes value ∧ f value = result := by
  obtain ⟨front, back, value, split, first, last⟩ := recognizes.of_bind locality fun _ => local_pure _
  obtain ⟨rfl, same⟩ := last.of_pure
  rw [List.append_nil] at split
  exact ⟨value, split ▸ first, same⟩

/-! ## Passes until one is done -/

/-- The byte strings that the passes of a loop read, from a state to the value of the last pass. -/
inductive Rounds (pass : σ → Consuming (Pass σ β)) (encoding : Encoding) :
    σ → List UInt8 → β → Prop where
  | done {state : σ} {bytes : List UInt8} {value : β}
      (last : (pass state).read.Recognizes encoding bytes (.done value)) :
      Rounds pass encoding state bytes value
  | again {state middle : σ} {front back : List UInt8} {value : β}
      (first : (pass state).read.Recognizes encoding front (.again middle))
      (rest : Rounds pass encoding middle back value) :
      Rounds pass encoding state (front ++ back) value

variable {pass : σ → Consuming (Pass σ β)}

/-- What follows a pass: the value if it is done, and the rest of the loop if not. -/
def afterPass (pass : σ → Consuming (Pass σ β)) : Pass σ β → Decoder β
  | .done value => Decoder.pure value
  | .again following => iterate pass following

theorem iterate_eq (pass : σ → Consuming (Pass σ β)) (state : σ) :
    iterate pass state = Decoder.bind (pass state).read (afterPass pass) := by
  funext cursor
  rw [iterate]
  unfold Decoder.bind
  split
  next same => rw [same]; rfl
  next same => rw [same]; rfl
  next same => rw [same]; rfl

theorem Rounds.recognizes {state : σ} {bytes : List UInt8} {value : β}
    (rounds : Rounds pass encoding state bytes value) :
    Recognizes (iterate pass state) encoding bytes value := by
  induction rounds with
  | @done state bytes value last =>
      rw [iterate_eq, ← List.append_nil bytes]
      exact last.bind (Recognizes.pure value)
  | again first _ ih =>
      rw [iterate_eq]
      exact first.bind ih

/-- A loop of local passes that succeeds has gone through rounds. -/
theorem rounds_of_iterate (locality : ∀ state, (pass state).read.Local) {state : σ}
    {cursor : Cursor} {value : β} (under : cursor.Under encoding)
    (run : (iterate pass state cursor).result = .ok value) :
    ∃ bytes after, cursor.rest = bytes ++ after ∧ Rounds pass encoding state bytes value := by
  fun_induction iterate pass state cursor with
  | case1 state cursor error next reached found => cases run
  | case2 state cursor last next reached found =>
      cases run
      have read : ((pass state).read cursor).result = .ok (.done value) := by rw [found]
      obtain ⟨bytes, after, rest, recognizes⟩ := locality state under read
      exact ⟨bytes, after, rest, .done recognizes⟩
  | case3 state cursor middle next reached found ih =>
      have read : ((pass state).read cursor).result = .ok (.again middle) := by rw [found]
      obtain ⟨front, after, rest, recognizes⟩ := locality state under read
      obtain ⟨fits, _, forward⟩ := recognizes under rest
      have following : next = cursor.forward front.length fits := by rw [← forward, found]
      have later : (iterate pass middle next).result = .ok value := run
      rw [following] at ih later
      obtain ⟨back, behind, more, rounds⟩ := ih (under.forward fits) later
      rw [Cursor.forward_rest rest fits] at more
      refine ⟨front ++ back, behind, ?_, .again recognizes rounds⟩
      rw [rest, more, List.append_assoc]

theorem local_iterate (locality : ∀ state, (pass state).read.Local) (state : σ) :
    Local (iterate pass state) := by
  intro encoding cursor value under run
  obtain ⟨bytes, after, rest, rounds⟩ := rounds_of_iterate locality under run
  exact ⟨bytes, after, rest, rounds.recognizes⟩

/-! ## Items until one is absent -/

/-- The byte strings of items, the last of which is absent. -/
inductive Listed (item : Consuming (Option α)) (encoding : Encoding) :
    List UInt8 → List α → Prop where
  | stop {bytes : List UInt8} (last : item.read.Recognizes encoding bytes none) :
      Listed item encoding bytes []
  | more {front back : List UInt8} {value : α} {values : List α}
      (first : item.read.Recognizes encoding front (some value))
      (rest : Listed item encoding back values) :
      Listed item encoding (front ++ back) (value :: values)

/-- A pass of `untilNone`, which collects the items found so far, latest first. -/
def collect (item : Consuming (Option α)) (found : List α) : Consuming (Pass (List α) (List α)) :=
  item.map fun
    | none => .done found.reverse
    | some value => .again (value :: found)

theorem local_collect {item : Consuming (Option α)} (locality : item.read.Local) (found : List α) :
    (collect item found).read.Local :=
  locality.map _

theorem Listed.rounds {item : Consuming (Option α)} {bytes : List UInt8} {values : List α}
    (listed : Listed item encoding bytes values) (found : List α) :
    Rounds (collect item) encoding found bytes (found.reverse ++ values) := by
  induction listed generalizing found with
  | stop last =>
      rw [List.append_nil]
      exact .done (last.map _)
  | @more front back value values first _ ih =>
      have rest := ih (value :: found)
      rw [List.reverse_cons, List.append_assoc] at rest
      exact .again (first.map _) rest

/-- Rounds that collect items have read a list of them. -/
theorem Rounds.listed {item : Consuming (Option α)} (locality : item.read.Local)
    {found values : List α} {bytes : List UInt8}
    (rounds : Rounds (collect item) encoding found bytes values) :
    ∃ later, Listed item encoding bytes later ∧ values = found.reverse ++ later := by
  induction rounds with
  | @done found bytes values last =>
      obtain ⟨value, recognizes, same⟩ := last.of_map locality
      cases value with
      | none =>
          cases same
          exact ⟨[], .stop recognizes, (List.append_nil _).symm⟩
      | some value => cases same
  | @again found middle front back values first _ ih =>
      obtain ⟨value, recognizes, same⟩ := first.of_map locality
      cases value with
      | none => cases same
      | some value =>
          cases same
          obtain ⟨later, listed, split⟩ := ih
          refine ⟨value :: later, .more recognizes listed, ?_⟩
          rw [split, List.reverse_cons, List.append_assoc, List.singleton_append]

theorem Listed.recognizes {item : Consuming (Option α)} {bytes : List UInt8} {values : List α}
    (listed : Listed item encoding bytes values) :
    (untilNone item).Recognizes encoding bytes values :=
  (listed.rounds []).recognizes

theorem listed_of_untilNone {item : Consuming (Option α)} (locality : item.read.Local)
    {cursor : Cursor} {values : List α} (under : cursor.Under encoding)
    (run : (untilNone item cursor).result = .ok values) :
    ∃ bytes after, cursor.rest = bytes ++ after ∧ Listed item encoding bytes values := by
  obtain ⟨bytes, after, rest, rounds⟩ := rounds_of_iterate (local_collect locality) under run
  obtain ⟨later, listed, split⟩ := rounds.listed locality
  exact ⟨bytes, after, rest, split ▸ listed⟩

theorem Recognizes.listed {item : Consuming (Option α)} (locality : item.read.Local)
    {bytes : List UInt8} {values : List α}
    (recognizes : (untilNone item).Recognizes encoding bytes values) :
    Listed item encoding bytes values := by
  obtain ⟨front, after, rest, listed⟩ :=
    listed_of_untilNone locality (Cursor.under_cursor encoding bytes 0) recognizes.consumes.1
  have split : bytes ++ [] = front ++ after := (List.append_nil bytes).trans rest
  obtain ⟨rfl, _, _⟩ := recognizes.unique listed.recognizes split
  exact listed

theorem local_untilNone {item : Consuming (Option α)} (locality : item.read.Local) :
    (untilNone item).Local :=
  local_iterate (local_collect locality) []

/-! ## Items up to the end of the window -/

/-- A byte string that is cut into items. -/
inductive Spelled (item : Consuming α) (encoding : Encoding) : List UInt8 → List α → Prop where
  | nil : Spelled item encoding [] []
  | cons {front back : List UInt8} {value : α} {values : List α}
      (first : item.read.Recognizes encoding front value)
      (rest : Spelled item encoding back values) :
      Spelled item encoding (front ++ back) (value :: values)

theorem Recognizes.spelled {item : Consuming α} {bytes : List UInt8} {value : α}
    (recognizes : item.read.Recognizes encoding bytes value) :
    Spelled item encoding bytes [value] := by
  have single := Spelled.cons recognizes .nil
  rw [List.append_nil] at single
  exact single

theorem Spelled.append {item : Consuming α} {front back : List UInt8} {values others : List α}
    (left : Spelled item encoding front values) (right : Spelled item encoding back others) :
    Spelled item encoding (front ++ back) (values ++ others) := by
  induction left with
  | nil => exact right
  | cons first _ ih =>
      rw [List.append_assoc]
      exact .cons first ih

/-- A byte string that begins with one that is cut into items is cut into the same ones first. -/
theorem Spelled.of_append {item : Consuming α} {front back : List UInt8} {values all : List α}
    (left : Spelled item encoding front values)
    (whole : Spelled item encoding (front ++ back) all) :
    ∃ others, all = values ++ others ∧ Spelled item encoding back others := by
  induction left generalizing all with
  | nil => exact ⟨all, rfl, whole⟩
  | @cons first later value values recognizes _ ih =>
      generalize same : first ++ later ++ back = bytes at whole
      rw [List.append_assoc] at same
      cases whole with
      | nil => exact absurd (List.append_eq_nil_iff.mp same).1 recognizes.ne_nil
      | cons other rest =>
          obtain ⟨_, rfl, rfl⟩ := recognizes.unique other same
          obtain ⟨others, rfl, spelled⟩ := ih rest
          exact ⟨others, rfl, spelled⟩

theorem spelled_flatMap {item : Consuming α} {encode : α → List UInt8} {values : List α}
    (recognize : ∀ value ∈ values, item.read.Recognizes encoding (encode value) value) :
    Spelled item encoding (values.flatMap encode) values := by
  induction values with
  | nil => exact .nil
  | cons value values ih =>
      obtain ⟨first, rest⟩ := List.forall_mem_cons.mp recognize
      rw [List.flatMap_cons]
      exact .cons first (ih rest)

theorem Spelled.reads {item : Consuming α} {values : List α} {bytes : List UInt8}
    (spelled : Spelled item encoding bytes values) {cursor : Cursor}
    (under : cursor.Under encoding) (rest : cursor.rest = bytes) : Reads item cursor values := by
  induction spelled generalizing cursor with
  | nil => exact .done (Cursor.atEnd_iff_rest.mpr rest)
  | @cons front back value values first _ ih =>
      obtain ⟨fits, read, next⟩ := first under rest
      have unfinished : cursor.atEnd = false := by
        rw [← Bool.not_eq_true, Cursor.atEnd_iff_rest, rest, List.append_eq_nil_iff]
        exact fun empty => first.ne_nil empty.1
      refine .more unfinished read ?_
      rw [next]
      exact ih (under.forward fits) (Cursor.forward_rest rest fits)

theorem Reads.spelled {item : Consuming α} (locality : item.read.Local) {values : List α}
    {cursor : Cursor} (reads : Reads item cursor values) (under : cursor.Under encoding) :
    Spelled item encoding cursor.rest values := by
  induction reads with
  | done finished =>
      rw [Cursor.atEnd_iff_rest.mp finished]
      exact .nil
  | more _ read _ ih =>
      obtain ⟨bytes, after, rest, recognizes⟩ := locality under read
      obtain ⟨fits, _, next⟩ := recognizes under rest
      rw [next, Cursor.forward_rest rest fits] at ih
      rw [rest]
      exact .cons recognizes (ih (under.forward fits))

/-- What `many` delivers are items that can be read up to the end of the window. -/
theorem reads_of_many {item : Consuming α} {cursor : Cursor} {values : List α}
    (run : (many item).run cursor = .ok values) : Reads item cursor values := by
  obtain ⟨found, loop, same⟩ := bind_result_eq_ok.mp run
  cases same
  let moves (found : List α) (value : α) (next : List α) : Prop := next = value :: found
  let runs (found values last : List α) : Prop := last = values.reverse ++ found
  have go {found : List α} {value : α} {middle values last : List α}
      (moved : moves found value middle) (ran : runs middle values last) :
      runs found (value :: values) last := by
    subst moved ran
    simp [runs]
  have factors {found middle : List α} {cursor : Cursor}
      (read : ((item.map (· :: found)).read cursor).result = .ok middle) :
      ∃ value, (item.read cursor).result = .ok value ∧
        ((item.map (· :: found)).read cursor).next = (item.read cursor).next ∧
          moves found value middle := by
    obtain ⟨value, item_read, same⟩ := bind_result_eq_ok.mp read
    cases same
    exact ⟨value, item_read, bind_next item_read, rfl⟩
  obtain ⟨values, reads, collected⟩ :=
    (untilEnd_eq_ok_iff.mp loop).reads runs (fun _ => rfl) go factors
  change found = values.reverse ++ [] at collected
  rw [collected, List.append_nil, List.reverse_reverse]
  exact reads

/-- A window is read as a list of items exactly when it is cut into them. -/
theorem many_eq_ok_iff {item : Consuming α} (locality : item.read.Local) {cursor : Cursor}
    {values : List α} (under : cursor.Under encoding) :
    (many item).run cursor = .ok values ↔ Spelled item encoding cursor.rest values :=
  ⟨fun run => (reads_of_many run).spelled locality under,
    fun spelled => (spelled.reads under rfl).many⟩

end Decoder

end Dwarf
