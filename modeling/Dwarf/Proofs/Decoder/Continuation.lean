import Dwarf.Proofs.Decoder.Composition
import Dwarf.Proofs.Decoder.Window

/-!
# Bytes that go on

A run of instructions may be the front of a longer one, or lie in a window that begins earlier.  As
long as the section offset is the same, decoders that ask for it are at no disadvantage: what they
have read they read again, and stop at the same offset.
-/

namespace Dwarf

namespace Cursor

variable {tail : List UInt8} {cursor other : Cursor}

theorem Grown.atEnd_eq {measure : Measure} (grown : cursor.Grown measure [] other) :
    other.atEnd = cursor.atEnd := by
  rw [Bool.eq_iff_iff, atEnd_iff_rest, atEnd_iff_rest, grown.rest_eq, List.append_nil]

theorem Grown.unfinished {measure : Measure} (grown : cursor.Grown measure tail other)
    (unfinished : cursor.atEnd = false) : other.atEnd = false := by
  rw [← Bool.not_eq_true, atEnd_iff_rest] at unfinished ⊢
  rw [grown.rest_eq, List.append_eq_nil_iff]
  exact fun empty => unfinished empty.1

/-- The offset behind the window. -/
def stop (cursor : Cursor) : Nat :=
  cursor.offset + cursor.rest.length

theorem Reaches.stop_eq {cursor next : Cursor} (reached : cursor.Reaches next) :
    next.stop = cursor.stop := by
  have size := reached.size_eq
  have within := cursor.position_le
  have next_within := next.position_le
  rw [stop, stop, offset, offset, rest_length, rest_length, remaining, remaining, reached.base_eq]
  omega

end Cursor

namespace Decoder

variable {α : Type}

theorem Stable.located {decoder : Nat → Consuming α}
    (stable : ∀ offset, (decoder offset).read.Stable .offset) :
    (Consuming.located decoder).read.Stable .offset :=
  stable_of_grown (fun cursor => (decoder cursor.offset).read)
    (fun grown => by rw [grown.offset_eq]) fun _ => stable _

/-! ## Runs of items -/

variable {item : Consuming α}

theorem Reads.moved (stable : item.read.Stable .offset) {cursor other : Cursor} {values : List α}
    (reads : Reads item cursor values) (grown : cursor.Grown .offset [] other) :
    Reads item other values := by
  induction reads generalizing other with
  | done finished => exact .done (grown.atEnd_eq.trans finished)
  | more unfinished read _ ih =>
      obtain ⟨other_read, onward, _⟩ := stable grown read
      exact .more (grown.unfinished unfinished) other_read (ih onward)

/-- Where the items at the end of a window can be read alone, they can be read behind the others. -/
theorem Reads.append (stable : item.read.Stable .offset) {tail : List UInt8}
    {cursor other place : Cursor} {values later : List α} (reads : Reads item cursor values)
    (grown : cursor.Grown .offset tail other) (onward : Reads item place later)
    (offset_eq : place.offset = cursor.stop) (rest_eq : place.rest = tail)
    (under : place.Under cursor.encoding) : Reads item other (values ++ later) := by
  induction reads generalizing other with
  | @done cursor finished =>
      have empty := Cursor.atEnd_iff_rest.mp finished
      have stop_eq : cursor.stop = cursor.offset := by
        rw [Cursor.stop, empty]
        rfl
      refine onward.moved stable ⟨?_, ?_, ?_, ?_, ?_⟩
      · exact (grown.offset_eq.trans stop_eq.symm).trans offset_eq.symm
      · rw [grown.rest_eq, empty, rest_eq, List.append_nil, List.nil_append]
      · exact grown.order_eq.trans under.order_eq.symm
      · exact grown.addressSize_eq.trans under.addressSize_eq.symm
      · exact grown.offsetSize_eq.trans under.offsetSize_eq.symm
  | @more cursor value values unfinished read _ ih =>
      obtain ⟨other_read, next, size⟩ := stable grown read
      have reached := (item.read cursor).reached
      refine .more (grown.unfinished unfinished) other_read (ih next ?_ ?_)
      · rw [offset_eq, reached.stop_eq]
      · exact ⟨under.order_eq.trans reached.order_eq.symm,
          under.addressSize_eq.trans reached.addressSize_eq.symm,
          under.offsetSize_eq.trans size.symm⟩

end Decoder

end Dwarf
