import Dwarf.Proofs.Abbreviation.Stored
import Dwarf.Proofs.Attribute.Layout
import Dwarf.Proofs.Decoder.Confined

/-!
# Attributes from their encodings

What the layout of a form stores is read as an attribute of that form, whatever follows, and the
same bytes are read as the same attribute behind a chain of indirections.  A chain that is too long
or that ends in a form that is not known is rejected before any value is read.
-/

namespace Dwarf

open Decoder

/-! ## Chains of indirections -/

namespace Form

/-- The form that a stored code stands for. -/
def ofCode (code : UInt64) : Form :=
  ⟨if code < 0x10000 then code.toUInt16 else 0xffff⟩

theorem ofCode_toUInt64 (form : Form) : ofCode form.code.toUInt64 = form := by
  have small : form.code.toUInt64 < 0x10000 := by
    rw [UInt64.lt_iff_toNat_lt, UInt16.toNat_toUInt64]
    exact form.code.toNat_lt
  rw [ofCode, if_pos small]
  simp

theorem isKnown_ofCode {code : UInt64}
    (unknown : ∀ form : Form, form.isKnown = true → form.code.toUInt64 ≠ code) :
    (ofCode code).isKnown = false := by
  unfold ofCode
  split
  next small =>
    refine Bool.eq_false_iff.mpr fun known => unknown _ known ?_
    rw [← UInt64.toNat_inj, UInt16.toNat_toUInt64, UInt64.toNat_toUInt16]
    exact Nat.mod_eq_of_lt (UInt64.lt_iff_toNat_lt.mp small)
  next => decide

theorem resolve_indirect (count : Nat) :
    resolve (count + 1) .indirect =
      Decoder.bind unsigned.read fun code => resolve count (ofCode code) := rfl

theorem resolve_direct {form : Form} (direct : form ≠ .indirect) (count : Nat) :
    resolve count form = Decoder.pure form := by
  unfold resolve
  split
  next => exact absurd rfl direct
  next => rfl

end Form

/-- A chain of indirections: codes of the indirect form, and one that ends the chain. -/
structure FormChain where
  before : List StoredNumber
  last : StoredNumber
  indirect : ∀ code ∈ before, code.value = 0x16

namespace FormChain

/-- The number of codes. -/
def length (chain : FormChain) : Nat :=
  chain.before.length + 1

def bytes (chain : FormChain) : List UInt8 :=
  chain.before.flatMap StoredNumber.bytes ++ chain.last.bytes

end FormChain

variable {encoding : Encoding} {value : AttributeValue} {bytes : List UInt8}

namespace Form

/-- Indirections are followed one by one. -/
theorem recognizes_indirections {codes : List StoredNumber}
    (indirect : ∀ code ∈ codes, code.value = 0x16) {count : Nat} {form : Form}
    (rest : (resolve count .indirect).Recognizes encoding bytes form) :
    (resolve (codes.length + count) .indirect).Recognizes encoding
      (codes.flatMap StoredNumber.bytes ++ bytes) form := by
  induction codes with
  | nil =>
      rw [List.length_nil, Nat.zero_add]
      exact rest
  | cons code codes ih =>
      obtain ⟨first, others⟩ := List.forall_mem_cons.mp indirect
      have further : (resolve (codes.length + count) (ofCode code.value)).Recognizes encoding
          (codes.flatMap StoredNumber.bytes ++ bytes) form := by
        rw [first]
        exact ih others
      rw [List.length_cons, Nat.add_right_comm, resolve_indirect, List.flatMap_cons,
        List.append_assoc]
      exact code.recognized.bind further

/-- Within the bound, a chain leads to the form that its last code stands for. -/
theorem recognizes_chain {chain : FormChain} {count : Nat} (short : chain.length ≤ count)
    (direct : ofCode chain.last.value ≠ .indirect) :
    (resolve count .indirect).Recognizes encoding chain.bytes (ofCode chain.last.value) := by
  obtain ⟨more, rfl⟩ := Nat.exists_eq_add_of_le short
  have last : (resolve (more + 1) .indirect).Recognizes encoding (chain.last.bytes ++ [])
      (ofCode chain.last.value) := by
    rw [resolve_indirect]
    refine chain.last.recognized.bind ?_
    rw [resolve_direct direct]
    exact .pure _
  rw [List.append_nil] at last
  have whole := recognizes_indirections chain.indirect last
  rwa [Nat.add_comm more 1, ← Nat.add_assoc] at whole

theorem recognizes_exhausted {codes : List StoredNumber}
    (indirect : ∀ code ∈ codes, code.value = 0x16) :
    (resolve codes.length .indirect).Recognizes encoding (codes.flatMap StoredNumber.bytes)
      .indirect := by
  have left : (resolve 0 .indirect).Recognizes encoding [] .indirect := .pure _
  have whole := recognizes_indirections indirect left
  rwa [List.append_nil] at whole

end Form

namespace Attribute

variable {entry : Nat} {name : AttributeName} {form : Form} {version : UInt16}

/-! ## Settled values -/

/-- What is made of a stored value: a constant of the right form is a section offset if the version
has no form of its own for these and the attribute admits them, and all else is left alone. -/
inductive Settles (name : AttributeName) (form : Form) (version : UInt16) :
    AttributeValue → AttributeValue → Prop where
  | offset {word : UInt64} {allowed : List AttributeClass} (early : version < 4)
      (wide : form = .data4 ∨ form = .data8) (classes : name.classes? = some allowed)
      (admits : .sectionOffset ∈ allowed) :
      Settles name form version (.unsigned word) (.sectionOffset word)
  | same {value : AttributeValue}
      (other : ¬(version < 4 ∧ (form = .data4 ∨ form = .data8) ∧
        ∃ allowed, name.classes? = some allowed ∧ .sectionOffset ∈ allowed)) :
      Settles name form version value value

theorem settles_of_stores {layout : FormLayout} (laid : form.layout? encoding = some layout)
    (stores : layout.Stores encoding.order value bytes) :
    Settles name form version value (settle name form version value) := by
  have admits_iff : (name.classes?.any fun allowed => allowed.contains .sectionOffset) = true ↔
      ∃ allowed, name.classes? = some allowed ∧ .sectionOffset ∈ allowed := by
    simp [Option.any_eq_true]
  by_cases offset : version < 4 ∧ (form = .data4 ∨ form = .data8) ∧
      ∃ allowed, name.classes? = some allowed ∧ .sectionOffset ∈ allowed
  · obtain ⟨early, wide, allowed, classes, admits⟩ := offset
    obtain ⟨word, rfl⟩ : ∃ word, value = .unsigned word := by
      rcases wide with rfl | rfl
      · cases laid
        cases stores
        exact ⟨_, rfl⟩
      · cases laid
        cases stores
        exact ⟨_, rfl⟩
    have settled : settle name form version (.unsigned word) = .sectionOffset word :=
      if_pos ⟨early, wide, admits_iff.mpr ⟨allowed, classes, admits⟩⟩
    rw [settled]
    exact .offset early wide classes admits
  · have settled : settle name form version value = value := by
      unfold settle
      split
      · exact if_neg fun held => offset ⟨held.1, held.2.1, admits_iff.mp held.2.2⟩
      · rfl
    rw [settled]
    exact .same offset

/-! ## Reading an attribute -/

/-- Reading an attribute once its form is known. -/
def decodeAs (entry : Nat) (version : UInt16) (name : AttributeName) (form : Form) :
    Decoder Attribute :=
  match form.value? version with
  | none => Decoder.fail (.illegalForm entry name form)
  | some reader => Decoder.bind reader fun value =>
    if name.admits form version then Decoder.pure ⟨name, form, settle name form version value⟩
    else Decoder.fail (.illegalForm entry name form)

theorem decode_eq (entry : Nat) (version : UInt16) (spec : AttributeSpec) :
    decode entry version spec =
      Decoder.bind (spec.form.resolve Form.maxIndirections) (decodeAs entry version spec.name) := by
  refine congrArg (Decoder.bind _) (funext fun form => ?_)
  unfold decodeAs
  cases form.value? version with
  | none => rfl
  | some reader => rfl

theorem recognizes_decodeAs {reader : Decoder AttributeValue}
    (readable : form.value? version = some reader)
    (recognizes : reader.Recognizes encoding bytes value) (legal : name.admits form version = true) :
    (decodeAs entry version name form).Recognizes encoding bytes
      ⟨name, form, settle name form version value⟩ := by
  unfold decodeAs
  rw [readable]
  simp only [if_pos legal]
  exact recognizes.map _

/-- A form that values cannot be read of is rejected, whatever follows. -/
theorem decode_of_unreadable (spec : AttributeSpec) (unreadable : form.value? version = none)
    (resolves : (spec.form.resolve Form.maxIndirections).Recognizes encoding bytes form)
    {cursor : Cursor} {after : List UInt8} (under : cursor.Under encoding)
    (rest : cursor.rest = bytes ++ after) :
    (decode entry version spec cursor).result = .error (.illegalForm entry spec.name form) := by
  obtain ⟨_, read, _⟩ := resolves under rest
  rw [decode_eq, bind_result read]
  unfold decodeAs
  rw [unreadable]
  rfl

/-- A chain of more indirections than are followed is rejected. -/
theorem decode_long_chain {chain : FormChain} (long : 5 ≤ chain.length) {cursor : Cursor}
    {after : List UInt8} (under : cursor.Under encoding)
    (rest : cursor.rest = chain.bytes ++ after) :
    (decode entry version ⟨name, .indirect⟩ cursor).result =
      .error (.illegalForm entry name .indirect) := by
  have enough : (chain.before.take 4).length = 4 :=
    List.length_take_of_le (Nat.le_of_succ_le_succ long)
  have exhausted : (Form.resolve (chain.before.take 4).length .indirect).Recognizes encoding
      ((chain.before.take 4).flatMap StoredNumber.bytes) .indirect :=
    Form.recognizes_exhausted fun code member => chain.indirect code (List.mem_of_mem_take member)
  rw [enough] at exhausted
  have split : cursor.rest = (chain.before.take 4).flatMap StoredNumber.bytes ++
      ((chain.before.drop 4).flatMap StoredNumber.bytes ++ chain.last.bytes ++ after) := by
    rw [rest, FormChain.bytes, ← List.append_assoc, ← List.append_assoc, ← List.flatMap_append,
      List.take_append_drop]
  exact decode_of_unreadable ⟨name, .indirect⟩ rfl exhausted under split

/-- A chain that ends in a form that is not known is rejected. -/
theorem decode_unknown_chain {chain : FormChain} (short : chain.length ≤ 4)
    (unknown : ∀ form : Form, form.isKnown = true → form.code.toUInt64 ≠ chain.last.value)
    {cursor : Cursor} {after : List UInt8} (under : cursor.Under encoding)
    (rest : cursor.rest = chain.bytes ++ after) :
    (decode entry version ⟨name, .indirect⟩ cursor).result =
      .error (.illegalForm entry name (Form.ofCode chain.last.value)) := by
  have unreadable := Form.isKnown_ofCode unknown
  have direct : Form.ofCode chain.last.value ≠ .indirect := by
    intro same
    rw [same] at unreadable
    cases unreadable
  exact decode_of_unreadable ⟨name, .indirect⟩ (Form.value?_of_unknown unreadable version)
    (Form.recognizes_chain short direct) under rest

/-- Whatever the layout of a known form stores is read as an attribute of the form, directly and
behind a chain of one to four codes of which all but the last are indirect.  A longer chain, and
one that ends in a form that is not known, is illegal for the attribute of the entry. -/
theorem decode_roundTrip (encoding : Encoding) (entry : Nat) (name : AttributeName)
    (addressSize : encoding.addressSize ∈ [1, 2, 4, 8])
    (offsetSize : encoding.offsetSize ∈ [4, 8]) :
    (∀ form : Form, form.isKnown = true → form ≠ .indirect →
      name.admits form encoding.version = true →
        ∃ layout, form.layout? encoding = some layout ∧
          ∀ value bytes, layout.Stores encoding.order value bytes →
            ∃ settled, Settles name form encoding.version value settled ∧
              (decode entry encoding.version ⟨name, form⟩).Recognizes encoding bytes
                ⟨name, form, settled⟩ ∧
              ∀ chain : FormChain, chain.length ≤ 4 → chain.last.value = form.code.toUInt64 →
                (decode entry encoding.version ⟨name, .indirect⟩).Recognizes encoding
                  (chain.bytes ++ bytes) ⟨name, form, settled⟩) ∧
    ∀ chain : FormChain,
      (5 ≤ chain.length ∨
        ∀ form : Form, form.isKnown = true → form.code.toUInt64 ≠ chain.last.value) →
      ∀ cursor after, cursor.Under encoding → cursor.rest = chain.bytes ++ after →
        (decode entry encoding.version ⟨name, .indirect⟩ cursor).result =
          .error (.illegalForm entry name
            (if chain.length ≤ 4 then Form.ofCode chain.last.value else .indirect)) := by
  constructor
  · intro form known direct legal
    obtain ⟨layout, laid⟩ := Form.exists_layout encoding known direct
    refine ⟨layout, laid, fun value bytes stores => ?_⟩
    obtain ⟨reader, readable, recognizes⟩ :=
      Form.recognizes_layout addressSize offsetSize laid stores
    have read : (decodeAs entry encoding.version name form).Recognizes encoding bytes
        ⟨name, form, settle name form encoding.version value⟩ :=
      recognizes_decodeAs readable recognizes legal
    refine ⟨_, settles_of_stores laid stores, ?_, fun chain short ends => ?_⟩
    · rw [decode_eq, Form.resolve_direct direct]
      exact (Recognizes.pure form).bind read
    · have leads : Form.ofCode chain.last.value = form := by rw [ends, Form.ofCode_toUInt64]
      rw [decode_eq]
      refine Recognizes.bind (Form.recognizes_chain short (leads ▸ direct)) ?_
      rw [leads]
      exact read
  · intro chain fault cursor after under rest
    split
    next short =>
      have unknown := fault.resolve_left (Nat.not_le.mpr (Nat.lt_succ_of_le short))
      exact decode_unknown_chain short unknown under rest
    next long => exact decode_long_chain (Nat.lt_of_not_le long) under rest

/-- A big-endian unit of version 3. -/
def earlyEncoding : Encoding :=
  ⟨4, 4, 3, .big⟩

/-- A chain of codes in their shortest encodings. -/
def shortestChain (count : Nat) (form : Form) : FormChain where
  before := List.replicate count (.shortest 0x16)
  last := .shortest form.code.toUInt64
  indirect := fun _ member => by rw [List.eq_of_mem_replicate member]; rfl

/-- An offset of line information as a constant behind two indirections, and behind too many. -/
theorem lineOffset_roundTrip :
    (decode 11 3 ⟨.stmtList, .indirect⟩).Recognizes earlyEncoding
        [0x16, 0x16, 0x06, 0x00, 0x00, 0x12, 0x34] ⟨.stmtList, .data4, .sectionOffset 0x1234⟩ ∧
      (decode 11 3 ⟨.stmtList, .indirect⟩).run
          (earlyEncoding.cursor [0x16, 0x16, 0x16, 0x16, 0x06, 0x00, 0x00, 0x12, 0x34] 0) =
        .error (.illegalForm 11 .stmtList .indirect) := by
  obtain ⟨reads, rejects⟩ :=
    decode_roundTrip earlyEncoding 11 .stmtList (by decide) (by decide)
  constructor
  · obtain ⟨layout, laid, stored⟩ := reads .data4 (by decide) (by decide) (by decide)
    cases laid
    obtain ⟨settled, settles, _, behind⟩ := stored _ _ (.fixed 0x1234 (by decide))
    have offset : settled = .sectionOffset 0x1234 := by
      cases settles with
      | offset => rfl
      | same other => exact absurd ⟨by decide, .inl rfl, _, rfl, by decide⟩ other
    have whole := behind (shortestChain 2 .data4) (by decide) rfl
    rw [offset] at whole
    have spelled : (shortestChain 2 .data4).bytes ++
        earlyEncoding.order.digits 4 (0x1234 : UInt64).toNat =
          [0x16, 0x16, 0x06, 0x00, 0x00, 0x12, 0x34] := by cbv
    rwa [spelled] at whole
  · have split : [0x16, 0x16, 0x16, 0x16, 0x06, 0x00, 0x00, 0x12, 0x34] =
        (shortestChain 4 .data4).bytes ++ [0x00, 0x00, 0x12, 0x34] := by cbv
    rw [split]
    exact rejects (shortestChain 4 .data4) (.inl (by decide)) _ _
      (Cursor.under_cursor earlyEncoding _ 0) rfl

end Attribute

end Dwarf
