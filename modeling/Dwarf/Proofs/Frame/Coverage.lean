import Dwarf.Proofs.Frame.RuleState

/-!
# Rows that cover an interval

Rows cover an interval of addresses under an assignment of states to addresses if they lie in it
one after the other, if every address whose state has a rule for the canonical frame address is in
a row, and if a row holds the rules of each address it contains.  Coverings of neighbouring
intervals can be put together.
-/

namespace Dwarf

/-- The rule for the canonical frame address and the rules for the registers. -/
def UnwindRow.rules (row : UnwindRow) : CfaRule × (Nat → Option RegisterRule) :=
  (row.cfa, row.registers.get?)

/-- The rules of a state, if it has one for the canonical frame address. -/
def RuleState.rules? (state : RuleState) : Option (CfaRule × (Nat → Option RegisterRule)) :=
  state.cfa.map fun cfa => (cfa, state.registers)

theorem UnwindRow.contains_iff {row : UnwindRow} {pc : UInt64} :
    row.contains pc = true ↔ row.start ≤ pc ∧ pc < row.stop := by
  simp [UnwindRow.contains]

/-- The rows, in ascending order, are those of the states in force between two addresses. -/
structure Covers (rows : List UnwindRow) (first last : Nat) (inForce : UInt64 → RuleState) :
    Prop where
  within : ∀ row ∈ rows,
    first ≤ row.start.toNat ∧ row.start < row.stop ∧ row.stop.toNat ≤ last
  ordered : rows.Pairwise fun earlier later => earlier.stop ≤ later.start
  covered : ∀ pc : UInt64, first ≤ pc.toNat → pc.toNat < last → (inForce pc).cfa.isSome = true →
    ∃ row ∈ rows, row.contains pc = true
  faithful : ∀ row ∈ rows, ∀ pc, row.contains pc = true → (inForce pc).rules? = some row.rules

namespace Covers

variable {rows earlier later : List UnwindRow} {first middle last : Nat}
  {inForce other : UInt64 → RuleState}

theorem empty (first : Nat) (inForce : UInt64 → RuleState) : Covers [] first first inForce where
  within := by simp
  ordered := .nil
  covered pc lower upper := absurd lower (Nat.not_le.mpr upper)
  faithful := by simp

theorem pc_within (covers : Covers rows first last inForce) {row : UnwindRow} (member : row ∈ rows)
    {pc : UInt64} (contained : row.contains pc = true) : first ≤ pc.toNat ∧ pc.toNat < last := by
  obtain ⟨lower, _, upper⟩ := covers.within row member
  obtain ⟨start_le, lt_stop⟩ := UnwindRow.contains_iff.mp contained
  rw [UInt64.le_iff_toNat_le] at start_le
  rw [UInt64.lt_iff_toNat_lt] at lt_stop
  omega

theorem congr (covers : Covers rows first last inForce)
    (agree : ∀ pc : UInt64, first ≤ pc.toNat → pc.toNat < last → inForce pc = other pc) :
    Covers rows first last other where
  within := covers.within
  ordered := covers.ordered
  covered pc lower upper defined := by
    rw [← agree pc lower upper] at defined
    exact covers.covered pc lower upper defined
  faithful row member pc contained := by
    obtain ⟨lower, upper⟩ := covers.pc_within member contained
    rw [← agree pc lower upper]
    exact covers.faithful row member pc contained

/-- Neighbouring intervals can be covered together. -/
theorem append (left : Covers earlier first middle inForce) (right : Covers later middle last inForce)
    (first_le : first ≤ middle) (le_last : middle ≤ last) :
    Covers (earlier ++ later) first last inForce where
  within row member := by
    rcases List.mem_append.mp member with member | member
    · obtain ⟨lower, proper, upper⟩ := left.within row member
      exact ⟨lower, proper, Nat.le_trans upper le_last⟩
    · obtain ⟨lower, proper, upper⟩ := right.within row member
      exact ⟨Nat.le_trans first_le lower, proper, upper⟩
  ordered := by
    refine List.pairwise_append.mpr ⟨left.ordered, right.ordered, ?_⟩
    intro row before next after
    have upper := (left.within row before).2.2
    have lower := (right.within next after).1
    exact UInt64.le_iff_toNat_le.mpr (Nat.le_trans upper lower)
  covered pc lower upper defined := by
    rcases Nat.lt_or_ge pc.toNat middle with before | after
    · obtain ⟨row, member, contained⟩ := left.covered pc lower before defined
      exact ⟨row, List.mem_append_left _ member, contained⟩
    · obtain ⟨row, member, contained⟩ := right.covered pc after upper defined
      exact ⟨row, List.mem_append_right _ member, contained⟩
  faithful row member := by
    rcases List.mem_append.mp member with member | member
    · exact left.faithful row member
    · exact right.faithful row member

/-- Coverings by the states of two traces, the second of which goes on where the first ends. -/
theorem append_trace {state : RuleState} (states : List RuleState) {after : List RuleState}
    (left : Covers earlier state.location (states.getLastD state).location
      (fun pc => state.inForceAt pc.toNat states))
    (right : Covers later (states.getLastD state).location last
      (fun pc => (states.getLastD state).inForceAt pc.toNat after))
    (monotone : ∀ next ∈ states, next.location ≤ (states.getLastD state).location)
    (forward : state.location ≤ (states.getLastD state).location)
    (le_last : (states.getLastD state).location ≤ last) :
    Covers (earlier ++ later) state.location last
      (fun pc => state.inForceAt pc.toNat (states ++ after)) := by
  refine append (left.congr ?_) (right.congr ?_) forward le_last
  · intro pc lower upper
    exact (RuleState.inForceAt_append_of_lt lower upper).symm
  · intro pc lower _
    refine (RuleState.inForceAt_append_of_le ?_).symm
    exact fun next member => Nat.le_trans (monotone next member) lower

/-- An address in the interval is in a row exactly when its state has a rule for the canonical
frame address. -/
theorem contains_iff (covers : Covers rows first last inForce) {pc : UInt64}
    (lower : first ≤ pc.toNat) (upper : pc.toNat < last) :
    (∃ row ∈ rows, row.contains pc = true) ↔ (inForce pc).cfa.isSome = true := by
  constructor
  · rintro ⟨row, member, contained⟩
    have rules := covers.faithful row member pc contained
    exact Option.isSome_map.symm.trans (rules ▸ Option.isSome_some)
  · exact covers.covered pc lower upper

/-- The first row that contains an address holds the rules of its state. -/
theorem find?_rules (covers : Covers rows first last inForce) {pc : UInt64}
    (lower : first ≤ pc.toNat) (upper : pc.toNat < last) :
    (rows.find? fun row => row.contains pc).map UnwindRow.rules = (inForce pc).rules? := by
  cases found : rows.find? fun row => row.contains pc with
  | none =>
      have absent : ¬ ∃ row ∈ rows, row.contains pc = true := by
        simpa using List.find?_eq_none.mp found
      rw [covers.contains_iff lower upper] at absent
      have undefined : (inForce pc).cfa = none := by simpa using absent
      rw [RuleState.rules?, undefined]
      rfl
  | some row =>
      have contained : row.contains pc = true := by simpa using List.find?_some found
      exact (covers.faithful row (List.mem_of_find?_eq_some found) pc contained).symm

end Covers

end Dwarf
