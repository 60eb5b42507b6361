import Dwarf.Proofs.Frame.RuleState
import Dwarf.Proofs.Lookup

/-!
# Replays and the reference machine

The machine of a replay shows the location and the rules of a state of the reference machine.  Each
instruction that the replay executes is a step of the reference machine, as long as advances do not
leave the words; the rows it adds are those of the rules it leaves behind.
-/

namespace Dwarf

namespace RuleSet

theorem lookup_place (register other : Nat) (rule : RegisterRule)
    (rules : List (Nat × RegisterRule)) :
    (place register rule rules).lookup other =
      if other = register then some rule else rules.lookup other := by
  induction rules with
  | nil => exact lookup_cons_if register other rule []
  | cons head rest ih =>
      obtain ⟨key, kept⟩ := head
      unfold place
      by_cases before : register < key
      · rw [if_pos before, lookup_cons_if]
      · by_cases equal : register = key
        · subst equal
          rw [if_neg before, if_pos rfl, lookup_cons_if, lookup_cons_if]
          by_cases same : other = register <;> simp [same]
        · rw [if_neg before, if_neg equal, lookup_cons_if, lookup_cons_if, ih]
          by_cases here : other = key
          · simp [here, Ne.symm equal]
          · simp [here]

theorem get?_insert (set : RuleSet) (register : Nat) (rule : RegisterRule) :
    (set.insert register rule).get? = Function.update set.get? register (some rule) := by
  funext other
  by_cases same : other = register <;> simp [get?, insert, lookup_place, same]

theorem get?_erase (set : RuleSet) (register : Nat) :
    (set.erase register).get? = Function.update set.get? register none := by
  funext other
  by_cases same : other = register <;> simp [get?, erase, lookup_filter_ne, same]

end RuleSet

namespace FrameMachine

/-- The machine shows the location and the rules of a state. -/
structure Shows (machine : FrameMachine) (state : RuleState) : Prop where
  location : machine.location.toNat = state.location
  cfa : machine.cfa = state.cfa
  registers : machine.registers.get? = state.registers
  saved : machine.saved.map (fun rules => (rules.1, rules.2.get?)) = state.saved

theorem shows_start (entry : FunctionEntry) : (start entry).Shows (.start entry) :=
  ⟨rfl, rfl, rfl, rfl⟩

/-! ## Closing rows -/

/-- The row that closing adds: the rules of the machine up to an address, if there are any. -/
def pending (machine : FrameMachine) (origin : FrameSection) (entry : FunctionEntry)
    (stop : UInt64) : List UnwindRow :=
  match machine.cfa with
  | some cfa =>
      if machine.location < stop then
        [{ start := machine.location
           stop
           cfa
           registers := machine.registers
           returnRegister := entry.common.returnRegister
           entry := entry.offset
           encoding := encoding origin entry }]
      else []
  | none => []

theorem close_eq (machine : FrameMachine) (origin : FrameSection) (entry : FunctionEntry)
    (stop : UInt64) :
    machine.close origin entry stop =
      { machine with rows := machine.pending origin entry stop ++ machine.rows } := by
  obtain ⟨location, cfa, registers, saved, rows, executed⟩ := machine
  cases cfa with
  | none => rfl
  | some cfa => by_cases moves : location < stop <;> simp [close, pending, moves]

theorem pending_self (machine : FrameMachine) (origin : FrameSection) (entry : FunctionEntry) :
    machine.pending origin entry machine.location = [] := by
  unfold pending
  cases machine.cfa <;> simp

/-! ## Single instructions -/

/-- The register rules to which single registers return. -/
def initialRules (initial : Option RuleSet) : Nat → Option RegisterRule :=
  fun register => initial.bind fun set => set.get? register

theorem restore_registers (machine : FrameMachine) (initial : Option RuleSet) (register : Nat) :
    (machine.restore initial register).registers.get? =
      Function.update machine.registers.get? register (initialRules initial register) := by
  unfold restore initialRules
  cases found : initial.bind fun set => set.get? register with
  | none => exact RuleSet.get?_erase _ _
  | some rule => exact RuleSet.get?_insert _ _ _

theorem moveTo_location (machine : FrameMachine) (origin : FrameSection) (entry : FunctionEntry)
    (target : UInt64) :
    (machine.moveTo origin entry target).location.toNat =
      max machine.location.toNat (min target.toNat entry.stop.toNat) := by
  unfold moveTo
  have clamped : (if target < entry.stop then target else entry.stop).toNat =
      min target.toNat entry.stop.toNat := by
    by_cases inside : target < entry.stop
    · have := UInt64.lt_iff_toNat_lt.mp inside
      rw [if_pos inside]
      omega
    · have : ¬ target.toNat < entry.stop.toNat := fun less => inside (UInt64.lt_iff_toNat_lt.mpr less)
      rw [if_neg inside]
      omega
  by_cases moves : machine.location < if target < entry.stop then target else entry.stop
  · have forward := UInt64.lt_iff_toNat_lt.mp moves
    simp only [moves, if_true]
    omega
  · have stays : ¬ machine.location.toNat <
        (if target < entry.stop then target else entry.stop).toNat :=
      fun less => moves (UInt64.lt_iff_toNat_lt.mpr less)
    simp only [moves, if_false]
    omega

theorem moveTo_eq (machine : FrameMachine) (origin : FrameSection) (entry : FunctionEntry)
    (target : UInt64) :
    let next := machine.moveTo origin entry target
    next = { machine with
      location := next.location
      rows := machine.pending origin entry next.location ++ machine.rows } := by
  unfold moveTo
  by_cases moves : machine.location < if target < entry.stop then target else entry.stop
  · simp only [moves, if_true, close_eq]
  · simp only [moves, if_false, pending_self, List.nil_append]

theorem moveTo_keeps (machine : FrameMachine) (origin : FrameSection) (entry : FunctionEntry)
    (target : UInt64) :
    (machine.moveTo origin entry target).saved = machine.saved ∧
      (machine.moveTo origin entry target).executed = machine.executed := by
  rw [moveTo_eq]
  exact ⟨rfl, rfl⟩

theorem moveTo_with (machine : FrameMachine) (origin : FrameSection) (entry : FunctionEntry)
    (target : UInt64) (saved : List (Option CfaRule × RuleSet)) (executed : Nat) :
    { machine with saved, executed }.moveTo origin entry target =
      { machine.moveTo origin entry target with saved, executed } := by
  unfold moveTo
  by_cases moves : machine.location < if target < entry.stop then target else entry.stop
  · simp only [moves, if_true, close_eq]
    rfl
  · simp only [moves, if_false]

theorem moveTo_shows {machine : FrameMachine} {state : RuleState} {entry : FunctionEntry}
    {target : UInt64} {exact : Nat} (origin : FrameSection) (shows : machine.Shows state)
    (target_eq : target.toNat = exact) :
    (machine.moveTo origin entry target).Shows (state.moveTo entry exact) := by
  have location := moveTo_location machine origin entry target
  rw [moveTo_eq] at location ⊢
  rw [shows.location, target_eq] at location
  exact ⟨location, shows.cfa, shows.registers, shows.saved⟩

/-- An advance whose target is a word leads there exactly. -/
theorem advance_toNat {machine : FrameMachine} {state : RuleState} {entry : FunctionEntry}
    {units : UInt64} (shows : machine.Shows state)
    (fits : state.advanced entry units < UInt64.size) :
    (machine.location + units * entry.common.codeAlignment).toNat = state.advanced entry units := by
  have location := shows.location
  unfold RuleState.advanced at fits ⊢
  change _ < 2 ^ 64 at fits
  have product : (units * entry.common.codeAlignment).toNat =
      units.toNat * entry.common.codeAlignment.toNat := by
    rw [UInt64.toNat_mul]
    exact Nat.mod_eq_of_lt (by omega)
  rw [UInt64.toNat_add, product, location]
  exact Nat.mod_eq_of_lt fits

/-- An instruction moves on or stays, and the row it adds is that of the addresses it passes. -/
theorem step_rows {machine next : FrameMachine} {origin : FrameSection} {entry : FunctionEntry}
    {initial : Option RuleSet} {place : Nat} {instruction : FrameInstruction}
    (stepped : machine.step origin entry initial place instruction = .ok next) :
    machine.location ≤ next.location ∧
      next.rows = machine.pending origin entry next.location ++ machine.rows := by
  have moved (target : UInt64) : machine.location ≤ (machine.moveTo origin entry target).location ∧
      (machine.moveTo origin entry target).rows = machine.pending origin entry
        (machine.moveTo origin entry target).location ++ machine.rows := by
    refine ⟨UInt64.le_iff_toNat_le.mpr ?_, congrArg rows (moveTo_eq machine origin entry target)⟩
    rw [moveTo_location]
    exact Nat.le_max_left _ _
  have kept {other : FrameMachine} (location : other.location = machine.location)
      (rows : other.rows = machine.rows) : machine.location ≤ other.location ∧
        other.rows = machine.pending origin entry other.location ++ machine.rows := by
    rw [location, rows, pending_self]
    exact ⟨UInt64.le_refl _, rfl⟩
  cases instruction with
  | advance units =>
      cases stepped
      exact moved _
  | setLocation address =>
      dsimp only [step] at stepped
      split at stepped
      · cases stepped
      · cases stepped
        exact moved address
  | restoreState | defineCfaRegister | defineCfaOffset =>
      dsimp only [step] at stepped
      split at stepped
      · cases stepped
        exact kept rfl rfl
      · cases stepped
  | setRule | restore | rememberState | defineCfa | nop =>
      cases stepped
      exact kept rfl rfl

/-- An instruction that a replay executes is a step of the reference machine. -/
theorem step_simulates {machine next : FrameMachine} {state : RuleState} {origin : FrameSection}
    {entry : FunctionEntry} {initial : Option RuleSet} {place : Nat}
    {instruction : FrameInstruction} (shows : machine.Shows state)
    (fits : ∀ units, instruction = .advance units → state.advanced entry units < UInt64.size)
    (stepped : machine.step origin entry initial place instruction = .ok next) :
    ∃ following, state.step? entry (initialRules initial) instruction = some following ∧
      next.Shows following := by
  cases instruction with
  | advance units =>
      cases stepped
      have target_eq := advance_toNat shows (fits units rfl)
      exact ⟨_, rfl, moveTo_shows origin shows target_eq⟩
  | setLocation address =>
      unfold step at stepped
      by_cases back : address < machine.location
      · simp [back] at stepped
      · simp only [back, if_false] at stepped
        cases stepped
        have forward : ¬ address.toNat < state.location := by
          rw [← shows.location, ← UInt64.lt_iff_toNat_lt]
          exact back
        exact ⟨_, if_neg forward, moveTo_shows origin shows rfl⟩
  | setRule register rule =>
      cases stepped
      refine ⟨_, rfl, ⟨shows.location, shows.cfa, ?_, shows.saved⟩⟩
      rw [RuleSet.get?_insert, shows.registers]
  | restore register =>
      cases stepped
      refine ⟨_, rfl, ⟨shows.location, shows.cfa, ?_, shows.saved⟩⟩
      rw [restore_registers, shows.registers]
  | rememberState =>
      cases stepped
      refine ⟨_, rfl, ⟨shows.location, shows.cfa, shows.registers, ?_⟩⟩
      rw [List.map_cons, shows.cfa, shows.registers, shows.saved]
  | restoreState =>
      unfold step at stepped
      cases remembered : machine.saved with
      | nil => simp [remembered] at stepped
      | cons rules outer =>
          obtain ⟨cfa, registers⟩ := rules
          simp only [remembered] at stepped
          cases stepped
          have saved := shows.saved
          rw [remembered, List.map_cons] at saved
          refine ⟨{ state with
            cfa := cfa, registers := registers.get?
            saved := outer.map fun rules => (rules.1, rules.2.get?) }, ?_, ?_⟩
          · rw [RuleState.step?, ← saved]
          · exact ⟨shows.location, rfl, rfl, rfl⟩
  | defineCfa rule =>
      cases stepped
      exact ⟨_, rfl, ⟨shows.location, rfl, shows.registers, shows.saved⟩⟩
  | defineCfaRegister register =>
      cases defined : machine.cfa with
      | none => simp [step, defined] at stepped
      | some rule =>
          cases rule with
          | expression expression => simp [step, defined] at stepped
          | registerPlus old offset =>
              simp only [step, defined] at stepped
              cases stepped
              refine ⟨{ state with cfa := some (.registerPlus register offset) }, ?_,
                ⟨shows.location, rfl, shows.registers, shows.saved⟩⟩
              rw [RuleState.step?, ← shows.cfa, defined]
  | defineCfaOffset offset =>
      cases defined : machine.cfa with
      | none => simp [step, defined] at stepped
      | some rule =>
          cases rule with
          | expression expression => simp [step, defined] at stepped
          | registerPlus register old =>
              simp only [step, defined] at stepped
              cases stepped
              refine ⟨{ state with cfa := some (.registerPlus register offset) }, ?_,
                ⟨shows.location, rfl, shows.registers, shows.saved⟩⟩
              rw [RuleState.step?, ← shows.cfa, defined]
  | nop =>
      cases stepped
      exact ⟨_, rfl, shows⟩

end FrameMachine

end Dwarf
