import Dwarf.Proofs.TypeGraph.Growth

/-!
# Undoing a failed resolution

Whatever a computation has done to a builder, whether it has failed or not, can be undone: it has
kept places for entries that had none, it has noted all of them, and it has touched nothing that
was there before.  So a failed root is as good as one that has no effect, and the graph of all types
is what such roots lead to.
-/

namespace Dwarf

namespace TypeBuilder

/-- What has been done to a builder can be undone: places behind all others have been given to
entries that had none, and these entries have been noted. -/
structure Undoable (before after : TypeBuilder) : Prop where
  grows : before.graph.Grows after.graph
  given : ∃ places : List (Nat × TypeId),
    after.graph.byOffset = places ++ before.graph.byOffset ∧
      after.reserved = places.map Prod.fst ++ before.reserved ∧
        ∀ place ∈ places, before.graph.idAt? place.1 = none ∧ before.graph.size ≤ place.2

theorem Undoable.refl (builder : TypeBuilder) : builder.Undoable builder :=
  ⟨.refl _, [], rfl, rfl, fun _ member => nomatch member⟩

theorem Undoable.trans {before middle after : TypeBuilder} (first : before.Undoable middle)
    (second : middle.Undoable after) : before.Undoable after := by
  obtain ⟨early, early_given, early_noted, early_fresh⟩ := first.given
  obtain ⟨late, late_given, late_noted, late_fresh⟩ := second.given
  refine ⟨first.grows.trans second.grows, late ++ early, ?_, ?_, fun place member => ?_⟩
  · rw [late_given, early_given, List.append_assoc]
  · rw [late_noted, early_noted, List.map_append, List.append_assoc]
  · obtain late_place | early_place := List.mem_append.mp member
    · obtain ⟨fresh, behind⟩ := late_fresh place late_place
      refine ⟨?_, Nat.le_trans first.grows.size_le behind⟩
      cases known : before.graph.idAt? place.1 with
      | none => rfl
      | some id => exact absurd (fresh.symm.trans (first.grows.idAt? known)) (by simp)
    · exact early_fresh place early_place

theorem undoable_reserve {builder : TypeBuilder} {offset : Nat}
    (fresh : builder.graph.idAt? offset = none) :
    builder.Undoable ⟨builder.graph.reserve offset, offset :: builder.reserved⟩ where
  grows := TypeGraph.grows_reserve fresh
  given := by
    refine ⟨[(offset, builder.graph.size)], rfl, rfl, fun place member => ?_⟩
    rw [List.mem_singleton] at member
    subst member
    exact ⟨fresh, Nat.le_refl _⟩

theorem Undoable.fill {before after : TypeBuilder} (undoable : before.Undoable after)
    (node : TypeNode) :
    before.Undoable ⟨after.graph.fill before.graph.size node, after.reserved⟩ :=
  ⟨undoable.grows.fill node, undoable.given⟩

/-- The entries that have been noted had no place before, and their places are behind all others. -/
theorem Undoable.reserved {before after : TypeBuilder} (undoable : before.Undoable after)
    (none_before : before.reserved = []) {offset : Nat} (noted : offset ∈ after.reserved) :
    before.graph.idAt? offset = none ∧
      ∀ id, after.graph.idAt? offset = some id → before.graph.size ≤ id := by
  obtain ⟨places, given, all_noted, fresh⟩ := undoable.given
  rw [all_noted, none_before, List.append_nil, List.mem_map] at noted
  obtain ⟨place, member, rfl⟩ := noted
  refine ⟨(fresh place member).1, fun id number => ?_⟩
  rw [TypeGraph.idAt?, given, List.lookup_append] at number
  cases first : places.lookup place.1 with
  | none => simpa using List.lookup_eq_none_iff.mp first place member
  | some latest =>
      rw [first, Option.some_or, Option.some.injEq] at number
      subst number
      obtain ⟨_, _, split, _⟩ := List.lookup_eq_some_iff.mp first
      exact (fresh (place.1, latest) (split ▸ List.mem_append_right _ List.mem_cons_self)).2

/-- Giving up the places that have been kept restores the graph. -/
theorem Undoable.rollback {before after : TypeBuilder} (undoable : before.Undoable after)
    (none_before : before.reserved = []) :
    (after.rollback before.graph.size).graph = before.graph := by
  obtain ⟨places, given, noted, fresh⟩ := undoable.given
  rw [none_before, List.append_nil] at noted
  have nodes : after.graph.nodes.take before.graph.size = before.graph.nodes := by
    have longer : before.graph.nodes.size ≤ after.graph.nodes.size := undoable.grows.size_le
    refine Array.ext_getElem? fun id => ?_
    rw [Array.take_eq_extract, Array.getElem?_extract, Nat.zero_add, Nat.sub_zero]
    by_cases within : id < before.graph.size
    · rw [if_pos (Nat.lt_min.mpr ⟨within, Nat.lt_of_lt_of_le within longer⟩)]
      exact undoable.grows.nodes within
    · rw [if_neg fun both => within (Nat.lt_min.mp both).1]
      exact (Array.getElem?_eq_none (Nat.le_of_not_lt within)).symm
  have byOffset : (after.graph.byOffset.filter fun place =>
      !after.reserved.contains place.1) = before.graph.byOffset := by
    have given_up : places.filter (fun place => !after.reserved.contains place.1) = [] := by
      refine List.filter_eq_nil_iff.mpr fun place member => ?_
      have listed : place.1 ∈ after.reserved := noted ▸ List.mem_map_of_mem member
      simp [listed]
    have kept : before.graph.byOffset.filter (fun place => !after.reserved.contains place.1) =
        before.graph.byOffset := by
      refine List.filter_eq_self.mpr fun place member => ?_
      have unlisted : place.1 ∉ after.reserved := by
        rw [noted, List.mem_map]
        rintro ⟨other, reserved, same⟩
        have unknown := List.lookup_eq_none_iff.mp (fresh other reserved).1 place member
        simp [same] at unknown
      simp [unlisted]
    rw [given, List.filter_append, given_up, kept, List.nil_append]
  change TypeGraph.mk _ _ after.graph.failures = _
  rw [nodes, byOffset, undoable.grows.failures]

end TypeBuilder

/-! ## Computations -/

namespace Building

variable {α β : Type}

instance : LawfulMonad Building :=
  inferInstanceAs (LawfulMonad (ExceptT Error (StateM TypeBuilder)))

/-- A computation that leaves behind what it has done, and one that has no effect if it fails, come
to the same; and what the first one leaves behind can be undone. -/
def Tracks (building : Building α) (trial : Resolving α) : Prop :=
  ∀ builder : TypeBuilder,
    trial builder.graph =
        (building builder).1.map (fun value => (value, (building builder).2.graph)) ∧
      builder.Undoable (building builder).2

theorem tracks_pure (value : α) : Tracks (pure value) (pure value) :=
  fun builder => ⟨rfl, .refl builder⟩

theorem tracks_throw (error : Error) : Tracks (throw error : Building α) (throw error) :=
  fun builder => ⟨rfl, .refl builder⟩

theorem tracks_get : Tracks get get :=
  fun builder => ⟨rfl, .refl builder⟩

theorem bind_of_ok {first : Building α} {second : α → Building β} {builder later : TypeBuilder}
    {value : α} (begun : first builder = (.ok value, later)) :
    (first >>= second) builder = second value later := by
  change (ExceptT.bindCont second (first builder).1) (first builder).2 = _
  rw [begun]
  rfl

theorem bind_of_error {first : Building α} {second : α → Building β}
    {builder later : TypeBuilder} {error : Error} (begun : first builder = (.error error, later)) :
    (first >>= second) builder = (.error error, later) := by
  change (ExceptT.bindCont second (first builder).1) (first builder).2 = _
  rw [begun]
  rfl

theorem Tracks.bind {first : Building α} {second : α → Building β} {trial : Resolving α}
    {rest : α → Resolving β} (left : Tracks first trial)
    (right : ∀ value, Tracks (second value) (rest value)) :
    Tracks (first >>= second) (trial >>= rest) := by
  intro builder
  obtain ⟨same, undoable⟩ := left builder
  change (trial builder.graph >>= fun pair => rest pair.1 pair.2) = _ ∧ _
  generalize begun : first builder = outcome at same undoable
  obtain ⟨result, later⟩ := outcome
  cases result with
  | error error =>
      rw [same, bind_of_error begun]
      exact ⟨rfl, undoable⟩
  | ok value =>
      obtain ⟨same_rest, undoable_rest⟩ := right value later
      rw [same, bind_of_ok begun]
      exact ⟨same_rest, undoable.trans undoable_rest⟩

theorem tracks_mapM {building : α → Building β} {trial : α → Resolving β}
    (tracks : ∀ value, Tracks (building value) (trial value)) (values : List α) :
    Tracks (values.mapM building) (values.mapM trial) := by
  induction values with
  | nil =>
      rw [List.mapM_nil, List.mapM_nil]
      exact tracks_pure []
  | cons value values ih =>
      rw [List.mapM_cons, List.mapM_cons]
      exact (tracks value).bind fun found => ih.bind fun others => tracks_pure (found :: others)

end Building

namespace TypeSource

open Building

variable {source : TypeSource}

/-! ## Nodes -/

section Nodes

variable {resolve : Nat → Nat → Building TypeId} {trial : TypeResolver}
variable (tracks : ∀ origin target, Tracks (resolve origin target) (trial origin target))

include tracks

theorem tracks_referent (entry : EntryRef) :
    Tracks (referent resolve entry) (referent trial entry) := by
  unfold referent
  split
  · exact tracks_pure _
  · exact tracks _ _
  · exact tracks_throw _

theorem tracks_describedMember (child : EntryRef) (isBase : Bool) :
    Tracks (source.describedMember resolve child isBase)
      (source.describedMember trial child isBase) := by
  unfold describedMember
  split
  · split
    · exact tracks_pure _
    · exact tracks_throw _
  · exact (tracks_referent tracks child).bind fun _ => tracks_get.bind fun _ => tracks_pure _

theorem tracks_member? (child : EntryRef) :
    Tracks (source.member? resolve child) (source.member? trial child) := by
  unfold member?
  split
  · exact tracks_pure _
  · split
    · exact tracks_describedMember tracks child false
    · exact tracks_describedMember tracks child true
    · exact tracks_pure _

theorem tracks_members (entry : EntryRef) :
    Tracks (source.members resolve entry) (source.members trial entry) :=
  (tracks_mapM (tracks_member? tracks) _).bind fun _ => tracks_pure _

theorem tracks_nodeOf (entry : EntryRef) :
    Tracks (source.nodeOf resolve entry) (source.nodeOf trial entry) := by
  have own := tracks_referent tracks entry
  unfold nodeOf
  split
  case h_1 | h_17 => exact tracks_pure _
  case h_2 | h_3 | h_4 | h_11 | h_12 | h_13 | h_14 | h_15 =>
    exact own.bind fun _ => tracks_pure _
  case h_5 => exact own.bind fun _ => tracks_get.bind fun _ => tracks_pure _
  case h_6 | h_7 | h_8 | h_9 => exact (tracks_members tracks entry).bind fun _ => tracks_pure _
  case h_10 =>
    cases entry.value? .type with
    | none => exact tracks_pure _
    | some _ => exact (own.bind fun _ => tracks_pure _).bind fun _ => tracks_pure _
  case h_16 =>
    exact own.bind fun _ => (tracks_mapM (tracks_referent tracks) _).bind fun _ => tracks_pure _
  case h_18 => exact tracks_throw _

end Nodes

end TypeSource

/-! ## Entries and roots -/

namespace TypeBuilder

open Building TypeSource

variable {source : TypeSource}

/-- Resolving an entry that is neither known nor known to fail. -/
def explore (source : TypeSource) (offset : Nat) (entry : EntryRef) : Nat → Building TypeId
  | 0 => throw (.typeNestingTooDeep offset maxNesting)
  | count + 1 => fun builder =>
      match source.nodeOf (resolve source count) entry
          ⟨builder.graph.reserve offset, offset :: builder.reserved⟩ with
      | (.ok node, later) =>
        (.ok builder.graph.size, ⟨later.graph.fill builder.graph.size node, later.reserved⟩)
      | (.error error, later) => (.error error, later)

theorem resolve_at (count origin offset : Nat) (builder : TypeBuilder) :
    resolve source count origin offset builder =
      match builder.graph.idAt? offset, builder.graph.failureAt? offset,
        source.units.entry? offset with
      | some id, _, _ => (.ok id, builder)
      | none, some error, _ => (.error error, builder)
      | none, none, none => (.error (.unresolvedTypeReference origin offset), builder)
      | none, none, some entry => explore source offset entry count builder := by
  unfold resolve
  change (match builder.graph.idAt? offset, builder.graph.failureAt? offset,
      source.units.entry? offset with
    | some id, _, _ => _
    | none, some error, _ => _
    | none, none, none => _
    | none, none, some entry => _ : Building TypeId) builder = _
  cases builder.graph.idAt? offset with
  | some id => rfl
  | none =>
      cases builder.graph.failureAt? offset with
      | some error => rfl
      | none =>
          cases source.units.entry? offset with
          | none => rfl
          | some entry =>
              cases count with
              | zero => rfl
              | succ count =>
                  change (source.nodeOf (resolve source count) entry >>= _)
                    ⟨builder.graph.reserve offset, offset :: builder.reserved⟩ = _
                  unfold explore
                  dsimp only
                  generalize built : source.nodeOf (resolve source count) entry
                    ⟨builder.graph.reserve offset, offset :: builder.reserved⟩ = outcome
                  obtain ⟨result, later⟩ := outcome
                  cases result with
                  | error error => exact bind_of_error built
                  | ok node => exact bind_of_ok built

theorem tracks_explore {count offset : Nat} {entry : EntryRef} {builder : TypeBuilder}
    (fresh : builder.graph.idAt? offset = none)
    (tracks : ∀ fewer < count, ∀ origin target,
      Tracks (resolve source fewer origin target) (source.resolve fewer origin target)) :
    source.explore offset entry count builder.graph =
        (explore source offset entry count builder).1.map
          (fun id => (id, (explore source offset entry count builder).2.graph)) ∧
      builder.Undoable (explore source offset entry count builder).2 := by
  cases count with
  | zero => exact ⟨rfl, .refl builder⟩
  | succ count =>
      have reserved := undoable_reserve fresh
      have node : Tracks (source.nodeOf (resolve source count) entry) _ :=
        tracks_nodeOf (tracks count (Nat.lt_succ_self count)) entry
      obtain ⟨same, undoable⟩ := node ⟨builder.graph.reserve offset, offset :: builder.reserved⟩
      simp only [explore, TypeSource.explore]
      rw [same]
      generalize source.nodeOf (resolve source count) entry
        ⟨builder.graph.reserve offset, offset :: builder.reserved⟩ = outcome at undoable ⊢
      obtain ⟨result, later⟩ := outcome
      cases result with
      | error error => exact ⟨rfl, reserved.trans undoable⟩
      | ok node => exact ⟨rfl, (reserved.trans undoable).fill node⟩

/-- Resolving an entry comes to the same whether its failures have an effect or not. -/
theorem tracks_resolve (count origin offset : Nat) :
    Tracks (resolve source count origin offset) (source.resolve count origin offset) := by
  induction count using Nat.strongRecOn generalizing origin offset with
  | ind count ih =>
      intro builder
      rw [resolve_at, TypeSource.resolve_at]
      cases known : builder.graph.idAt? offset with
      | some id => exact ⟨rfl, .refl builder⟩
      | none =>
          cases builder.graph.failureAt? offset with
          | some error => exact ⟨rfl, .refl builder⟩
          | none =>
              cases source.units.entry? offset with
              | none => exact ⟨rfl, .refl builder⟩
              | some entry => exact tracks_explore known ih

/-- A root leads to the same graph as one that has no effect if it fails. -/
theorem addRoot_graph (builder : TypeBuilder) (offset : Nat) :
    (addRoot source builder offset).graph = source.addRoot builder.graph offset := by
  obtain ⟨same, undoable⟩ :=
    @tracks_resolve source maxNesting offset offset { graph := builder.graph }
  unfold addRoot TypeSource.addRoot
  dsimp only
  split
  · rfl
  · rw [same]
    generalize resolve source maxNesting offset offset { graph := builder.graph } = outcome
      at undoable
    obtain ⟨result, reached⟩ := outcome
    cases result with
    | ok id => rfl
    | error error => exact congrArg (TypeGraph.fail · offset error) (undoable.rollback rfl)

theorem addRoots_graph (builder : TypeBuilder) (offsets : List Nat) :
    (offsets.foldl (addRoot source) builder).graph =
      offsets.foldl source.addRoot builder.graph := by
  induction offsets generalizing builder with
  | nil => rfl
  | cons offset offsets ih => rw [List.foldl_cons, ih, addRoot_graph, List.foldl_cons]

end TypeBuilder

namespace TypeSource

theorem build_eq (source : TypeSource) :
    source.build = source.typeOffsets.foldl source.addRoot .empty :=
  TypeBuilder.addRoots_graph _ _

end TypeSource

end Dwarf
