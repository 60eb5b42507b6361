import Mathlib.Data.List.Induction
import Dwarf.Proofs.Except
import Dwarf.Proofs.TypeGraph.Typedefs
import Dwarf.Proofs.TypeGraph.Walk

/-!
# Nesting

Entries that are nested too deep fail.  How deep they are nested is counted along the walk from the
root at hand, and what is known by then is not walked again.  So a failure always means that there
is a chain of references that is too long, but whether such a chain leads to a failure depends on
the order of the roots: it always does if every entry is laid out before those that it refers to
and has one of them to itself, and it never does if every entry is laid out after them.
-/

namespace Dwarf

open TypeDemand

namespace TypeSource

variable {source : TypeSource} {entry : EntryRef}

/-! ## Walks that fail -/

variable {failureAt? : Nat → Option Error} {count origin offset : Nat} {seen : List Nat}

theorem meetAll_eq_error {follow : Nat → Nat → TypeWalk} {demands : List TypeDemand}
    {error : Error} (failed : meetAll follow demands seen = .error error) :
    ∃ demand ∈ demands, ∃ middle, demand.meet follow middle = .error error := by
  induction demands generalizing seen with
  | nil => cases failed
  | cons demand demands ih =>
      rw [meetAll] at failed
      cases met : demand.meet follow seen with
      | error earlier =>
          rw [met] at failed
          cases failed
          exact ⟨demand, List.mem_cons_self, seen, met⟩
      | ok middle =>
          rw [met] at failed
          obtain ⟨other, listed, failure⟩ := ih failed
          exact ⟨other, List.mem_cons_of_mem _ listed, failure⟩

theorem walk_seen (member : offset ∈ seen) :
    source.walk failureAt? count origin offset seen = .ok seen := by
  rw [walk, if_pos member]

/-- A walk to an entry that it has not come to yet fails at once or goes on from there. -/
theorem walk_unseen (unseen : offset ∉ seen) (found : source.units.entry? offset = some entry) :
    source.walk failureAt? count origin offset seen =
      match failureAt? offset, count with
      | some error, _ => .error error
      | none, 0 => .error (.typeNestingTooDeep offset maxNesting)
      | none, count + 1 =>
        meetAll (source.walk failureAt? count) (source.demands entry) (offset :: seen) := by
  rw [walk, if_neg unseen, found]
  cases failureAt? offset with
  | some error => rfl
  | none =>
      cases count with
      | zero => rfl
      | succ count => rfl

/-- A walk fails at the entry where it begins, or because a demand of the entry cannot be met. -/
theorem walk_eq_error_cases {error : Error} (found : source.units.entry? offset = some entry)
    (failed : source.walk failureAt? count origin offset seen = .error error) :
    failureAt? offset = some error ∨
      count = 0 ∧ error = .typeNestingTooDeep offset maxNesting ∨
        ∃ fewer, count = fewer + 1 ∧ ∃ demand ∈ source.demands entry, ∃ middle,
          demand.meet (source.walk failureAt? fewer) middle = .error error := by
  by_cases member : offset ∈ seen
  · cases (walk_seen member).symm.trans failed
  · rw [walk_unseen member found] at failed
    cases known : failureAt? offset with
    | some earlier =>
        rw [known] at failed
        cases failed
        exact .inl rfl
    | none =>
        rw [known] at failed
        cases count with
        | zero =>
            cases failed
            exact .inr (.inl ⟨rfl, rfl⟩)
        | succ count => exact .inr (.inr ⟨count, rfl, meetAll_eq_error failed⟩)

/-- Unless a defective entry can be reached, a walk fails at the end of a chain: at an entry that is
known to fail, or because the chain is too long. -/
theorem descends_of_walk_error {error : Error} (sound : ¬source.Broken offset)
    (found : source.units.entry? offset = some entry)
    (failed : source.walk failureAt? count origin offset seen = .error error) :
    ∃ steps last, source.Descends steps offset last ∧
      (failureAt? last = some error ∨
        steps = count ∧ error = .typeNestingTooDeep last maxNesting) := by
  induction count using Nat.strongRecOn generalizing origin offset seen entry with
  | ind count ih =>
      obtain known | ⟨rfl, deep⟩ | ⟨fewer, rfl, demand, asked, middle, failed⟩ :=
        walk_eq_error_cases found failed
      · exact ⟨0, offset, .here offset, .inl known⟩
      · exact ⟨0, offset, .here offset, .inr ⟨rfl, deep⟩⟩
      · have flawless : ¬source.Defective entry :=
          fun defective => sound ⟨offset, entry, .refl, found, defective⟩
        cases demand with
        | missing other => exact absurd (defective_of_demand asked) flawless
        | type origin target =>
            have follows := follows_of_demand found flawless asked
            obtain ⟨target_entry, target_found⟩ := Option.isSome_iff_exists.mp follows.found
            obtain ⟨steps, last, descends, reason⟩ := ih fewer (Nat.lt_succ_self fewer)
              (fun broken => sound (broken.head follows)) target_found failed
            exact ⟨steps + 1, last, .down follows descends,
              reason.imp_right fun ⟨same, deep⟩ => ⟨congrArg Nat.succ same, deep⟩⟩

/-! ## Failures -/

/-- A failure that comes from a chain of references that is too long. -/
def TooDeep (source : TypeSource) (offset : Nat) (error : Error) : Prop :=
  ∃ steps last, source.Descends steps offset last ∧ maxNesting ≤ steps ∧
    error = .typeNestingTooDeep last maxNesting

/-- Every failure of a sound entry comes from a chain that is too long. -/
def FailsDeep (source : TypeSource) (graph : TypeGraph) : Prop :=
  ∀ {offset error}, graph.failureAt? offset = some error → ¬source.Broken offset →
    source.TooDeep offset error

theorem addRoot_failsDeep {graph : TypeGraph} (deep : source.FailsDeep graph)
    (found : source.units.entry? offset = some entry) :
    source.FailsDeep (source.addRoot graph offset) := by
  obtain ⟨same, _⟩ | ⟨_, ⟨id, resolved⟩ | ⟨error, failed, same⟩⟩ :=
    addRoot_cases source graph offset
  · rwa [same]
  · intro other error known
    rw [TypeGraph.failureAt?, (walk_eq_ok resolved).2] at known
    exact deep known
  · intro other other_error known sound
    rw [same, TypeGraph.failureAt?, TypeGraph.fail, lookup_cons_if] at known
    split at known
    next here =>
      cases known
      subst here
      obtain ⟨steps, last, descends, earlier | ⟨rfl, too_deep⟩⟩ :=
        descends_of_walk_error sound found (walk_eq_error_iff.mpr failed)
      · have below : ¬source.Broken last := fun broken => sound (broken.of_reaches descends.reaches)
        obtain ⟨more, final, onward, long, rfl⟩ := deep earlier below
        exact ⟨_, final, descends.trans onward, Nat.le_add_left_of_le long, rfl⟩
      · exact ⟨_, last, descends, Nat.le_refl _, too_deep⟩
    next => exact deep known sound

theorem addRoots_failsDeep {graph : TypeGraph} (deep : source.FailsDeep graph) {roots : List Nat}
    (found : ∀ root ∈ roots, (source.units.entry? root).isSome = true) :
    source.FailsDeep (roots.foldl source.addRoot graph) := by
  induction roots generalizing graph with
  | nil => exact deep
  | cons root roots ih =>
      obtain ⟨first, others⟩ := List.forall_mem_cons.mp found
      obtain ⟨entry, root_found⟩ := Option.isSome_iff_exists.mp first
      exact ih (addRoot_failsDeep deep root_found) others

/-! ## Walks that succeed -/

/-- A walk comes to the entry where it begins, and what it comes to it can go on from. -/
theorem walk_eq_ok_cases {last : List Nat} (found : source.units.entry? offset = some entry)
    (walked : source.walk failureAt? count origin offset seen = .ok last) :
    offset ∈ seen ∧ last = seen ∨ offset ∉ seen ∧ ∃ fewer, count = fewer + 1 ∧
      meetAll (source.walk failureAt? fewer) (source.demands entry) (offset :: seen) =
        .ok last := by
  by_cases member : offset ∈ seen
  · cases (walk_seen member).symm.trans walked
    exact .inl ⟨member, rfl⟩
  · rw [walk_unseen member found] at walked
    cases known : failureAt? offset with
    | some error =>
        rw [known] at walked
        cases walked
    | none =>
        rw [known] at walked
        cases count with
        | zero => cases walked
        | succ count => exact .inr ⟨member, count, rfl, walked⟩

theorem meetAll_cons_eq_ok {follow : Nat → Nat → TypeWalk} {demand : TypeDemand}
    {demands : List TypeDemand} {last : List Nat} :
    meetAll follow (demand :: demands) seen = .ok last ↔
      ∃ middle, demand.meet follow seen = .ok middle ∧ meetAll follow demands middle = .ok last := by
  rw [meetAll]
  exact bind_eq_ok_iff

/-- What holds of a walk that has met a demand, whatever it is, holds of one that has met all. -/
theorem meetAll_keeps {follow : Nat → Nat → TypeWalk} {demands : List TypeDemand}
    (inv : List Nat → Prop) {last : List Nat}
    (each : ∀ {origin target middle reached}, .type origin target ∈ demands →
      follow origin target middle = .ok reached → inv middle → inv reached)
    (met : meetAll follow demands seen = .ok last) (holds : inv seen) : inv last := by
  induction demands generalizing seen with
  | nil =>
      cases met
      exact holds
  | cons demand demands ih =>
      obtain ⟨middle, first, rest⟩ := meetAll_cons_eq_ok.mp met
      refine ih (fun asked => each (List.mem_cons_of_mem _ asked)) rest ?_
      cases demand with
      | missing error => cases first
      | type origin target => exact each List.mem_cons_self first holds

/-- A walk that has met all demands has met each, the demands before it being met already. -/
theorem meetAll_comes_to {follow : Nat → Nat → TypeWalk} {demands : List TypeDemand}
    (inv : List Nat → Prop) {last : List Nat} {target : Nat}
    (each : ∀ {origin other middle reached}, .type origin other ∈ demands → other ≠ target →
      follow origin other middle = .ok reached → inv middle → inv reached)
    (asked : .type origin target ∈ demands) (met : meetAll follow demands seen = .ok last)
    (holds : inv seen) :
    ∃ origin middle reached, follow origin target middle = .ok reached ∧ inv middle := by
  induction demands generalizing seen with
  | nil => cases asked
  | cons demand demands ih =>
      obtain ⟨middle, first, rest⟩ := meetAll_cons_eq_ok.mp met
      cases demand with
      | missing error => cases first
      | type here other =>
          by_cases same : other = target
          · exact ⟨here, seen, middle, same ▸ first, holds⟩
          · have later : .type origin target ∈ demands := by
              refine (List.mem_cons.mp asked).resolve_left fun equal => ?_
              cases equal
              exact same rfl
            exact ih (fun asked => each (List.mem_cons_of_mem _ asked)) later rest
              (each List.mem_cons_self same first holds)

/-- A walk comes to nothing that cannot be reached from where it begins. -/
theorem walk_adds {last : List Nat} (sound : ¬source.Broken offset)
    (found : source.units.entry? offset = some entry)
    (walked : source.walk failureAt? count origin offset seen = .ok last) :
    ∀ other ∈ last, other ∈ seen ∨ source.Reaches offset other := by
  induction count using Nat.strongRecOn generalizing origin offset seen entry last with
  | ind count ih =>
      obtain ⟨_, rfl⟩ | ⟨_, fewer, rfl, met⟩ := walk_eq_ok_cases found walked
      · exact fun other member => .inl member
      · have flawless : ¬source.Defective entry :=
          fun defective => sound ⟨offset, entry, .refl, found, defective⟩
        refine meetAll_keeps (fun list => ∀ other ∈ list, other ∈ seen ∨ source.Reaches offset other)
          (fun {here target middle reached} asked first holds => ?_) met ?_
        · have follows := follows_of_demand found flawless asked
          obtain ⟨target_entry, target_found⟩ := Option.isSome_iff_exists.mp follows.found
          intro other member
          obtain earlier | below := ih fewer (Nat.lt_succ_self fewer)
            (fun broken => sound (broken.head follows)) target_found first other member
          · exact holds other earlier
          · exact .inr (.head follows below)
        · intro other member
          obtain rfl | earlier := List.mem_cons.mp member
          · exact .inr .refl
          · exact .inl earlier

/-- A walk through entries that are new to it goes as deep as they are nested. -/
theorem steps_lt_of_walk (acyclic : source.Acyclic) (unshared : source.Unshared)
    {steps last : Nat} {final : List Nat} (sound : ¬source.Broken offset)
    (fresh : ∀ other, source.Reaches offset other → other ∉ seen)
    (found : source.units.entry? offset = some entry)
    (walked : source.walk failureAt? count origin offset seen = .ok final)
    (descends : source.Descends steps offset last) : steps < count := by
  induction descends generalizing count origin seen entry final with
  | here offset =>
      obtain ⟨member, _⟩ | ⟨_, fewer, rfl, _⟩ := walk_eq_ok_cases found walked
      · exact absurd member (fresh offset .refl)
      · exact Nat.succ_pos fewer
  | @down steps offset next last follows _ ih =>
      obtain ⟨member, _⟩ | ⟨_, fewer, rfl, met⟩ := walk_eq_ok_cases found walked
      · exact absurd member (fresh offset .refl)
      · have flawless : ¬source.Defective entry :=
          fun defective => sound ⟨offset, entry, .refl, found, defective⟩
        obtain ⟨same, referrer, same_found, refers, reference, _⟩ := follows
        cases found.symm.trans same_found
        have asked := demand_of_refers flawless refers reference
        have follows := follows_of_demand found flawless asked
        obtain ⟨next_entry, next_found⟩ := Option.isSome_iff_exists.mp follows.found
        have next_sound : ¬source.Broken next := fun broken => sound (broken.head follows)
        have begun : ∀ other, source.Reaches next other → other ∉ offset :: seen := by
          intro other reaches member
          obtain rfl | earlier := List.mem_cons.mp member
          · exact acyclic other (.head' follows reaches)
          · exact fresh other (.head follows reaches) earlier
        have kept {here other : Nat} {middle reached : List Nat}
            (asked_other : .type here other ∈ source.demands entry) (differs : other ≠ next)
            (first : source.walk failureAt? fewer here other middle = .ok reached)
            (holds : ∀ below, source.Reaches next below → below ∉ middle) :
            ∀ below, source.Reaches next below → below ∉ reached := by
          have other_follows := follows_of_demand found flawless asked_other
          obtain ⟨other_entry, other_found⟩ := Option.isSome_iff_exists.mp other_follows.found
          intro below reaches member
          obtain earlier | other_reaches := walk_adds
            (fun broken => sound (broken.head other_follows)) other_found first below member
          · exact holds below reaches earlier
          · exact unshared.disjoint acyclic other_follows follows differs other_reaches reaches
        obtain ⟨here, middle, reached, walked_next, fresh_next⟩ :=
          meetAll_comes_to _ kept asked met begun
        exact Nat.succ_lt_succ (ih next_sound fresh_next next_found walked_next)

/-! ## Roots in order -/

theorem knows_iff {graph : TypeGraph} : graph.Knows offset ↔ offset ∈ graph.offsets := by
  rw [TypeGraph.mem_offsets, Option.ne_none_iff_exists']
  rfl

section TopDown

variable {earlier later : List Nat} {root : Nat}
variable (flawless : source.Flawless) (topDown : source.TopDown)
variable (order : source.typeOffsets = earlier ++ root :: later)

include topDown order in
theorem not_follows_earlier {before behind : Nat} (early : before ∈ earlier)
    (late : behind ∈ root :: later) : ¬source.Follows behind before := by
  unfold TopDown at topDown
  rw [order, List.pairwise_append] at topDown
  exact topDown.2.2 before early behind late

include flawless topDown order in
theorem not_before_of_reaches {target : Nat} (reaches : source.Reaches root target) :
    target ∈ root :: later := by
  induction reaches with
  | refl => exact List.mem_cons_self
  | @tail middle target _ follows ih =>
      have type : source.TypeAt middle :=
        mem_typeOffsets.mp (order ▸ List.mem_append_right _ ih)
      have listed := mem_typeOffsets.mpr (flawless.follows type follows)
      rw [order, List.mem_append] at listed
      exact listed.resolve_left fun early => not_follows_earlier topDown order early ih follows

end TopDown

/-- A graph after some roots, in which everything known is below one of them. -/
structure Rooted (source : TypeSource) (roots : List Nat) (graph : TypeGraph) : Prop where
  explored : source.Explored [] graph
  below : ∀ {offset}, graph.Knows offset →
    ∃ root ∈ roots, graph.Knows root ∧ source.Reaches root offset

theorem Rooted.empty : source.Rooted [] .empty where
  explored := explored_empty
  below := by
    rintro offset ⟨id, known⟩
    cases known

theorem addRoot_knows {graph : TypeGraph} {root : Nat} {id : TypeId}
    (explored : source.Explored [] graph) (found : (source.units.entry? root).isSome = true)
    (unfailed : ¬graph.Fails root)
    (resolved : source.resolve maxNesting root root graph = .ok (id, source.addRoot graph root)) :
    (source.addRoot graph root).Knows root := by
  refine (addRoot_explored explored found).2.2.resolve_right ?_
  rintro ⟨error, failed⟩
  rw [TypeGraph.failureAt?, (walk_eq_ok resolved).2] at failed
  exact unfailed ⟨error, failed⟩

/-- What a root adds can be reached from it. -/
theorem reaches_of_addRoot {graph : TypeGraph} {root other : Nat}
    (explored : source.Explored [] graph) (found : (source.units.entry? root).isSome = true)
    (known : (source.addRoot graph root).Knows other) :
    graph.Knows other ∨ (source.addRoot graph root).Knows root ∧ source.Reaches root other := by
  obtain ⟨same, _⟩ | ⟨⟨_, unfailed⟩, ⟨id, resolved⟩ | ⟨error, _, same⟩⟩ :=
    addRoot_cases source graph root
  · exact .inl (same ▸ known)
  · have root_known := addRoot_knows explored found unfailed resolved
    have sound := (addRoot_explored explored found).1.not_broken root_known
    obtain ⟨entry, present⟩ := Option.isSome_iff_exists.mp found
    have added := walk_adds sound present (walk_eq_ok resolved).1 other (knows_iff.mp known)
    exact added.imp knows_iff.mpr fun reaches => ⟨root_known, reaches⟩
  · rw [same] at known
    exact .inl known

theorem Rooted.addRoot {roots : List Nat} {root : Nat} {graph : TypeGraph}
    (rooted : source.Rooted roots graph) (found : (source.units.entry? root).isSome = true) :
    source.Rooted (roots ++ [root]) (source.addRoot graph root) := by
  obtain ⟨explored, extended, _⟩ := addRoot_explored rooted.explored found
  refine ⟨explored, fun known => ?_⟩
  obtain before | ⟨root_known, reaches⟩ := reaches_of_addRoot rooted.explored found known
  · obtain ⟨above, early, above_known, reaches⟩ := rooted.below before
    exact ⟨above, List.mem_append_left _ early, extended.knows above_known, reaches⟩
  · exact ⟨root, List.mem_append_right _ List.mem_cons_self, root_known, reaches⟩

theorem addRoots_rooted {roots : List Nat}
    (found : ∀ root ∈ roots, (source.units.entry? root).isSome = true) :
    source.Rooted roots (roots.foldl source.addRoot .empty) := by
  induction roots using List.reverseRecOn with
  | nil => exact .empty
  | append_singleton roots root ih =>
      obtain ⟨earlier, last⟩ := List.forall_mem_append.mp found
      rw [List.foldl_append]
      exact (ih earlier).addRoot (last root List.mem_cons_self)

/-- A graph after some roots, in which nothing known is nested too deep. -/
structure Shallow (source : TypeSource) (roots : List Nat) (graph : TypeGraph) : Prop
    extends source.Rooted roots graph where
  shallow : ∀ {offset steps last}, graph.Knows offset → source.Descends steps offset last →
    steps < maxNesting

/-- What can be reached from a root that is not known is not known either, if nothing is shared. -/
theorem Shallow.fresh {earlier later : List Nat} {root other : Nat} {graph : TypeGraph}
    (shallow : source.Shallow earlier graph) (unshared : source.Unshared)
    (flawless : source.Flawless) (topDown : source.TopDown)
    (order : source.typeOffsets = earlier ++ root :: later) (unknown : ¬graph.Knows root)
    (reaches : source.Reaches root other) : other ∉ graph.offsets := by
  intro member
  obtain ⟨above, early, known, above_reaches⟩ := shallow.below (knows_iff.mpr member)
  obtain down | up := unshared.total reaches above_reaches
  · obtain rfl | ⟨middle, onward, follows⟩ := Relation.ReflTransGen.cases_tail down
    · exact unknown known
    · have late := not_before_of_reaches flawless topDown order onward
      exact not_follows_earlier topDown order early late follows
  · exact unknown (shallow.explored.knows_of_reaches known up)

theorem Shallow.addRoot {earlier later : List Nat} {root : Nat} {graph : TypeGraph}
    (shallow : source.Shallow earlier graph) (acyclic : source.Acyclic)
    (unshared : source.Unshared) (flawless : source.Flawless) (topDown : source.TopDown)
    (order : source.typeOffsets = earlier ++ root :: later) :
    source.Shallow (earlier ++ [root]) (source.addRoot graph root) := by
  have listed : root ∈ source.typeOffsets :=
    order ▸ List.mem_append_right _ List.mem_cons_self
  have present := entry?_of_typeOffsets listed
  have sound := flawless (mem_typeOffsets.mp listed)
  obtain ⟨entry, found⟩ := Option.isSome_iff_exists.mp present
  refine ⟨shallow.toRooted.addRoot present, fun known descends => ?_⟩
  obtain before | ⟨_, reaches⟩ := reaches_of_addRoot shallow.explored present known
  · exact shallow.shallow before descends
  obtain ⟨same, _⟩ | ⟨⟨unknown, _⟩, ⟨id, resolved⟩ | ⟨error, _, same⟩⟩ :=
    addRoot_cases source graph root
  · exact shallow.shallow (same ▸ known) descends
  · obtain ⟨more, above⟩ := Descends.of_reaches reaches
    have bound := steps_lt_of_walk acyclic unshared sound
      (fun _ => shallow.fresh unshared flawless topDown order unknown) found
      (walk_eq_ok resolved).1 (above.trans descends)
    omega
  · rw [same] at known
    exact shallow.shallow known descends

theorem addRoots_shallow (acyclic : source.Acyclic) (unshared : source.Unshared)
    (flawless : source.Flawless) (topDown : source.TopDown) {roots : List Nat}
    (order : roots <+: source.typeOffsets) :
    source.Shallow roots (roots.foldl source.addRoot .empty) := by
  induction roots using List.reverseRecOn with
  | nil =>
      refine ⟨.empty, ?_⟩
      rintro offset steps last ⟨id, known⟩
      cases known
  | append_singleton roots root ih =>
      obtain ⟨later, split⟩ := order
      rw [List.append_assoc] at split
      have before := ih ⟨root :: later, split⟩
      rw [List.foldl_append]
      exact before.addRoot acyclic unshared flawless topDown split.symm

/-- A walk to an entry stays there if all that the entry refers to has been come to. -/
theorem walk_stays (found : source.units.entry? offset = some entry)
    (sound : ¬source.Defective entry) (unfailed : failureAt? offset = none)
    (unseen : offset ∉ seen)
    (seen_all : ∀ target, source.Follows offset target → target ∈ seen) :
    source.walk failureAt? (count + 1) origin offset seen = .ok (offset :: seen) := by
  rw [walk_unseen unseen found, unfailed]
  have each (demands : List TypeDemand) (asked : demands ⊆ source.demands entry) :
      meetAll (source.walk failureAt? count) demands (offset :: seen) = .ok (offset :: seen) := by
    induction demands with
    | nil => rfl
    | cons demand demands ih =>
        obtain ⟨first, others⟩ := List.cons_subset.mp asked
        refine meetAll_cons_eq_ok.mpr ⟨offset :: seen, ?_, ih others⟩
        cases demand with
        | missing error => exact absurd (defective_of_demand first) sound
        | type here target =>
            have follows := follows_of_demand found sound first
            exact walk_seen (List.mem_cons_of_mem _ (seen_all target follows))
  exact each _ (List.Subset.refl _)

/-- What a root refers to stands before it, if entries come after those that they refer to. -/
theorem earlier_of_follows {earlier later : List Nat} {root target : Nat}
    (acyclic : source.Acyclic) (flawless : source.Flawless) (bottomUp : source.BottomUp)
    (order : source.typeOffsets = earlier ++ root :: later) (follows : source.Follows root target) :
    target ∈ earlier := by
  have type : source.TypeAt root :=
    mem_typeOffsets.mp (order ▸ List.mem_append_right _ List.mem_cons_self)
  have listed := mem_typeOffsets.mpr (flawless.follows type follows)
  unfold BottomUp at bottomUp
  rw [order, List.pairwise_append, List.pairwise_cons] at bottomUp
  rw [order, List.mem_append, List.mem_cons] at listed
  obtain early | rfl | late := listed
  · exact early
  · exact absurd (.single follows) (acyclic target)
  · exact absurd follows (bottomUp.2.1.1 target late)

/-- A root does not fail if all that it refers to is known. -/
theorem addRoot_failures_eq_nil {graph : TypeGraph} {root : Nat} (type : source.TypeAt root)
    (flawless : source.Flawless) (no_failures : graph.failures = [])
    (known : ∀ target, source.Follows root target → graph.Knows target) :
    (source.addRoot graph root).failures = [] := by
  obtain ⟨entry, found⟩ :=
    Option.isSome_iff_exists.mp (entry?_of_typeOffsets (mem_typeOffsets.mpr type))
  obtain ⟨same, _⟩ | ⟨⟨unknown, _⟩, ⟨id, resolved⟩ | ⟨error, failed, _⟩⟩ :=
    addRoot_cases source graph root
  · rw [same, no_failures]
  · rw [(walk_eq_ok resolved).2, no_failures]
  · have sound : ¬source.Defective entry :=
      fun defective => flawless type ⟨root, entry, .refl, found, defective⟩
    have unfailed : graph.failureAt? root = none := by
      rw [TypeGraph.failureAt?, no_failures]
      rfl
    have unseen : root ∉ graph.offsets := mt knows_iff.mpr unknown
    have stays : source.walk graph.failureAt? maxNesting root root graph.offsets =
        .ok (root :: graph.offsets) :=
      walk_stays found sound unfailed unseen fun target follows => knows_iff.mp (known target follows)
    cases stays.symm.trans (walk_eq_error_iff.mpr failed)

/-- Roots that come after all that they refer to are known one after the other. -/
theorem addRoots_bottomUp (acyclic : source.Acyclic) (flawless : source.Flawless)
    (bottomUp : source.BottomUp) {roots : List Nat} (order : roots <+: source.typeOffsets) :
    source.Explored [] (roots.foldl source.addRoot .empty) ∧
      (roots.foldl source.addRoot .empty).failures = [] ∧
        ∀ root ∈ roots, (roots.foldl source.addRoot .empty).Knows root := by
  induction roots using List.reverseRecOn with
  | nil => exact ⟨explored_empty, rfl, fun root member => nomatch member⟩
  | append_singleton roots root ih =>
      obtain ⟨later, split⟩ := order
      rw [List.append_assoc] at split
      obtain ⟨explored, no_failures, known⟩ := ih ⟨root :: later, split⟩
      have listed : root ∈ source.typeOffsets :=
        split ▸ List.mem_append_right _ List.mem_cons_self
      obtain ⟨kept, extended, decided⟩ := addRoot_explored explored (entry?_of_typeOffsets listed)
      have still_none := addRoot_failures_eq_nil (mem_typeOffsets.mp listed) flawless no_failures
        fun target follows =>
          known target (earlier_of_follows acyclic flawless bottomUp split.symm follows)
      rw [List.foldl_append]
      refine ⟨kept, still_none, List.forall_mem_append.mpr ⟨?_, ?_⟩⟩
      · exact fun other member => extended.knows (known other member)
      · refine List.forall_mem_singleton.mpr (decided.resolve_right ?_)
        rintro ⟨error, failed⟩
        rw [TypeGraph.failureAt?, still_none] at failed
        cases failed

/-! ## The graph of all types -/

theorem lookup_build_cases (type : source.TypeAt offset) :
    source.build.Knows offset ∨
      ∃ error, source.build.lookup offset = .error error ∧
        source.build.failureAt? offset = some error := by
  obtain known | ⟨error, failed⟩ := build_decides source (mem_typeOffsets.mpr type)
  · exact .inl known
  · refine .inr ⟨error, ?_, failed⟩
    have unknown : source.build.idAt? offset = none := by
      refine TypeGraph.not_knows_iff.mp fun known => ?_
      exact (build_consistent source).1.unfailed known ⟨error, failed⟩
    rw [TypeGraph.lookup, unknown, failed]
    rfl

theorem lookup_build_deep (sound : ¬source.Broken offset) (type : source.TypeAt offset)
    {error : Error} (failed : source.build.lookup offset = .error error) :
    source.TooDeep offset error := by
  have deep : source.FailsDeep source.build := by
    rw [build_eq]
    refine addRoots_failsDeep ?_ fun root => entry?_of_typeOffsets
    intro other error known
    cases known
  obtain known | ⟨other, same, noted⟩ := lookup_build_cases type
  · obtain ⟨id, found⟩ := TypeGraph.lookup_eq_ok_iff.mpr known
    cases found.symm.trans failed
  · cases same.symm.trans failed
    exact deep noted sound

theorem lookup_build_bottomUp (acyclic : source.Acyclic) (flawless : source.Flawless)
    (bottomUp : source.BottomUp) (type : source.TypeAt offset) :
    ∃ id, source.build.lookup offset = .ok id := by
  have known := (addRoots_bottomUp acyclic flawless bottomUp (List.prefix_refl _)).2.2 offset
    (mem_typeOffsets.mpr type)
  rw [← build_eq] at known
  exact TypeGraph.lookup_eq_ok_iff.mpr known

/-- Where no reference leads back and nothing is defective, type entries fail only because a chain
of references from them is too long, however they are laid out.  If they come before those that
they refer to and share none of them, such a chain always makes them fail.  If they come after
those that they refer to, they never fail. -/
theorem lookup_build_nesting (source : TypeSource) (acyclic : source.Acyclic)
    (flawless : source.Flawless) :
    (∀ {offset error}, source.TypeAt offset → source.build.lookup offset = .error error →
      (∃ last, error = .typeNestingTooDeep last 128) ∧ source.HasLongChain offset) ∧
    (source.TopDown → source.Unshared → ∀ {offset}, source.TypeAt offset →
      ((∃ last, source.build.lookup offset = .error (.typeNestingTooDeep last 128)) ↔
        source.HasLongChain offset)) ∧
    (source.BottomUp → ∀ {offset}, source.TypeAt offset →
      ∃ id, source.build.lookup offset = .ok id) := by
  have deep {offset : Nat} {error : Error} (type : source.TypeAt offset)
      (failed : source.build.lookup offset = .error error) :
      (∃ last, error = .typeNestingTooDeep last 128) ∧ source.HasLongChain offset := by
    obtain ⟨steps, last, descends, long, same⟩ := lookup_build_deep (flawless type) type failed
    exact ⟨⟨last, same⟩, (hasLongChain_iff acyclic).mpr ⟨steps, last, descends, long⟩⟩
  refine ⟨deep, fun topDown unshared offset type => ⟨?_, fun long => ?_⟩, fun bottomUp offset type => ?_⟩
  · rintro ⟨last, failed⟩
    exact (deep type failed).2
  · obtain ⟨steps, last, descends, long⟩ := (hasLongChain_iff acyclic).mp long
    have shallow := addRoots_shallow acyclic unshared flawless topDown (List.prefix_refl _)
    rw [← build_eq] at shallow
    obtain known | ⟨error, failed, _⟩ := lookup_build_cases type
    · exact absurd (shallow.shallow known descends) (Nat.not_lt_of_le long)
    · obtain ⟨reason, rfl⟩ := (deep type failed).1
      exact ⟨reason, failed⟩
  · exact lookup_build_bottomUp acyclic flawless bottomUp type

open TypedefList

/-- A chain of 129 types fails if it is laid out from its beginning on. -/
theorem downward_fails : ∃ last,
    downward.source.build.lookup (place 0) = .error (.typeNestingTooDeep last 128) := by
  have type : downward.source.TypeAt (place 0) := typeAt_ofFunction (Nat.succ_pos 128)
  have nesting := lookup_build_nesting downward.source downward_forward.acyclic downward.flawless
  exact (nesting.2.1 downward_forward.topDown downward_unshared type).mpr downward_longChain

/-- A chain of 129 types does not fail if it is laid out from its end on. -/
theorem upward_resolves :
    upward.source.Acyclic ∧ upward.source.Flawless ∧ upward.source.TypeAt (place 128) ∧
      upward.source.HasLongChain (place 128) ∧
        ∃ id, upward.source.build.lookup (place 128) = .ok id := by
  have type : upward.source.TypeAt (place 128) := typeAt_ofFunction (Nat.lt_succ_self 128)
  refine ⟨upward_backward.acyclic, upward.flawless, type, upward_longChain, ?_⟩
  exact lookup_build_bottomUp upward_backward.acyclic upward.flawless upward_backward.bottomUp type

end TypeSource

end Dwarf
