import Dwarf.Proofs.TypeGraph.Faithfulness

/-!
# Chains of references

How type entries are nested is a matter of the references between them and of the order in which
they are laid out.  Nothing here mentions a graph.
-/

namespace Dwarf

namespace TypeSource

variable {source : TypeSource} {offset : Nat}

/-! ## Chains -/

/-- So many references lead from the entry at one offset down to the entry at another. -/
inductive Descends (source : TypeSource) : Nat → Nat → Nat → Prop where
  | here (offset : Nat) : Descends source 0 offset offset
  | down {steps offset next last : Nat} (follows : source.Follows offset next)
      (rest : Descends source steps next last) : Descends source (steps + 1) offset last

namespace Descends

variable {steps offset last : Nat}

theorem reaches (descends : source.Descends steps offset last) : source.Reaches offset last := by
  induction descends with
  | here offset => exact .refl
  | down follows _ ih => exact .head follows ih

theorem trans {more final : Nat} (descends : source.Descends steps offset last)
    (onward : source.Descends more last final) : source.Descends (steps + more) offset final := by
  induction descends with
  | here offset => exact (Nat.zero_add more).symm ▸ onward
  | @down steps offset next last follows _ ih =>
      rw [Nat.add_right_comm]
      exact .down follows (ih onward)

theorem of_reaches (reaches : source.Reaches offset last) :
    ∃ steps, source.Descends steps offset last := by
  induction reaches using Relation.ReflTransGen.head_induction_on with
  | refl => exact ⟨0, .here last⟩
  | head follows _ ih =>
      obtain ⟨steps, descends⟩ := ih
      exact ⟨steps + 1, .down follows descends⟩

theorem chain (descends : source.Descends steps offset last) :
    ∃ chain : List Nat, (offset :: chain).IsChain source.Follows ∧ chain.length = steps ∧
      (offset :: chain).getLast? = some last := by
  induction descends with
  | here offset => exact ⟨[], .singleton _, rfl, rfl⟩
  | @down steps offset next last follows _ ih =>
      obtain ⟨chain, linked, length, ends⟩ := ih
      refine ⟨next :: chain, .cons_cons follows linked, ?_, ?_⟩
      · rw [List.length_cons, length]
      · rw [List.getLast?_cons_cons, ends]

theorem of_chain {chain : List Nat} (linked : (offset :: chain).IsChain source.Follows) :
    ∃ last, source.Descends chain.length offset last := by
  induction chain generalizing offset with
  | nil => exact ⟨offset, .here offset⟩
  | cons next chain ih =>
      obtain ⟨follows, linked⟩ := List.isChain_cons_cons.mp linked
      obtain ⟨last, descends⟩ := ih linked
      exact ⟨last, .down follows descends⟩

end Descends

/-- No chain of references leads back to where it began. -/
def Acyclic (source : TypeSource) : Prop :=
  ∀ offset, ¬Relation.TransGen source.Follows offset offset

theorem Acyclic.of_rank (rank : Nat → Nat)
    (descend : ∀ {offset target}, source.Follows offset target → rank target < rank offset) :
    source.Acyclic := by
  intro offset back
  have smaller {target : Nat} (leads : Relation.TransGen source.Follows offset target) :
      rank target < rank offset := by
    induction leads with
    | single follows => exact descend follows
    | tail _ follows ih => exact Nat.lt_trans (descend follows) ih
  exact Nat.lt_irrefl _ (smaller back)

theorem Acyclic.nodup (acyclic : source.Acyclic) {chain : List Nat}
    (linked : chain.IsChain source.Follows) : chain.Nodup := by
  have further : chain.IsChain (Relation.TransGen source.Follows) :=
    linked.imp fun _ _ => Relation.TransGen.single
  refine further.pairwise.imp fun {first second} leads same => ?_
  exact acyclic first (same ▸ leads)

/-! ## Entries that are not shared -/

/-- No entry is referred to from two others. -/
def Unshared (source : TypeSource) : Prop :=
  ∀ {first second target}, source.Follows first target → source.Follows second target →
    first = second

theorem Unshared.total (unshared : source.Unshared) {first second target : Nat}
    (left : source.Reaches first target) (right : source.Reaches second target) :
    source.Reaches first second ∨ source.Reaches second first := by
  have backwards : Relator.RightUnique (Function.swap source.Follows) :=
    fun _ _ _ one other => unshared one other
  have both := Relation.ReflTransGen.total_of_right_unique backwards
    (Relation.reflTransGen_swap.mpr left) (Relation.reflTransGen_swap.mpr right)
  exact both.symm.imp Relation.reflTransGen_swap.mp Relation.reflTransGen_swap.mp

/-- Nothing below an entry can be reached from another one that is referred to from the same
place. -/
theorem Unshared.disjoint (unshared : source.Unshared) (acyclic : source.Acyclic)
    {above first second target : Nat} (left : source.Follows above first)
    (right : source.Follows above second) (differs : first ≠ second)
    (first_reaches : source.Reaches first target) (second_reaches : source.Reaches second target) :
    False := by
  have apart {one other : Nat} (one_below : source.Follows above one)
      (other_below : source.Follows above other) (differs : one ≠ other)
      (reaches : source.Reaches one other) : False := by
    obtain rfl | ⟨before, onward, follows⟩ := Relation.ReflTransGen.cases_tail reaches
    · exact differs rfl
    · cases unshared follows other_below
      exact acyclic above (.head' one_below onward)
  obtain down | up := unshared.total first_reaches second_reaches
  · exact apart left right differs down
  · exact apart right left differs.symm up

/-! ## Entries in order -/

/-- No defective entry can be reached from a type entry. -/
def Flawless (source : TypeSource) : Prop :=
  ∀ {offset}, source.TypeAt offset → ¬source.Broken offset

/-- Type entries come before the entries that they refer to. -/
def TopDown (source : TypeSource) : Prop :=
  source.typeOffsets.Pairwise fun earlier later => ¬source.Follows later earlier

/-- Type entries come after the entries that they refer to. -/
def BottomUp (source : TypeSource) : Prop :=
  source.typeOffsets.Pairwise fun earlier later => ¬source.Follows earlier later

theorem Flawless.follows (flawless : source.Flawless) {target : Nat} (type : source.TypeAt offset)
    (follows : source.Follows offset target) : source.TypeAt target := by
  obtain ⟨found, present⟩ := Option.isSome_iff_exists.mp follows.found
  have shaped : found.tag.shape? ≠ none := fun shapeless =>
    flawless type ⟨target, found, .single follows, present, .tag shapeless⟩
  obtain ⟨listed, stored, start⟩ := mem_of_entry? present
  exact ⟨found.unit, listed, found.entry, stored, isType_of_shape shaped, start⟩

/-! ## Chains that are too long -/

/-- A chain of more type entries than references are followed begins at an offset. -/
def HasLongChain (source : TypeSource) (offset : Nat) : Prop :=
  ∃ chain : List Nat, (offset :: chain).IsChain source.Follows ∧ (offset :: chain).Nodup ∧
    128 < (offset :: chain).length

theorem hasLongChain_iff (acyclic : source.Acyclic) :
    source.HasLongChain offset ↔
      ∃ steps last, source.Descends steps offset last ∧ maxNesting ≤ steps := by
  constructor
  · rintro ⟨chain, linked, _, long⟩
    obtain ⟨last, descends⟩ := Descends.of_chain linked
    exact ⟨chain.length, last, descends, Nat.le_of_lt_succ long⟩
  · rintro ⟨steps, last, descends, long⟩
    obtain ⟨chain, linked, length, _⟩ := descends.chain
    refine ⟨chain, linked, acyclic.nodup linked, ?_⟩
    rw [List.length_cons, length]
    exact Nat.lt_succ_of_le long

end TypeSource

end Dwarf
