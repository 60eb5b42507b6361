import Mathlib.Algebra.Group.Nat.Defs
import Mathlib.Data.List.Induction
import Dwarf.Proofs.TypeGraph.Closure

/-!
# Sizes

The size of a type is that of the first type behind typedefs and qualifiers that has one.  While
types are being built, the size that is found can only be missing, never wrong: a type that has been
built stays, and a type that is being built says nothing yet.  The size of an array is the product
of the size of its elements and the numbers of elements of its dimensions, multiplied from left to
right.
-/

namespace Dwarf

theorem TypeKind.mem_edges_of_behind {kind : TypeKind} {target : TypeId}
    (behind : kind.behind? = some target) : target ∈ kind.edges := by
  cases kind <;> simp_all [behind?, edges]

namespace TypeGraph

/-! ## Types that have been built -/

/-- A later state of a graph, in which types that were being built may have been built. -/
structure Keeps (graph later : TypeGraph) : Prop where
  idAt? : ∀ {offset id}, graph.idAt? offset = some id → later.idAt? offset = some id
  node : ∀ {id}, graph.node id ≠ .pending → later.node id = graph.node id

variable {graph later : TypeGraph}

theorem Keeps.refl (graph : TypeGraph) : graph.Keeps graph :=
  ⟨id, fun _ => rfl⟩

theorem Keeps.trans {last : TypeGraph} (first : graph.Keeps later) (second : later.Keeps last) :
    graph.Keeps last where
  idAt? := fun known => second.idAt? (first.idAt? known)
  node := by
    intro id built
    have same := first.node built
    exact (second.node (same ▸ built)).trans same

theorem Keeps.knows {offset : Nat} (keeps : graph.Keeps later) (known : graph.Knows offset) :
    later.Knows offset := by
  obtain ⟨id, number⟩ := known
  exact ⟨id, keeps.idAt? number⟩

theorem Grows.keeps (grows : graph.Grows later) : graph.Keeps later where
  idAt? := grows.idAt?
  node := by
    intro id built
    by_cases within : id < graph.size
    · exact grows.node within
    · have outside : graph.nodes[id]? = none := Array.getElem?_eq_none (Nat.le_of_not_lt within)
      refine absurd ?_ built
      rw [TypeGraph.node, outside]
      rfl

theorem keeps_fill {id : TypeId} (unbuilt : graph.node id = .pending) (node : TypeNode) :
    graph.Keeps (graph.fill id node) where
  idAt? := fun known => known
  node := by
    intro other built
    have differs : id ≠ other := by
      rintro rfl
      exact built unbuilt
    exact node_fill_ne differs node

theorem keeps_fail (graph : TypeGraph) (offset : Nat) (error : Error) :
    graph.Keeps (graph.fail offset error) :=
  ⟨fun known => known, fun _ => rfl⟩

/-! ## Sizes of types -/

/-- A type says nothing about its size but what the type behind it says. -/
def Defers (graph : TypeGraph) (id target : TypeId) : Prop :=
  (graph.node id).byteSize = none ∧ (graph.node id).kind.behind? = some target

theorem sizeWithin_eq_none_of_pending {count : Nat} {id : TypeId} (node : graph.node id = .pending) :
    graph.sizeWithin count id = none := by
  cases count with
  | zero => rfl
  | succ count =>
      rw [sizeWithin, node]
      rfl

/-- A size that is found stays, unless the way to it leads to a type that is being built. -/
theorem Keeps.sizeWithin (keeps : graph.Keeps later) (count : Nat) (id : TypeId) :
    later.sizeWithin count id = graph.sizeWithin count id ∨
      ∃ fewer place, Relation.ReflTransGen graph.Defers id place ∧
        graph.node place = .pending ∧ graph.sizeWithin count id = none ∧
        later.sizeWithin count id = later.sizeWithin fewer place := by
  induction count generalizing id with
  | zero => exact .inl rfl
  | succ count ih =>
      by_cases pending : graph.node id = .pending
      · exact .inr ⟨count + 1, id, .refl, pending, sizeWithin_eq_none_of_pending pending, rfl⟩
      · have same := keeps.node pending
        simp only [TypeGraph.sizeWithin, same]
        cases size : (graph.node id).byteSize with
        | some size => exact .inl rfl
        | none =>
            cases behind : (graph.node id).kind.behind? with
            | none => exact .inl rfl
            | some target =>
                refine (ih target).imp_right ?_
                rintro ⟨fewer, place, onward, rest⟩
                exact ⟨fewer, place, .head ⟨size, behind⟩ onward, rest⟩

end TypeGraph

/-! ## Sizes of arrays -/

/-- The size of an array in bytes, given the size of an element, if every dimension is known. -/
def exactSize? (size : Option UInt64) (dimensions : List Dimension) : Option Nat := do
  let counts ← dimensions.mapM Dimension.count
  return (← size).toNat * (counts.map UInt64.toNat).prod

/-- The size of an array as far as it can be said in a word. -/
def wordSize? (size : Option UInt64) (dimensions : List Dimension) : Option UInt64 :=
  (exactSize? size dimensions).bind fun bytes =>
    if bytes < UInt64.size then some (.ofNat bytes) else none

variable {size : Option UInt64} {dimensions : List Dimension}

theorem exactSize?_concat (size : Option UInt64) (dimensions : List Dimension)
    (dimension : Dimension) :
    exactSize? size (dimensions ++ [dimension]) =
      (exactSize? size dimensions).bind fun bytes =>
        dimension.count.map fun count => bytes * count.toNat := by
  unfold exactSize?
  rw [List.mapM_append, List.mapM_cons, List.mapM_nil]
  cases dimensions.mapM Dimension.count with
  | none => rfl
  | some counts =>
      cases size with
      | none => cases dimension.count <;> rfl
      | some size =>
          cases dimension.count with
          | none => rfl
          | some count => simp [Nat.mul_assoc]

theorem wordSize?_of_exact {bytes : Nat} (exact : exactSize? size dimensions = some bytes) :
    wordSize? size dimensions = if bytes < UInt64.size then some (.ofNat bytes) else none := by
  rw [wordSize?, exact, Option.bind_some]

theorem exactSize?_of_word {value : UInt64} (word : wordSize? size dimensions = some value) :
    exactSize? size dimensions = some value.toNat := by
  cases exact : exactSize? size dimensions with
  | none =>
      rw [wordSize?, exact] at word
      cases word
  | some bytes =>
      rw [wordSize?_of_exact exact] at word
      split at word
      next fits =>
        cases word
        rw [UInt64.toNat_ofNat_of_lt' fits]
      next => cases word

theorem wordSize?_nil (size : Option UInt64) : wordSize? size [] = size := by
  cases size with
  | none => rfl
  | some size =>
      have exact : exactSize? (some size) [] = some size.toNat := by simp [exactSize?]
      rw [wordSize?_of_exact exact, if_pos size.toNat_lt, UInt64.ofNat_toNat]

theorem mul?_eq (first second : UInt64) :
    Word.mul? first second =
      if first.toNat * second.toNat < UInt64.size then
        some (.ofNat (first.toNat * second.toNat))
      else none := by
  rw [Word.mul?, UInt64.ofNat_mul, UInt64.ofNat_toNat, UInt64.ofNat_toNat]

theorem wordSize?_concat {bytes : UInt64} (word : wordSize? size dimensions = some bytes)
    (dimension : Dimension) :
    wordSize? size (dimensions ++ [dimension]) =
      dimension.count.bind fun count => Word.mul? bytes count := by
  rw [wordSize?, exactSize?_concat, exactSize?_of_word word, Option.bind_some]
  cases dimension.count with
  | none => rfl
  | some count =>
      rw [Option.map_some, Option.bind_some, Option.bind_some, mul?_eq]

/-- What cannot be said in a word cannot be said with one more dimension, unless that one has no
elements. -/
theorem wordSize?_concat_of_none (word : wordSize? size dimensions = none)
    (dimension : Dimension) :
    wordSize? size (dimensions ++ [dimension]) = none ∨
      wordSize? size (dimensions ++ [dimension]) = some 0 := by
  rw [wordSize?, exactSize?_concat]
  cases exact : exactSize? size dimensions with
  | none => exact .inl rfl
  | some bytes =>
      rw [wordSize?_of_exact exact] at word
      have large : UInt64.size ≤ bytes := Nat.le_of_not_lt fun fits => by
        rw [if_pos fits] at word
        cases word
      cases dimension.count with
      | none => exact .inl rfl
      | some count =>
          simp only [Option.bind_some, Option.map_some]
          obtain empty | positive := Nat.eq_zero_or_pos count.toNat
          · exact .inr (by rw [empty, Nat.mul_zero]; rfl)
          · have larger := Nat.le_mul_of_pos_right bytes positive
            exact .inl (if_neg (Nat.not_lt_of_le (Nat.le_trans large larger)))

namespace TypeSource

/-- The dimensions of an array entry. -/
def dimensionsOf (entry : EntryRef) : List Dimension :=
  (childrenOf entry .subrangeType).map Dimension.ofEntry

theorem arraySize_concat (graph : TypeGraph) (element : TypeId) (dimensions : List Dimension)
    (dimension : Dimension) :
    arraySize graph element (dimensions ++ [dimension]) =
      (arraySize graph element dimensions).bind fun bytes =>
        dimension.count.bind fun count => Word.mul? bytes count := by
  rw [arraySize, List.foldl_append]
  rfl

theorem arraySize_congr {graph other : TypeGraph} {element : TypeId}
    (same : other.sizeOf? element = graph.sizeOf? element) (dimensions : List Dimension) :
    arraySize other element dimensions = arraySize graph element dimensions := by
  rw [arraySize, same, arraySize]

theorem arraySize_eq_none {graph : TypeGraph} {element : TypeId}
    (unknown : graph.sizeOf? element = none) (dimensions : List Dimension) :
    arraySize graph element dimensions = none := by
  induction dimensions using List.reverseRecOn with
  | nil => exact unknown
  | append_singleton dimensions dimension ih => rw [arraySize_concat, ih, Option.bind_none]

/-- Multiplying from left to right gives the size of an array, unless the product is zero but
exceeds a word before a dimension without elements is met. -/
theorem arraySize_cases (graph : TypeGraph) (element : TypeId) (dimensions : List Dimension) :
    arraySize graph element dimensions = wordSize? (graph.sizeOf? element) dimensions ∨
      arraySize graph element dimensions = none ∧
        wordSize? (graph.sizeOf? element) dimensions = some 0 ∧
        ∃ shorter, shorter <+: dimensions ∧
          wordSize? (graph.sizeOf? element) shorter = none := by
  generalize known : graph.sizeOf? element = size
  induction dimensions using List.reverseRecOn with
  | nil =>
      left
      rw [arraySize, List.foldl_nil, known, wordSize?_nil]
  | append_singleton dimensions dimension ih =>
      rw [arraySize_concat]
      obtain same | ⟨missing, zero, shorter, before, exceeds⟩ := ih
      · cases word : wordSize? size dimensions with
        | some bytes =>
            left
            rw [same, word, wordSize?_concat word, Option.bind_some]
        | none =>
            rw [same, word, Option.bind_none]
            obtain none | zero := wordSize?_concat_of_none word dimension
            · exact .inl none.symm
            · exact .inr ⟨rfl, zero, dimensions, List.prefix_append .., word⟩
      · rw [missing, Option.bind_none, wordSize?_concat zero]
        cases dimension.count with
        | none => exact .inl rfl
        | some count =>
            refine .inr ⟨rfl, ?_, shorter, before.trans (List.prefix_append ..), exceeds⟩
            rw [Option.bind_some, mul?_eq]
            simp

end TypeSource

end Dwarf
