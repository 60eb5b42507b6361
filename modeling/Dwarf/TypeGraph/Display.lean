import Dwarf.TypeGraph

/-! # Names of types

A type is shown as a declaration would write it, without the names of variables. Deep types are
cut off. -/

namespace Dwarf

/-- The word for a kind of composite type. -/
def CompositeKind.keyword : CompositeKind → String
  | structType => "struct"
  | classType => "class"
  | unionType => "union"
  | interfaceType => "interface"

/-- The word for a qualifier. -/
def Qualifier.keyword : Qualifier → String
  | const => "const"
  | volatile => "volatile"
  | restrict => "restrict"
  | atomic => "_Atomic"

/-- A dimension between brackets. -/
def Dimension.display (dimension : Dimension) : String :=
  match dimension.count with
  | some count => "[" ++ toString count.toNat ++ "]"
  | none => "[]"

namespace TypeGraph

/-- What stands for a missing name. -/
def anonymous : String := "<anonymous>"

/-- Parameters between parentheses. -/
def parameterList (parameters : List String) (variadic : Bool) : String :=
  "(" ++ ", ".intercalate (parameters ++ if variadic then ["..."] else []) ++ ")"

/-- The name of a type down to a number of levels. -/
def displayWithin (graph : TypeGraph) : Nat → TypeId → String
  | 0, _ => "..."
  | level + 1, id =>
    let node := graph.node id
    let name := node.name.getD anonymous
    let inner := graph.displayWithin level
    match node.kind with
    | .void => "void"
    | .pending => "<pending>"
    | .base _ | .typedef _ | .unspecified => name
    | .composite kind _ _ => kind.keyword ++ " " ++ name
    | .enumeration _ _ => "enum " ++ name
    | .pointer target => inner target ++ "*"
    | .reference target rvalue => inner target ++ if rvalue then "&&" else "&"
    | .qualified qualifier target =>
      match (graph.node target).kind with
      | .pointer _ => inner target ++ " " ++ qualifier.keyword
      | _ => qualifier.keyword ++ " " ++ inner target
    | .array element dimensions =>
      inner element ++ String.join (dimensions.map Dimension.display)
    | .subroutine returnType parameters variadic =>
      inner returnType ++ " " ++ parameterList (parameters.map inner) variadic

/-- The name of a type. -/
def display (graph : TypeGraph) (id : TypeId) : String :=
  graph.displayWithin (maxLevels + 1) id

end TypeGraph

end Dwarf
