/-! # File paths

Paths of source files are components between slashes. -/

namespace Dwarf.Path

/-- A text without the slashes at its end. -/
def trimSlashes (path : List Char) : List Char :=
  (path.reverse.dropWhile (· == '/')).reverse

/-- A name seen from a directory. An absolute name stands for itself. -/
def join (directory name : String) : String :=
  if name.toList.head? = some '/' ∨ directory.isEmpty then name
  else if name.isEmpty then directory
  else String.ofList (trimSlashes directory.toList ++ '/' :: name.toList)

/-- A path without the references to the current directory at its start. -/
def dropCurrent : List Char → List Char
  | '.' :: '/' :: rest => dropCurrent rest
  | path => path

/-- Whether a path ends in some text that a slash precedes. -/
def hasTail (path tail : List Char) : Bool :=
  path.length > tail.length && ('/' :: tail).isSuffixOf path

/-- Whether a file that is called `name` and found at `path` answers to some text: its path, its
name, or the last components of its path. -/
def answersTo (path name text : String) : Bool :=
  path == text || name == text || hasTail path.toList (dropCurrent text.toList)

end Dwarf.Path
