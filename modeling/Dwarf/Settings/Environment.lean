import Dwarf.Settings
import Dwarf.Text.Blank
import Dwarf.Text.Decimal

/-! # Settings from the environment

Each setting can be changed by an environment variable of the program. A variable whose text is
not understood changes nothing. Blank characters around a text do not count. -/

namespace Dwarf

/-- A setting that can be changed. -/
inductive Setting where
  | expressionBudget
  | frameBudget
  | stackLimit
  | parallel
  deriving DecidableEq, Repr, Inhabited

namespace Setting

/-- The name of a setting within the variables of a program. -/
def name : Setting → String
  | expressionBudget => "EXPR_BUDGET"
  | frameBudget => "CFI_BUDGET"
  | stackLimit => "STACK_LIMIT"
  | parallel => "PARALLEL"

/-- The environment variable for a setting of a program. -/
def variableName (setting : Setting) (program : String) : String :=
  program ++ "_" ++ setting.name

end Setting

namespace Settings

/-- The number that a text stands for. -/
def number? (text : String) : Option Nat :=
  Decimal.word? (Blank.trim text.toList)

/-- The words for yes and for no. Letters count in either case; no letter but those of ASCII has
one of theirs as its lower case. -/
def switches : List (String × Bool) :=
  [ ("1", true), ("true", true), ("yes", true), ("on", true),
    ("0", false), ("false", false), ("no", false), ("off", false) ]

/-- The truth value that a text stands for. -/
def switch? (text : String) : Option Bool :=
  switches.lookup (String.ofList (Blank.trim text.toList)).toLower

/-- The default settings, changed by the variables of a program. -/
def ofEnvironment (program : String) (lookup : String → Option String) : Settings :=
  let text? (setting : Setting) : Option String := lookup (setting.variableName program)
  let defaults : Settings := {}
  { expressionBudget :=
      ((text? .expressionBudget).bind number?).getD defaults.expressionBudget
    frameBudget := ((text? .frameBudget).bind number?).getD defaults.frameBudget
    stackLimit := ((text? .stackLimit).bind number?).getD defaults.stackLimit
    parallel := ((text? .parallel).bind switch?).getD defaults.parallel }

end Settings

end Dwarf
