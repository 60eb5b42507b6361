/-! # Levels and formats of logs

The words that select how much is logged and in which format. Letters count in either case; no
letter but those of ASCII has a letter of these words as its lower case. -/

namespace Dwarf

/-- How much is logged. -/
inductive LogLevel where
  | error
  | warn
  | info
  | debug
  | trace
  deriving DecidableEq, Repr, Inhabited

/-- How logged events are written. -/
inductive LogFormat where
  /-- For human readers. -/
  | pretty
  /-- One JSON object for each event. -/
  | json
  deriving DecidableEq, Repr, Inhabited

/-- A word that selects nothing. -/
inductive LogError where
  | unknownLevel (text : String)
  | unknownFormat (text : String)
  deriving DecidableEq, Repr

/-- The wording of an error. -/
def LogError.message : LogError → String
  | unknownLevel text =>
    s!"Unknown log level: {text}. Use 'error', 'warn', 'info', 'debug', or 'trace'"
  | unknownFormat text => s!"Unknown log format: {text}. Use 'pretty' or 'json'"

namespace LogLevel

/-- The words for levels. -/
def words : List (String × LogLevel) :=
  [ ("error", error), ("err", error), ("warn", warn), ("warning", warn), ("info", info),
    ("debug", debug), ("dbg", debug), ("trace", trace) ]

/-- The level that a word selects. -/
def parse (text : String) : Except LogError LogLevel :=
  match words.lookup text.toLower with
  | some level => .ok level
  | none => .error (.unknownLevel text)

/-- The label of the events of a level. -/
def label : LogLevel → String
  | error => "ERROR"
  | warn => "WARN"
  | info => "INFO"
  | debug => "DEBUG"
  | trace => "TRACE"

end LogLevel

namespace LogFormat

/-- The words for formats. -/
def words : List (String × LogFormat) :=
  [ ("pretty", pretty), ("dev", pretty), ("development", pretty),
    ("json", json), ("prod", json), ("production", json) ]

/-- The format that a word selects. -/
def parse (text : String) : Except LogError LogFormat :=
  match words.lookup text.toLower with
  | some format => .ok format
  | none => .error (.unknownFormat text)

end LogFormat

end Dwarf
