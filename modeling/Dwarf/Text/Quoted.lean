import Dwarf.Text.Hex
import Dwarf.Text.Printable

/-! # Quoted text

Messages show text of unknown content between double quotes, with the quote, the backslash and
everything that does not print written as an escape. -/

namespace Dwarf.Quoted

/-- One character as it stands between the quotes. -/
def escape (char : Char) : String :=
  match char with
  | '\x00' => "\\0"
  | '\t' => "\\t"
  | '\r' => "\\r"
  | '\n' => "\\n"
  | '\"' => "\\\""
  | '\\' => "\\\\"
  | _ => if isPrintable char then char.toString else "\\u\x7b" ++ Hex.digits char.toNat ++ "\x7d"

/-- A text between double quotes. -/
def quote (text : String) : String :=
  "\"" ++ String.join (text.toList.map escape) ++ "\""

end Dwarf.Quoted
