import Lightpay.Config.Basic

/-!
The formats in which a configuration may be written. The name of a file tells its format by what
stands behind the last dot.
-/

namespace Lightpay.Config

inductive Format where
  | toml
  | json
  | yaml
  | ini
  | ron
  | json5
deriving DecidableEq, Repr

namespace Format

/-- All formats, in the order in which files of the same name are looked for. -/
def all : List Format := [.toml, .json, .yaml, .ini, .ron, .json5]

def extensions : Format → List String
  | .toml => ["toml"]
  | .json => ["json"]
  | .yaml => ["yaml", "yml"]
  | .ini => ["ini"]
  | .ron => ["ron"]
  | .json5 => ["json5"]

def ofExtension? (extension : String) : Option Format :=
  all.find? (·.extensions.contains extension)

end Format

/-- Reads the entries in a text that is written in a format. -/
abbrev Reader := Format → String → Option Entries

end Lightpay.Config
