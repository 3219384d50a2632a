/-!
The tokens of a YAML text. Block collections have no marks of their own for where they start and
end, which their columns tell; the tokens say it.
-/

namespace Lightpay.Yaml

inductive Token where
  | version
  | handle (handle meaning : String)
  | documentStart
  | documentEnd
  | blockSequence
  | blockMapping
  | blockEnd
  | openBracket
  | closeBracket
  | openBrace
  | closeBrace
  | comma
  | dash
  | key
  | value
  | alias (name : String)
  | anchor (name : String)
  | tag (handle suffix : String)
  | scalar (plain : Bool) (text : List Char)
deriving DecidableEq, Repr

namespace Token

def isProperty : Token → Bool
  | anchor _ | tag _ _ => true
  | _ => false

def isDirective : Token → Bool
  | version | handle _ _ => true
  | _ => false

end Token

end Lightpay.Yaml
