import Lightpay.Json.Basic
import Lightpay.Json.Quoted

/-!
JSON texts of values: compact, as the payment store keeps them, and indented, as an operator
reads them.
-/

namespace Lightpay.Json

mutual

def emit : Json → List Char → List Char
  | .null, rest => 'n' :: 'u' :: 'l' :: 'l' :: rest
  | .bool true, rest => 't' :: 'r' :: 'u' :: 'e' :: rest
  | .bool false, rest => 'f' :: 'a' :: 'l' :: 's' :: 'e' :: rest
  | .nat n, rest => Nat.toDigits 10 n ++ rest
  | .str s, rest => '"' :: Quoted.emit s.toList rest
  | .arr [], rest => '[' :: ']' :: rest
  | .arr (item :: items), rest => '[' :: emit item (emitItems items rest)
  | .obj [], rest => '\x7b' :: '\x7d' :: rest
  | .obj ((name, value) :: members), rest =>
    '\x7b' :: '"' :: Quoted.emit name.toList (':' :: emit value (emitMembers members rest))
  | .foreign text, rest => text ++ rest

def emitItems : List Json → List Char → List Char
  | [], rest => ']' :: rest
  | item :: items, rest => ',' :: emit item (emitItems items rest)

def emitMembers : List (String × Json) → List Char → List Char
  | [], rest => '\x7d' :: rest
  | (name, value) :: members, rest =>
    ',' :: '"' :: Quoted.emit name.toList (':' :: emit value (emitMembers members rest))

end

def print (value : Json) : String :=
  String.ofList (value.emit [])

def newline (level : Nat) (rest : List Char) : List Char :=
  '\n' :: (List.replicate (2 * level) ' ' ++ rest)

mutual

def emitIndented (level : Nat) : Json → List Char → List Char
  | .arr (item :: items), rest =>
    '[' :: newline (level + 1) (emitIndented (level + 1) item (emitIndentedItems level items rest))
  | .obj ((name, value) :: members), rest =>
    '\x7b' :: newline (level + 1) ('"' :: Quoted.emit name.toList
      (':' :: ' ' :: emitIndented (level + 1) value (emitIndentedMembers level members rest)))
  | value, rest => value.emit rest

def emitIndentedItems (level : Nat) : List Json → List Char → List Char
  | [], rest => newline level (']' :: rest)
  | item :: items, rest =>
    ',' :: newline (level + 1)
      (emitIndented (level + 1) item (emitIndentedItems level items rest))

def emitIndentedMembers (level : Nat) : List (String × Json) → List Char → List Char
  | [], rest => newline level ('\x7d' :: rest)
  | (name, value) :: members, rest =>
    ',' :: newline (level + 1) ('"' :: Quoted.emit name.toList
      (':' :: ' ' :: emitIndented (level + 1) value (emitIndentedMembers level members rest)))

end

def printIndented (value : Json) : String :=
  String.ofList (value.emitIndented 0 [])

end Lightpay.Json
