import Lightpay.Yaml.Layout
import Lightpay.Yaml.Node

/-!
Reading configurations from YAML texts of one document. The tokens of a text say where collections
start and end; a node that is not there between them is null. Of what a tag says only the types of
scalars count.
-/

namespace Lightpay.Yaml

structure Reading where
  tokens : List Token
  anchors : List (String × Nat)
  nodes : List (Nat × Node)
  handles : List (String × String)

structure Pairs where
  key : Option Node
  entries : List (Node × Node)

namespace Pairs

def empty : Pairs := ⟨none, []⟩

/-- Adds a key or a value. In place of an invalid key the next node counts, and no key stands there
twice. -/
def add? (pairs : Pairs) (node : Node) : Option Pairs :=
  match pairs.key, node with
  | none, .invalid => some pairs
  | none, key => some { pairs with key := some key }
  | some key, value =>
    if pairs.entries.any fun entry => entry.1.SameKey key then none
    else some ⟨none, pairs.entries ++ [(key, value)]⟩

def node (pairs : Pairs) : Node := .table pairs.entries

end Pairs

structure Properties where
  anchor : Option Nat
  tag : Option Tag
deriving DecidableEq, Repr

namespace Reading

def advance (reading : Reading) (tokens : List Token) : Reading := { reading with tokens }

def isAt (reading : Reading) (tokens : List Token) : Bool :=
  reading.tokens.head?.any (tokens.contains ·)

def alias? (reading : Reading) (name : String) : Option Node := do
  let number ← reading.anchors.lookup name
  return (reading.nodes.lookup number).getD .invalid

def tag? (reading : Reading) (handle suffix : String) : Option Tag :=
  match reading.handles.lookup handle with
  | some found => some ⟨found, suffix⟩
  | none =>
    if handle = "!!" then some ⟨Tag.standard, suffix⟩
    else if Property.isClosed handle then none
    else some ⟨handle, suffix⟩

def properties? (reading : Reading) : Option (Properties × Reading) :=
  let anchored (name : String) (tokens : List Token) : Reading :=
    { reading with tokens, anchors := (name, reading.anchors.length) :: reading.anchors }
  let number := some reading.anchors.length
  match reading.tokens with
  | .anchor name :: .tag handle suffix :: rest =>
    (reading.tag? handle suffix).map fun tag => (⟨number, some tag⟩, anchored name rest)
  | .tag handle suffix :: .anchor name :: rest =>
    (reading.tag? handle suffix).map fun tag => (⟨number, some tag⟩, anchored name rest)
  | .anchor name :: rest => some (⟨number, none⟩, anchored name rest)
  | .tag handle suffix :: rest =>
    (reading.tag? handle suffix).map fun tag => (⟨none, some tag⟩, reading.advance rest)
  | _ => some (⟨none, none⟩, reading)

def hold (properties : Properties) (node : Node) (reading : Reading) : Node × Reading :=
  match properties.anchor with
  | some number => (node, { reading with nodes := (number, node) :: reading.nodes })
  | none => (node, reading)

def add? (pairs : Pairs) : Node × Reading → Option (Pairs × Reading)
  | (node, reading) => (pairs.add? node).map fun pairs => (pairs, reading)

mutual

/-- Reads a node; each nested node and each further item takes one unit of `fuel`. Only in a block
has it block collections, and only there may dashes of the same column as a key be its items. -/
def node : (fuel : Nat) → (inBlock dashes : Bool) → Reading → Option (Node × Reading)
  | 0, _, _, _ => none
  | fuel + 1, inBlock, dashes, reading =>
    match reading.tokens with
    | .alias name :: rest => (reading.alias? name).map fun found => (found, reading.advance rest)
    | _ => do
      let (properties, reading) ← reading.properties?
      match reading.tokens, inBlock, dashes with
      | .scalar plain text :: rest, _, _ =>
        let found := if plain then Node.ofTagged properties.tag text else .text (String.ofList text)
        return hold properties found (reading.advance rest)
      | .openBracket :: rest, _, _ =>
        let (items, reading) ← flowItems fuel true [] (reading.advance rest)
        return hold properties (.list items) reading
      | .openBrace :: rest, _, _ =>
        let (pairs, reading) ← flowEntries fuel true .empty (reading.advance rest)
        return hold properties pairs.node reading
      | .blockSequence :: rest, true, _ =>
        let (items, reading) ← blockItems fuel [] (reading.advance rest)
        return hold properties (.list items) reading
      | .blockMapping :: rest, true, _ =>
        let (pairs, reading) ← blockEntries fuel .empty (reading.advance rest)
        return hold properties pairs.node reading
      | .dash :: _, _, true =>
        let (items, reading) ← dashItems fuel [] reading
        return hold properties (.list items) reading
      | _, _, _ =>
        if properties = ⟨none, none⟩ then none
        else return hold properties (Node.ofTagged properties.tag []) reading

def blockNode (before : List Token) (dashes : Bool) : (fuel : Nat) → Reading →
    Option (Node × Reading)
  | 0, _ => none
  | fuel + 1, reading =>
    if reading.isAt before then some (.null, reading) else node fuel true dashes reading

def flowNode (before : List Token) : (fuel : Nat) → Reading → Option (Node × Reading)
  | 0, _ => none
  | fuel + 1, reading =>
    if reading.isAt before then some (.null, reading) else node fuel false false reading

def blockItems : (fuel : Nat) → (done : List Node) → Reading → Option (List Node × Reading)
  | 0, _, _ => none
  | fuel + 1, done, reading =>
    match reading.tokens with
    | .blockEnd :: rest => some (done.reverse, reading.advance rest)
    | .dash :: rest => do
      let (item, reading) ← blockNode [.dash, .blockEnd] false fuel (reading.advance rest)
      blockItems fuel (item :: done) reading
    | _ => none

def dashItems : (fuel : Nat) → (done : List Node) → Reading → Option (List Node × Reading)
  | 0, _, _ => none
  | fuel + 1, done, reading =>
    match reading.tokens with
    | .dash :: rest => do
      let before := [.dash, .key, .value, .blockEnd]
      let (item, reading) ← blockNode before false fuel (reading.advance rest)
      dashItems fuel (item :: done) reading
    | _ => some (done.reverse, reading)

def blockEntries : (fuel : Nat) → Pairs → Reading → Option (Pairs × Reading)
  | 0, _, _ => none
  | fuel + 1, pairs, reading =>
    let before := [.key, .value, .blockEnd]
    match reading.tokens with
    | .blockEnd :: rest => some (pairs, reading.advance rest)
    | .key :: rest => do
      let (pairs, reading) ← add? pairs (← blockNode before true fuel (reading.advance rest))
      let (pairs, reading) ← add? pairs (← blockValue fuel reading)
      blockEntries fuel pairs reading
    | .value :: _ => do
      let (pairs, reading) ← add? pairs (.null, reading)
      let (pairs, reading) ← add? pairs (← blockValue fuel reading)
      blockEntries fuel pairs reading
    | _ => none

def blockValue : (fuel : Nat) → Reading → Option (Node × Reading)
  | 0, _ => none
  | fuel + 1, reading =>
    match reading.tokens with
    | .value :: rest => blockNode [.key, .value, .blockEnd] true fuel (reading.advance rest)
    | _ => some (.null, reading)

/-- The items of a flow sequence up to its bracket; a comma stands in front of all but the first. An
entry without braces is a mapping of its own. -/
def flowItems : (fuel : Nat) → (first : Bool) → (done : List Node) → Reading →
    Option (List Node × Reading)
  | 0, _, _, _ => none
  | fuel + 1, first, done, reading =>
    match reading.tokens, first with
    | .closeBracket :: rest, _ => some (done.reverse, reading.advance rest)
    | .comma :: rest, false => flowItem fuel done (reading.advance rest)
    | _, true => flowItem fuel done reading
    | _, false => none

def flowItem : (fuel : Nat) → (done : List Node) → Reading → Option (List Node × Reading)
  | 0, _, _ => none
  | fuel + 1, done, reading =>
    match reading.tokens with
    | .closeBracket :: rest => some (done.reverse, reading.advance rest)
    | .key :: rest => do
      let reading := reading.advance rest
      let (key, reading) ←
        if reading.isAt [.value, .comma, .closeBracket] then
          pure (.null, reading.advance (rest.drop 1))
        else flowNode [] fuel reading
      let (pairs, reading) ← add? .empty (key, reading)
      let (pairs, reading) ← add? pairs (← flowValue [.comma, .closeBracket] fuel reading)
      flowItems fuel false (pairs.node :: done) reading
    | _ => do
      let (item, reading) ← node fuel false false reading
      flowItems fuel false (item :: done) reading

def flowValue (before : List Token) : (fuel : Nat) → Reading → Option (Node × Reading)
  | 0, _ => none
  | fuel + 1, reading =>
    match reading.tokens with
    | .value :: rest => flowNode before fuel (reading.advance rest)
    | _ => some (.null, reading)

def flowEntries : (fuel : Nat) → (first : Bool) → Pairs → Reading → Option (Pairs × Reading)
  | 0, _, _, _ => none
  | fuel + 1, first, pairs, reading =>
    match reading.tokens, first with
    | .closeBrace :: rest, _ => some (pairs, reading.advance rest)
    | .comma :: rest, false => flowEntry fuel pairs (reading.advance rest)
    | _, true => flowEntry fuel pairs reading
    | _, false => none

def flowEntry : (fuel : Nat) → Pairs → Reading → Option (Pairs × Reading)
  | 0, _, _ => none
  | fuel + 1, pairs, reading =>
    let before := [.comma, .closeBrace]
    match reading.tokens with
    | .closeBrace :: rest => some (pairs, reading.advance rest)
    | .key :: rest => do
      let key ← flowNode (.value :: before) fuel (reading.advance rest)
      let (pairs, reading) ← add? pairs key
      let (pairs, reading) ← add? pairs (← flowValue before fuel reading)
      flowEntries fuel false pairs reading
    | .value :: _ => do
      let (pairs, reading) ← add? pairs (.null, reading)
      let (pairs, reading) ← add? pairs (← flowValue before fuel reading)
      flowEntries fuel false pairs reading
    | _ => do
      let (pairs, reading) ← add? pairs (← node fuel false false reading)
      let (pairs, reading) ← add? pairs (.null, reading)
      flowEntries fuel false pairs reading

end

/-- The meanings of handles in front of a document, of which only the last directive counts. A
version stands there once. -/
def directives? (versioned : Bool) (handles : List (String × String)) :
    List Token → Option (List (String × String) × List Token)
  | .version :: rest => if versioned then none else directives? true [] rest
  | .handle handle meaning :: rest => directives? versioned [(handle, meaning)] rest
  | rest => some (handles, rest)

def isEmptyDocument (tokens : List Token) : Bool :=
  tokens.head?.all fun token =>
    token.isDirective || token = .documentStart || token = .documentEnd

def document? (tokens : List Token) : Option (Node × List Token) := do
  let (handles, rest) ← directives? false [] tokens
  let length := 4 * rest.length + 4
  match rest with
  | .documentStart :: rest =>
    if isEmptyDocument rest then return (.null, rest)
    else
      let (found, reading) ← node length true false ⟨rest, [], [], handles⟩
      return (found, reading.tokens)
  | _ =>
    if tokens.head?.any (·.isDirective) then none
    else
      let (found, reading) ← node length true false ⟨rest, [], [], []⟩
      return (found, reading.tokens)

end Reading

def Node.ofText? (text : String) : Option (Option Node) := do
  let skipEnds (tokens : List Token) : List Token := tokens.dropWhile (· = .documentEnd)
  match skipEnds (← Token.ofText? text) with
  | [] => return none
  | tokens =>
    let (found, rest) ← Reading.document? tokens
    if (skipEnds rest).isEmpty then return some found else none

def parse? (text : String) : Option Config.Entries := do
  match ← Node.ofText? text with
  | none => return []
  | some found =>
    match ← found.config? with
    | .table entries => return entries
    | _ => none

end Lightpay.Yaml
