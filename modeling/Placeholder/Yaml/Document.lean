import Placeholder.Yaml.Node
import Placeholder.Yaml.Tokens

/-! Tokens are composed into the nodes of a document. -/

namespace Placeholder.Yaml

/-- The tokens that are left, with the names and anchors met so far. -/
structure Composing where
  tokens : List Token
  /-- What the handles of tags abbreviate. -/
  prefixes : List (String × List UInt8) := []
  /-- The anchor that each name stands for now. -/
  names : List (String × Nat) := []
  /-- The number of anchored nodes that have started. -/
  started : Nat := 0
  /-- The anchored nodes that have ended, with the order in which they started. -/
  anchored : List (Nat × Nat × Node) := []

/-- A computation that takes tokens and may find them out of place. -/
abbrev Compose (α : Type) :=
  StateT Composing Option α

namespace Compose

/-- The next token. -/
def peek : Compose Token := do
  return (← get).tokens.headD .streamEnd

/-- The next token is passed over. -/
def skip : Compose Unit :=
  modify fun composing => { composing with tokens := composing.tokens.tail }

/-- A required token is passed over. -/
def expect (token : Token) : Compose Unit := do
  if (← peek) == token then skip else failure

/-- The bytes of a tag, whose handle must be known. -/
def tagBytes (handle : String) (bytes : List UInt8) : Compose (List UInt8) := do
  if handle.isEmpty then return bytes
  let standard := [("!", "!"), ("!!", "tag:yaml.org,2002:")]
  let expansion :=
    (← get).prefixes.lookup handle <|>
      (standard.lookup handle).map fun text => text.toUTF8.toList
  match expansion with
  | some expansion => return expansion ++ bytes
  | none => failure

/-- The anchor and the tag before a node, in either order. -/
def properties : Compose (Option String × Option (List UInt8)) := do
  match ← peek with
  | .anchor name =>
    skip
    match ← peek with
    | .tag handle bytes =>
      skip
      return (some name, some (← tagBytes handle bytes))
    | _ => return (some name, none)
  | .tag handle bytes =>
    skip
    let bytes ← tagBytes handle bytes
    match ← peek with
    | .anchor name =>
      skip
      return (some name, some bytes)
    | _ => return (none, some bytes)
  | _ => return (none, none)

/-- A name stands for a new anchor from here on, numbered by the names known before. -/
def startAnchor (name : String) : Compose (Nat × Nat) := do
  let composing ← get
  let anchor := composing.names.length
  let others := composing.names.filter (·.1 != name)
  set { composing with names := (name, anchor) :: others, started := composing.started + 1 }
  return (composing.started, anchor)

/-- The node of an anchor is known when it has ended. -/
def endAnchor (node : Node) (order anchor : Nat) : Compose Unit :=
  modify fun composing =>
    { composing with anchored := (order, anchor, node) :: composing.anchored }

/-- A node is left out when one of these tokens comes instead. -/
def nodeUnless (stops : List Token) (node : Compose Node) : Compose Node := do
  if stops.contains (← peek) then return .empty else node

/-- The value after a key, which is left out with its colon or after it. -/
def valueUnless (stops : List Token) (node : Compose Node) : Compose Node := do
  if (← peek) == .value then
    skip
    nodeUnless stops node
  else return .empty

mutual

/-- The next node, in a block or in a flow collection, as a mapping's part or not. -/
def node (block indentless : Bool) : Nat → Compose Node
  | 0 => failure
  | budget + 1 => do
    match ← peek with
    | .alias name =>
      skip
      match (← get).names.lookup name with
      | some anchor => return .alias anchor
      | none => failure
    | _ =>
      let (name, bytes) ← properties
      let anchor ← name.mapM startAnchor
      let result ← content block indentless (name.isSome || bytes.isSome) bytes budget
      match anchor with
      | some (order, anchor) => endAnchor result order anchor
      | none => pure ()
      return result

/-- The content of a node after its anchor and tag. -/
def content (block indentless marked : Bool) (bytes : Option (List UInt8)) :
    Nat → Compose Node
  | 0 => failure
  | budget + 1 => do
    let tag := bytes.bind Tag.ofBytes?
    match ← peek with
    | .scalar style text =>
      skip
      -- An exclamation mark alone means nothing before a scalar.
      return .scalar (if bytes == some ['!'.toUInt8] then none else tag) style text
    | .flowSequenceStart =>
      skip
      return .sequence tag (← flowItems true budget)
    | .flowMappingStart =>
      skip
      return .mapping tag (← flowEntries true budget)
    | .blockSequenceStart =>
      if block then
        skip
        return .sequence tag (← blockItems budget)
      else omitted marked tag
    | .blockMappingStart =>
      if block then
        skip
        return .mapping tag (← blockEntries budget)
      else omitted marked tag
    | .blockEntry =>
      if indentless then return .sequence tag (← indentlessItems budget)
      else omitted marked tag
    | _ => omitted marked tag
where
  /-- A node with an anchor or a tag may be left out otherwise. -/
  omitted (marked : Bool) (tag : Option Tag) : Compose Node :=
    if marked then pure (.scalar tag .plain "") else failure

/-- The items of a block sequence up to its end. -/
def blockItems : Nat → Compose (List Node)
  | 0 => failure
  | budget + 1 => do
    match ← peek with
    | .blockEntry =>
      skip
      let item ← nodeUnless [.blockEntry, .blockEnd] (node true false budget)
      return item :: (← blockItems budget)
    | .blockEnd =>
      skip
      return []
    | _ => failure

/-- The items of a sequence that is not indented more than its key. -/
def indentlessItems : Nat → Compose (List Node)
  | 0 => failure
  | budget + 1 => do
    match ← peek with
    | .blockEntry =>
      skip
      let stops := [.blockEntry, .key, .value, .blockEnd]
      let item ← nodeUnless stops (node true false budget)
      return item :: (← indentlessItems budget)
    | _ => return []

/-- The entries of a block mapping up to its end. -/
def blockEntries : Nat → Compose (List (Node × Node))
  | 0 => failure
  | budget + 1 => do
    match ← peek with
    | .key =>
      skip
      let stops := [.key, .value, .blockEnd]
      let key ← nodeUnless stops (node true true budget)
      let value ← valueUnless stops (node true true budget)
      return (key, value) :: (← blockEntries budget)
    | .blockEnd =>
      skip
      return []
    | _ => failure

/-- The items of a flow sequence up to its bracket, the first without a comma before it. -/
def flowItems (first : Bool) : Nat → Compose (List Node)
  | 0 => failure
  | budget + 1 => do
    if (← peek) == .flowSequenceEnd then
      skip
      return []
    if !first then expect .flowEntry
    match ← peek with
    | .key =>
      skip
      let item ← flowPair budget
      return item :: (← flowItems false budget)
    | .flowSequenceEnd =>
      skip
      return []
    | _ =>
      let item ← node false false budget
      return item :: (← flowItems false budget)

/-- A mapping of one entry that stands as an item of a flow sequence. -/
def flowPair : Nat → Compose Node
  | 0 => failure
  | budget + 1 => do
    let key ←
      if [.value, .flowEntry, .flowSequenceEnd].contains (← peek) then do
        -- The token in place of a key is lost with it.
        skip
        pure Node.empty
      else node false false budget
    let value ← valueUnless [.flowEntry, .flowSequenceEnd] (node false false budget)
    return .mapping none [(key, value)]

/-- The entries of a flow mapping up to its brace, the first without a comma before it. -/
def flowEntries (first : Bool) : Nat → Compose (List (Node × Node))
  | 0 => failure
  | budget + 1 => do
    if (← peek) == .flowMappingEnd then
      skip
      return []
    if !first then expect .flowEntry
    match ← peek with
    | .key =>
      skip
      let key ← nodeUnless [.value, .flowEntry, .flowMappingEnd] (node false false budget)
      let value ← valueUnless [.flowEntry, .flowMappingEnd] (node false false budget)
      return (key, value) :: (← flowEntries false budget)
    | .flowMappingEnd =>
      skip
      return []
    | _ =>
      -- A node without a colon is a key without a value.
      let key ← node false false budget
      return (key, .empty) :: (← flowEntries false budget)

end

/-- The directives before a document, of which each may be given once. -/
def directives (versioned : Bool) : Nat → Compose Unit
  | 0 => failure
  | budget + 1 => do
    match ← peek with
    | .version major minor =>
      if versioned || major != 1 || !(minor == 1 || minor == 2) then failure
      skip
      directives true budget
    | .tagPrefix handle bytes =>
      if ((← get).prefixes.lookup handle).isSome then failure
      skip
      modify fun composing =>
        { composing with prefixes := (handle, bytes) :: composing.prefixes }
      directives versioned budget
    | _ => pure ()

/-- Whether a token stands between documents. -/
def isBetween : Token → Bool
  | .version .. | .tagPrefix .. | .documentStart | .documentEnd | .streamEnd => true
  | _ => false

/-- The root of the document, which is missing from a text without tokens. -/
def root (budget : Nat) : Compose (Option Node) := do
  match ← peek with
  | .streamEnd => return none
  | .version .. | .tagPrefix .. | .documentStart =>
    directives false budget
    expect .documentStart
    if isBetween (← peek) then return some .empty
    return some (← node true false budget)
  | _ => return some (← node true false budget)

/-- Ends of documents, after which the text ends. -/
def ending : Nat → Compose Unit
  | 0 => failure
  | budget + 1 => do
    match ← peek with
    | .documentEnd =>
      skip
      ending budget
    | .streamEnd => pure ()
    | _ => failure

end Compose

namespace Document

/-- The document that tokens make, if they make one and no more. -/
def ofTokens? (tokens : List Token) : Option Document := do
  -- No token is looked at by more than four nested parts of a document.
  let budget := 4 * tokens.length + 4
  let (root, composing) ← (do
    let root ← Compose.root budget
    Compose.ending budget
    return root).run { tokens }
  let anchored := composing.anchored.mergeSort fun left right => right.1 ≤ left.1
  return { root, anchored := anchored.map (·.2) }

/-- The document of a text. -/
def ofText? (text : String) : Option Document := do
  ofTokens? (← Token.ofText? text)

end Document

end Placeholder.Yaml
