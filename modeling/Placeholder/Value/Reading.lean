import Placeholder.Value.Number

/-! Values are read from JSON texts, which may nest to a bounded depth. -/

namespace Placeholder.Value

/-- Spaces, tabs, line feeds and carriage returns may stand between the parts of a text. -/
def isSpace (c : Char) : Bool :=
  c == ' ' || c == '\t' || c == '\n' || c == '\r'

/-- The text from its first character that is not a space. -/
def skipSpaces (text : List Char) : List Char :=
  text.dropWhile isSpace

/-- The number that four hexadecimal digits write, with the text after them. -/
def fourDigits? (text : List Char) : Option (Nat × List Char) :=
  match text with
  | a :: b :: c :: d :: rest => (Text.numeralValue? 16 [a, b, c, d]).map (·, rest)
  | _ => none

/-- The character of a `\u` escape, where characters beyond 16 bits need a pair of escapes. -/
def escapedCodePoint? (text : List Char) : Option (Char × List Char) := do
  let (first, rest) ← fourDigits? text
  if 0xDC00 ≤ first ∧ first ≤ 0xDFFF then none
  else if 0xD800 ≤ first ∧ first ≤ 0xDBFF then
    match rest with
    | '\\' :: 'u' :: rest =>
      let (second, rest) ← fourDigits? rest
      if 0xDC00 ≤ second ∧ second ≤ 0xDFFF then
        some (Char.ofNat (0x10000 + (first - 0xD800) * 0x400 + (second - 0xDC00)), rest)
      else none
    | _ => none
  else some (Char.ofNat first, rest)

/-- The character of an escape, after its backslash. -/
def escape? (text : List Char) : Option (Char × List Char) :=
  match text with
  | '"' :: rest => some ('"', rest)
  | '\\' :: rest => some ('\\', rest)
  | '/' :: rest => some ('/', rest)
  | 'b' :: rest => some ('\x08', rest)
  | 'f' :: rest => some ('\x0c', rest)
  | 'n' :: rest => some ('\n', rest)
  | 'r' :: rest => some ('\r', rest)
  | 't' :: rest => some ('\t', rest)
  | 'u' :: rest => escapedCodePoint? rest
  | _ => none

/-- The content of a string up to its closing quote, with the text after it. -/
def stringBody? : Nat → List Char → Option (List Char × List Char)
  | 0, _ => none
  | _ + 1, [] => none
  | budget + 1, c :: rest =>
    if c = '"' then some ([], rest)
    else if c = '\\' then do
      let (char, rest) ← escape? rest
      let (body, rest) ← stringBody? budget rest
      return (char :: body, rest)
    else if c.toNat < 0x20 then none
    else do
      let (body, rest) ← stringBody? budget rest
      return (c :: body, rest)

/-- The string after an opening quote. -/
def stringAfterQuote? (text : List Char) : Option (String × List Char) :=
  (stringBody? (text.length + 1) text).map fun (body, rest) => (String.ofList body, rest)

/-- The items of an array after its opening bracket, of which there is at least one. -/
def items? (item? : List Char → Option (Value × List Char)) :
    Nat → List Char → Option (List Value × List Char)
  | 0, _ => none
  | budget + 1, text => do
    let (item, rest) ← item? text
    match skipSpaces rest with
    | ',' :: rest =>
      let (items, rest) ← items? item? budget rest
      return (item :: items, rest)
    | ']' :: rest => return ([item], rest)
    | _ => none

/-- The fields of an object after its opening brace, of which there is at least one. -/
def fields? (item? : List Char → Option (Value × List Char)) :
    Nat → List Char → Option (List (String × Value) × List Char)
  | 0, _ => none
  | budget + 1, text =>
    match skipSpaces text with
    | '"' :: rest => do
      let (key, rest) ← stringAfterQuote? rest
      match skipSpaces rest with
      | ':' :: rest =>
        let (value, rest) ← item? rest
        match skipSpaces rest with
        | ',' :: rest =>
          let (fields, rest) ← fields? item? budget rest
          return ((key, value) :: fields, rest)
        | '\x7d' :: rest => return ([(key, value)], rest)
        | _ => none
      | _ => none
    | _ => none

/-- The value at the start of a text, with a bound on the depth of arrays and objects. -/
def value? : Nat → List Char → Option (Value × List Char)
  | depth, text =>
    match skipSpaces text with
    | 'n' :: 'u' :: 'l' :: 'l' :: rest => some (.null, rest)
    | 't' :: 'r' :: 'u' :: 'e' :: rest => some (.bool true, rest)
    | 'f' :: 'a' :: 'l' :: 's' :: 'e' :: rest => some (.bool false, rest)
    | '"' :: rest => (stringAfterQuote? rest).map fun (content, rest) => (.string content, rest)
    | '-' :: rest => number? true rest
    | '[' :: rest =>
      match depth with
      | 0 => none
      | depth + 1 =>
        match skipSpaces rest with
        | ']' :: rest => some (.array [], rest)
        | _ => (items? (value? depth) (rest.length + 1) rest).map fun (items, rest) =>
            (.array items, rest)
    | '\x7b' :: rest =>
      match depth with
      | 0 => none
      | depth + 1 =>
        match skipSpaces rest with
        | '\x7d' :: rest => some (ofFields [], rest)
        | _ => (fields? (value? depth) (rest.length + 1) rest).map fun (fields, rest) =>
            (ofFields fields, rest)
    | rest => number? false rest

/-- Arrays and objects may be nested this deep. -/
def depthLimit : Nat :=
  127

/-- The value that a whole text writes. -/
def ofJson? (text : String) : Option Value := do
  let (value, rest) ← value? depthLimit text.toList
  if (skipSpaces rest).isEmpty then some value else none

end Placeholder.Value
