import Placeholder.Yaml.Gap

/-! Plain scalars stand without quotes and end where the text around them goes on. -/

namespace Placeholder.Yaml.Plain

/-- The text up to the next gap or to a mark that ends the scalar. -/
def run? (flow : Bool) : List Char → Option (List Char)
  | [] => some []
  | c :: rest =>
    if isSpace c then some []
    -- In flow style a colon may not touch the mark that ends the scalar.
    else if flow && c == ':' && rest.head?.any ('?' :: flowMarks).contains then none
    else if c == ':' && endsToken rest.head? then some []
    else if flow && flowMarks.contains c then some []
    else (run? flow rest).map (c :: ·)

/-- The text of a scalar after a gap, with the gap that is left behind it. -/
def body? (flow : Bool) (indent : Nat) :
    Nat → Gap → Cursor → Option (List Char × Gap × Cursor)
  | 0, _, _ => none
  | budget + 1, gap, cursor =>
    if cursor.seesDocument || cursor.sees '#' then some ([], gap, cursor)
    else do
      let text ← run? flow cursor.rest
      if text.isEmpty then return ([], gap, cursor)
      let cursor := cursor.advance text.length
      if !cursor.seesAny isSpace then return (gap.text ++ text, {}, cursor)
      let (next, cursor) ← Gap.read? indent (cursor.rest.length + 1) {} cursor
      -- A block scalar ends with its indentation.
      if !flow && cursor.column < indent then return (gap.text ++ text, next, cursor)
      let (more, left, cursor) ← body? flow indent budget next cursor
      return (gap.text ++ text ++ more, left, cursor)

/-- The scalar at a cursor, and whether a line ended after it. -/
def read? (flow : Bool) (indent : Nat) (cursor : Cursor) : Option (String × Bool × Cursor) :=
  (body? flow indent (cursor.rest.length + 1) {} cursor).map fun (text, left, cursor) =>
    (String.ofList text, left.broken, cursor)

end Placeholder.Yaml.Plain
