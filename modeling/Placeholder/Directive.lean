import Placeholder.Arg

/-! Directives name a generator and its arguments, in a call form `@name(…)` or an option form. -/

namespace Placeholder

/-- The name of a generator with the arguments for it. -/
structure Directive where
  opcode : String
  args : List Arg
deriving DecidableEq, Repr

namespace Directive

/-- The call form of a directive. -/
def toText (directive : Directive) : String :=
  "@" ++ directive.opcode ++ "(" ++ ",".intercalate (directive.args.map Arg.toText) ++ ")"

/-- The arguments between the parentheses, where empty segments count for nothing. -/
def callArgs (blob : List Char) : List Arg :=
  ((Text.pieces ',' blob).filter (!·.isEmpty)).map fun segment =>
    Arg.classify (String.ofList segment)

/-- The call that starts right after an at sign, whose arguments run to the last `)` of the line. -/
def callAfterAt? (text : List Char) : Option Directive :=
  let opcode := text.takeWhile Text.isWordChar
  match opcode, text.dropWhile Text.isWordChar with
  | _ :: _, '(' :: rest =>
    (Text.beforeLast ')' (rest.takeWhile (· != '\n'))).map fun blob =>
      ⟨String.ofList opcode, callArgs blob⟩
  | _, _ => none

/-- The call at the leftmost at sign that one can be completed from. -/
def firstCall? : List Char → Option Directive
  | [] => none
  | c :: rest =>
    if c = '@' then callAfterAt? rest <|> firstCall? rest else firstCall? rest

/-- The first call form inside a text. -/
def ofCall? (text : String) : Option Directive :=
  firstCall? text.toList

/-- The options after a bar, which are the pairs with an equals sign between ampersands. -/
def optionArgs (line : List Char) : List Arg :=
  ((Text.pieces '&' line).filter (·.contains '=')).map fun pair => .text (String.ofList pair)

/-- The option form, which is a whole text `@name` or `@name|…` of one line. -/
def ofOptions? (text : String) : Option Directive :=
  match text.toList with
  | '@' :: rest =>
    let opcode := rest.takeWhile Text.isWordChar
    if opcode.isEmpty then none
    else
      match rest.dropWhile Text.isWordChar with
      | [] => some ⟨String.ofList opcode, []⟩
      | '|' :: line =>
        if line.contains '\n' then none
        else some ⟨String.ofList opcode, optionArgs line⟩
      | _ => none
  | _ => none

end Directive

end Placeholder
