import Placeholder.Directive
import Placeholder.Proofs.Checked.Basic

/-! Directives are read from the groups of a match, and every group that is read took part in it. -/

namespace Placeholder.Checked

/-- The groups of a match, the whole of it first, of which some may have taken no part. -/
abbrev Groups :=
  List (Option (List Char))

/-- A group that took part in a match. -/
def group (groups : Groups) (number : Nat) : Checked (List Char) := do
  match ← item groups number with
  | some text => return text
  | none => .error .index

/-- The groups of a call that starts right after an at sign are its opcode and its arguments. -/
def callGroupsAfterAt? (text : List Char) : Option Groups :=
  let opcode := text.takeWhile Text.isWordChar
  match opcode, text.dropWhile Text.isWordChar with
  | _ :: _, '(' :: rest =>
    (Text.beforeLast ')' (rest.takeWhile (· != '\n'))).map fun blob =>
      [some ('@' :: opcode ++ '(' :: blob ++ [')']), some opcode, some blob]
  | _, _ => none

/-- The groups of the first call inside a text. -/
def callGroups? : List Char → Option Groups
  | [] => none
  | c :: rest =>
    if c = '@' then callGroupsAfterAt? rest <|> callGroups? rest else callGroups? rest

/-- The groups of an option form are its opcode and, behind a bar only, its options. -/
def optionGroups? (text : List Char) : Option Groups :=
  match text with
  | '@' :: rest =>
    let opcode := rest.takeWhile Text.isWordChar
    if opcode.isEmpty then none
    else
      match rest.dropWhile Text.isWordChar with
      | [] => some [some text, some opcode, none]
      | '|' :: line =>
        if line.contains '\n' then none else some [some text, some opcode, some line]
      | _ => none
  | _ => none

/-- The directive of a call, from both of its groups. -/
def directiveOfCall (groups : Groups) : Checked Directive := do
  let args := Directive.callArgs (← group groups 2)
  return ⟨String.ofList (← group groups 1), args⟩

/-- The directive of an option form, which may do without its last group. -/
def directiveOfOptions (groups : Groups) : Checked Directive := do
  let args := (groups[2]?.join.map Directive.optionArgs).getD []
  return ⟨String.ofList (← group groups 1), args⟩

/-- The first call form inside a text. -/
def ofCall? (text : String) : Checked (Option Directive) :=
  (callGroups? text.toList).mapM directiveOfCall

/-- The option form that a whole text is. -/
def ofOptions? (text : String) : Checked (Option Directive) :=
  (optionGroups? text.toList).mapM directiveOfOptions

/-- Both groups of a call take part in every match. -/
theorem callGroupsAfterAt?_eq (text : List Char) :
    (callGroupsAfterAt? text).mapM directiveOfCall = .ok (Directive.callAfterAt? text) := by
  -- A match has a word, an opening parenthesis and a closing one, and both groups between them.
  unfold callGroupsAfterAt?
  dsimp only
  split
  · rename_i first others rest filled opened
    have called : Directive.callAfterAt? text =
        (Text.beforeLast ')' (rest.takeWhile (· != '\n'))).map fun blob =>
          ⟨String.ofList (text.takeWhile Text.isWordChar), Directive.callArgs blob⟩ := by
      unfold Directive.callAfterAt?
      rw [filled, opened]
      rfl
    rw [called]
    cases Text.beforeLast ')' (rest.takeWhile (· != '\n')) with
    | none => rfl
    | some blob => rfl
  · rename_i uncalled
    have missed : Directive.callAfterAt? text = none := by
      unfold Directive.callAfterAt?
      dsimp only
      split
      · rename_i filled opened
        exact (uncalled _ _ _ filled opened).elim
      · rfl
    rw [missed]
    rfl

/-- The first call is found at the same place by its groups. -/
theorem callGroups?_eq (text : List Char) :
    (callGroups? text).mapM directiveOfCall = .ok (Directive.firstCall? text) := by
  -- Each at sign either starts a call or is passed.
  induction text with
  | nil => rfl
  | cons c rest ih =>
    rw [callGroups?, Directive.firstCall?]
    split
    · have here := callGroupsAfterAt?_eq rest
      cases found : callGroupsAfterAt? rest with
      | none =>
        rw [found] at here
        have passed : Directive.callAfterAt? rest = none := (Except.ok.inj here).symm
        rw [passed]
        exact ih
      | some groups =>
        rw [found, Option.mapM_some] at here
        cases read : directiveOfCall groups with
        | error fault =>
          rw [read] at here
          cases here
        | ok directive =>
          rw [read] at here
          have called : Directive.callAfterAt? rest = some directive :=
            (Except.ok.inj here).symm
          rw [called]
          show some <$> directiveOfCall groups = _
          rw [read]
          rfl
    · exact ih

/-- Calls are read without a fault. -/
theorem ofCall?_eq (text : String) : ofCall? text = .ok (Directive.ofCall? text) :=
  callGroups?_eq text.toList

/-- What is behind the bar takes part in a match of an option form only where there is a bar. -/
theorem optionGroups?_eq (text : String) :
    (optionGroups? text.toList).mapM directiveOfOptions = .ok (Directive.ofOptions? text) := by
  -- The word is a group of every match, and it is the only group that has to be there.
  unfold optionGroups?
  split
  · rename_i rest whole
    unfold Directive.ofOptions?
    rw [whole]
    show Option.mapM directiveOfOptions (if _ then _ else _) = Except.ok (if _ then _ else _)
    split
    · rfl
    · cases stop : rest.dropWhile Text.isWordChar with
      | nil => rfl
      | cons d line =>
        by_cases barred : d = '|'
        · subst barred
          show Option.mapM directiveOfOptions (if _ then _ else _) = Except.ok (if _ then _ else _)
          split
          · rfl
          · rfl
        · simp [barred]
          rfl
  · rename_i unopened
    have missed : Directive.ofOptions? text = none := by
      unfold Directive.ofOptions?
      split
      · rename_i rest whole
        exact (unopened rest whole).elim
      · rfl
    rw [missed]
    rfl

/-- Option forms are read without a fault. -/
theorem ofOptions?_eq (text : String) : ofOptions? text = .ok (Directive.ofOptions? text) :=
  optionGroups?_eq text

end Placeholder.Checked
