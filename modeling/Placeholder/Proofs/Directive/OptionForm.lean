import Placeholder.Directive
import Placeholder.Proofs.Text.Pieces
import Placeholder.Proofs.Text.Word

/-! The option form takes up a whole text, and its line may hold any pairs. -/

namespace Placeholder

/-- A whole text `@opcode` or `@opcode|line` with the directive it stands for. -/
inductive OptionForm : List Char → Directive → Prop where
  | bare {opcode : List Char} (word : Text.isWord opcode = true) :
    OptionForm ('@' :: opcode) ⟨String.ofList opcode, []⟩
  | pairs {opcode line : List Char} {segments : List (List Char)}
    (word : Text.isWord opcode = true) (oneLine : '\n' ∉ line)
    (segmented : Text.Segmented '&' line segments) :
    OptionForm ('@' :: (opcode ++ '|' :: line))
      ⟨String.ofList opcode, (segments.filter (·.contains '=')).map fun pair =>
        .text (String.ofList pair)⟩

namespace Directive

/-- A text that is read as an option form has that form as a whole. -/
theorem optionForm_of_ofOptions? {text : String} {directive : Directive}
    (read : ofOptions? text = some directive) : OptionForm text.toList directive := by
  rw [ofOptions?] at read
  split at read
  · rename_i rest whole
    simp only at read
    split at read
    · cases read
    · rename_i nonempty
      have word := Text.isWord_takeWhile (by simpa using nonempty)
      -- The word and what follows it make up all that stands behind the at sign.
      rw [whole, ← List.takeWhile_append_dropWhile (p := Text.isWordChar) (l := rest)]
      split at read
      · rename_i stop
        cases read
        rw [stop, List.append_nil]
        exact OptionForm.bare word
      · rename_i line stop
        split at read
        · cases read
        · rename_i oneLine
          cases read
          rw [stop]
          exact OptionForm.pairs word (by simpa using oneLine) (Text.pieces_eq_iff.mp rfl)
      · cases read
  · cases read

/-- The option form is read from exactly the texts that have it as a whole. -/
theorem ofOptions?_eq_some_iff {text : String} {directive : Directive} :
    ofOptions? text = some directive ↔ OptionForm text.toList directive := by
  constructor
  · exact optionForm_of_ofOptions?
  · intro form
    generalize whole : text.toList = chars at form
    -- The word ends where the text does or at the bar.
    cases form with
    | @bare opcode word =>
      have run := @Text.takeWhile_word opcode [] word rfl
      have stop := @Text.dropWhile_word opcode [] word rfl
      rw [List.append_nil] at run stop
      simp [ofOptions?, whole, run, stop, (Text.isWord_iff.mp word).1]
    | @pairs opcode line segments word oneLine segmented =>
      have run := @Text.takeWhile_word opcode ('|' :: line) word rfl
      have stop := @Text.dropWhile_word opcode ('|' :: line) word rfl
      simp [ofOptions?, whole, run, stop, (Text.isWord_iff.mp word).1, oneLine, optionArgs,
        Text.pieces_eq_iff.mpr segmented]

end Directive

end Placeholder
