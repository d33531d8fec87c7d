import Placeholder.Proofs.Text.Runs
import Placeholder.Text.Word

/-! A word ends where the first character stands that may not be in one. -/

namespace Placeholder.Text

/-- Words have at least one character, and each may stand in a word. -/
theorem isWord_iff {text : List Char} :
    isWord text = true ↔ text ≠ [] ∧ ∀ c ∈ text, isWordChar c = true := by
  simp [isWord]

/-- A character that may not stand in a word is in none. -/
theorem not_mem_word {word : List Char} (isWord : isWord word = true) {c : Char}
    (foreign : isWordChar c = false) : c ∉ word := by
  intro member
  simp [(isWord_iff.mp isWord).2 c member] at foreign

/-- The run of word characters at the start of a text is a word unless it is empty. -/
theorem isWord_takeWhile {text : List Char} (nonempty : text.takeWhile isWordChar ≠ []) :
    isWord (text.takeWhile isWordChar) = true :=
  -- Each character of the run was tested when it was taken.
  isWord_iff.mpr ⟨nonempty, List.all_eq_true.mp List.all_takeWhile⟩

/-- A word is the run of word characters in front of a text that starts with none. -/
theorem takeWhile_word {word rest : List Char} (isWord : isWord word = true)
    (stop : rest.head?.any isWordChar = false) :
    (word ++ rest).takeWhile isWordChar = word :=
  takeWhile_run (isWord_iff.mp isWord).2 stop

/-- What follows the run of word characters is the text that starts with none. -/
theorem dropWhile_word {word rest : List Char} (isWord : isWord word = true)
    (stop : rest.head?.any isWordChar = false) :
    (word ++ rest).dropWhile isWordChar = rest :=
  dropWhile_run (isWord_iff.mp isWord).2 stop

end Placeholder.Text
