/-! A run of characters of one kind ends where the first character of another kind stands. -/

namespace Placeholder.Text

variable {kind : Char → Bool} {run rest : List Char}

/-- A run is found in front of a text that starts with another kind of character. -/
theorem takeWhile_run (each : ∀ c ∈ run, kind c = true) (stop : rest.head?.any kind = false) :
    (run ++ rest).takeWhile kind = run := by
  rw [List.takeWhile_append_of_pos each]
  cases rest with
  | nil => simp
  | cons c rest =>
    have foreign : kind c = false := by simpa using stop
    simp [foreign]

/-- What follows a run is the text that starts with another kind of character. -/
theorem dropWhile_run (each : ∀ c ∈ run, kind c = true) (stop : rest.head?.any kind = false) :
    (run ++ rest).dropWhile kind = rest := by
  rw [List.dropWhile_append_of_pos each]
  cases rest with
  | nil => simp
  | cons c rest =>
    have foreign : kind c = false := by simpa using stop
    simp [foreign]

/-- What is left behind the longest run starts with no character of its kind. -/
theorem stop_dropWhile (kind : Char → Bool) (text : List Char) :
    (text.dropWhile kind).head?.any kind = false := by
  -- Either nothing is left, or the run has stopped at the character that is left first.
  have stopped := List.head?_dropWhile_not kind text
  cases left : (text.dropWhile kind).head? with
  | none => rfl
  | some c => simpa [left] using stopped

end Placeholder.Text
