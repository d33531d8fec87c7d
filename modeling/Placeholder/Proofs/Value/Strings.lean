import Placeholder.Value.Reading
import Placeholder.Value.Text

/-! Strings between quotes are read again, whatever characters they hold. -/

namespace Placeholder.Value

/-- The two last digits of an escape by code point are those of the code point. -/
theorem numeralValue?_escape : ∀ code < 0x20,
    Text.numeralValue? 16 ['0', '0', Text.hexDigit (code / 16), Text.hexDigit (code % 16)] =
      some code := by
  decide

/-- A control character is read from its escape by code point. -/
theorem escape?_control {c : Char} (control : c.toNat < 0x20) (rest : List Char) :
    escape? ('u' :: '0' :: '0' :: Text.hexDigit (c.toNat / 16) ::
      Text.hexDigit (c.toNat % 16) :: rest) = some (c, rest) := by
  -- Control characters are no surrogates, so one escape is enough.
  have low : ¬ (0xDC00 ≤ c.toNat ∧ c.toNat ≤ 0xDFFF) := by omega
  have high : ¬ (0xD800 ≤ c.toNat ∧ c.toNat ≤ 0xDBFF) := by omega
  rw [escape?, escapedCodePoint?, fourDigits?, numeralValue?_escape c.toNat control]
  simp [low, high, Char.ofNat_toNat]

/-- A character is written as itself, or as an escape that it is read from. -/
theorem escaped_cases (c : Char) :
    (escaped c = [c] ∧ c ≠ '"' ∧ c ≠ '\\' ∧ 0x20 ≤ c.toNat) ∨
      ∃ code, escaped c = '\\' :: code ∧ ∀ rest, escape? (code ++ rest) = some (c, rest) := by
  -- The short escapes come first, and then those by code point.
  unfold escaped
  split
  · exact Or.inr ⟨['"'], rfl, fun _ => rfl⟩
  · exact Or.inr ⟨['\\'], rfl, fun _ => rfl⟩
  · exact Or.inr ⟨['n'], rfl, fun _ => rfl⟩
  · exact Or.inr ⟨['r'], rfl, fun _ => rfl⟩
  · exact Or.inr ⟨['t'], rfl, fun _ => rfl⟩
  · exact Or.inr ⟨['b'], rfl, fun _ => rfl⟩
  · exact Or.inr ⟨['f'], rfl, fun _ => rfl⟩
  · rename_i noQuote noBackslash _ _ _ _ _
    by_cases control : c.toNat < 0x20
    · rw [if_pos control]
      exact Or.inr ⟨_, rfl, escape?_control control⟩
    · rw [if_neg control]
      exact Or.inl ⟨rfl, noQuote, noBackslash, Nat.not_lt.mp control⟩

/-- The escaped characters of a string are read up to the closing quote. -/
theorem stringBody?_escaped {budget : Nat} {body rest : List Char}
    (enough : (body.flatMap escaped).length < budget) :
    stringBody? budget (body.flatMap escaped ++ '"' :: rest) = some (body, rest) := by
  -- Each character takes one step, and has at least one character to be read from.
  induction body generalizing budget with
  | nil =>
    cases budget with
    | zero => exact absurd enough (Nat.not_lt_zero _)
    | succ budget => rfl
  | cons c body ih =>
    cases budget with
    | zero => exact absurd enough (Nat.not_lt_zero _)
    | succ budget =>
      rw [List.flatMap_cons, List.length_append] at enough
      rw [List.flatMap_cons, List.append_assoc]
      rcases escaped_cases c with ⟨plain, noQuote, noBackslash, printed⟩ | ⟨code, form, read⟩
      · rw [plain, List.length_singleton] at enough
        rw [plain, List.singleton_append, stringBody?, if_neg noQuote, if_neg noBackslash,
          if_neg (Nat.not_lt.mpr printed), ih (by omega)]
        rfl
      · rw [form, List.length_cons] at enough
        rw [form, List.cons_append, stringBody?, if_neg (by decide), if_pos rfl, read]
        show (stringBody? budget _ >>= _) = _
        rw [ih (by omega)]
        rfl

/-- A string is read from between its quotes. -/
theorem stringAfterQuote?_quoted (text : String) (rest : List Char) :
    stringAfterQuote? (text.toList.flatMap escaped ++ '"' :: rest) = some (text, rest) := by
  have enough : (text.toList.flatMap escaped).length <
      (text.toList.flatMap escaped ++ '"' :: rest).length + 1 := by
    rw [List.length_append]
    omega
  rw [stringAfterQuote?, stringBody?_escaped enough]
  exact congrArg (fun text => some (text, rest)) String.ofList_toList

/-- A quoted string is its escaped characters behind a quote and in front of one. -/
theorem toList_quoted (text : String) (rest : List Char) :
    (quoted text).toList ++ rest = '"' :: (text.toList.flatMap escaped ++ '"' :: rest) := by
  rw [quoted, String.toList_ofList, List.cons_append, List.append_assoc]
  rfl

end Placeholder.Value
