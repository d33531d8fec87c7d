import Placeholder.Calendar.Pattern
import Placeholder.Proofs.Text.Pieces

/-! A pattern is scanned from the left, brackets before tokens and long tokens before short. -/

namespace Placeholder.Calendar.Pattern

/-- A bracket opens a text and is closed somewhere behind. -/
def Bracketed (text : List Char) : Prop :=
  ∃ inside rest, text = '[' :: (inside ++ ']' :: rest)

/-- A token of a field opens a text. -/
structure Opens (token : String) (field : Field) (text rest : List Char) : Prop where
  listed : ∃ specifier, (field, token, specifier) ∈ Field.table
  whole : text = token.toList ++ rest

/-- No other token that opens the text is longer. -/
structure OpensLongest (token : String) (field : Field) (text rest : List Char) : Prop
    extends Opens token field text rest where
  longest : ∀ otherToken otherField otherRest, Opens otherToken otherField text otherRest →
    otherToken.toList.length ≤ token.toList.length

/-- The segments that a scan of a pattern from the left comes by. -/
inductive Scan : List Char → List Segment → Prop where
  | done : Scan [] []
  | bracket {inside rest : List Char} {segments : List Segment} (nearest : ']' ∉ inside)
    (later : Scan rest segments) :
    Scan ('[' :: (inside ++ ']' :: rest)) (.literal inside :: segments)
  | token {token : String} {field : Field} {text rest : List Char} {segments : List Segment}
    (unbracketed : ¬ Bracketed text) (longest : OpensLongest token field text rest)
    (later : Scan rest segments) : Scan text (.field field :: segments)
  | copied {c : Char} {rest : List Char} {segments : List Segment}
    (unbracketed : ¬ Bracketed (c :: rest))
    (tokenless : ∀ token field after, ¬ Opens token field (c :: rest) after)
    (later : Scan rest segments) : Scan (c :: rest) (.literal [c] :: segments)

/-- A bracket is closed when the text behind it can be cut there. -/
theorem bracketed_cons_iff {c : Char} {rest : List Char} :
    Bracketed (c :: rest) ↔ c = '[' ∧ ']' ∈ rest := by
  constructor
  · intro bracketed
    obtain ⟨inside, after, whole⟩ := bracketed
    cases whole
    simp
  · intro closed
    obtain ⟨rfl, member⟩ := closed
    obtain ⟨inside, after, rfl⟩ := List.append_of_mem member
    exact ⟨inside, after, rfl⟩

/-- Tokens never become longer from one entry of the table to the next. -/
theorem tokens_descend : Field.table.Pairwise fun entry later =>
    later.2.1.toList.length ≤ entry.2.1.toList.length := by
  decide

/-- No two entries of the table have the same token. -/
theorem tokens_distinct : ∀ entry ∈ Field.table, ∀ other ∈ Field.table,
    other.2.1.toList = entry.2.1.toList → other = entry := by
  decide

/-- The token that is found is the longest one, since longer tokens are tried first. -/
theorem opensLongest_of_token? {text rest : List Char} {field : Field}
    (found : token? text = some (field, rest)) :
    ∃ token, OpensLongest token field text rest := by
  obtain ⟨earlier, ⟨part, token, specifier⟩, later, split, fits, passed⟩ :=
    List.findSome?_eq_some_iff.mp found
  obtain ⟨after, opened, same⟩ := Option.map_eq_some_iff.mp fits
  cases same
  have descend := tokens_descend
  rw [split] at descend
  refine ⟨token, ⟨⟨specifier, by simp [split]⟩, Text.afterOpening_eq_some_iff.mp opened⟩, ?_⟩
  intro otherToken otherField otherRest other
  obtain ⟨⟨otherSpecifier, listed⟩, whole⟩ := other
  rw [split, List.mem_append, List.mem_cons] at listed
  rcases listed with member | same | member
  · -- An earlier entry was tried and did not fit.
    have missed := passed _ member
    simp [Text.afterOpening_eq_some_iff.mpr whole] at missed
  · cases same
    exact Nat.le_refl _
  · exact (List.pairwise_cons.mp (List.pairwise_append.mp descend).2.1).1 _ member

/-- Some token is found when one opens the text. -/
theorem token?_isSome {token : String} {field : Field} {text rest : List Char}
    (opens : Opens token field text rest) : (token? text).isSome := by
  obtain ⟨⟨specifier, listed⟩, whole⟩ := opens
  rw [token?, List.findSome?_isSome_iff]
  exact ⟨_, listed, by simp [Text.afterOpening_eq_some_iff.mpr whole]⟩

/-- Two longest tokens of a text are the same. -/
theorem OpensLongest.unique {token otherToken : String} {field otherField : Field}
    {text rest otherRest : List Char} (longest : OpensLongest token field text rest)
    (other : OpensLongest otherToken otherField text otherRest) :
    field = otherField ∧ rest = otherRest := by
  -- Both are the same number of characters at the start of the text.
  have lengths : token.toList.length = otherToken.toList.length :=
    Nat.le_antisymm (other.longest _ _ _ longest.toOpens) (longest.longest _ _ _ other.toOpens)
  have parts := List.append_inj (longest.whole.symm.trans other.whole) lengths
  obtain ⟨specifier, listed⟩ := longest.listed
  obtain ⟨otherSpecifier, otherListed⟩ := other.listed
  cases tokens_distinct _ otherListed _ listed parts.1
  exact ⟨rfl, parts.2⟩

/-- The token that is found is the longest one that opens the text. -/
theorem token?_eq_some_iff {text rest : List Char} {field : Field} :
    token? text = some (field, rest) ↔ ∃ token, OpensLongest token field text rest := by
  constructor
  · exact opensLongest_of_token?
  · intro opens
    obtain ⟨token, longest⟩ := opens
    obtain ⟨⟨otherField, otherRest⟩, found⟩ :=
      Option.isSome_iff_exists.mp (token?_isSome longest.toOpens)
    obtain ⟨otherToken, other⟩ := opensLongest_of_token? found
    obtain ⟨rfl, rfl⟩ := longest.unique other
    exact found

/-- No token is found when none opens the text. -/
theorem token?_eq_none_iff {text : List Char} :
    token? text = none ↔ ∀ token field rest, ¬ Opens token field text rest := by
  constructor
  · intro missed token field rest opens
    simpa [missed] using token?_isSome opens
  · intro tokenless
    rw [Option.eq_none_iff_forall_ne_some]
    intro found same
    obtain ⟨token, longest⟩ := opensLongest_of_token? same
    exact tokenless _ _ _ longest.toOpens

/-- A bracket with a partner is read up to the nearest one. -/
theorem firstSegment_bracket {inside : List Char} (nearest : ']' ∉ inside) (rest : List Char) :
    firstSegment '[' (inside ++ ']' :: rest) = (.literal inside, rest) := by
  simp [firstSegment, Text.cutFirst_append nearest]

/-- Without such a bracket a token or a lone character is read. -/
theorem firstSegment_unbracketed {c : Char} {rest : List Char}
    (unbracketed : ¬ Bracketed (c :: rest)) :
    firstSegment c rest =
      match token? (c :: rest) with
      | some (field, after) => (.field field, after)
      | none => (.literal [c], rest) := by
  -- Either there is no bracket, or the text behind it cannot be cut.
  have uncut : (if c = '[' then Text.cutFirst ']' rest else none) = none := by
    rw [bracketed_cons_iff] at unbracketed
    split
    · rename_i bracket
      rw [← Option.not_isSome_iff_eq_none, Text.cutFirst_isSome_iff]
      exact fun member => unbracketed ⟨bracket, member⟩
    · rfl
  unfold firstSegment
  split
  · rename_i inside after cut
    rw [uncut] at cut
    cases cut
  · rfl

/-- A scan comes by the segments that are read. -/
theorem segments_of_scan {pattern : List Char} {parts : List Segment}
    (scan : Scan pattern parts) : segments pattern = parts := by
  -- Each step of the scan is the first segment of what it starts from.
  induction scan with
  | done => simp [segments]
  | bracket nearest _ ih => rw [segments, firstSegment_bracket nearest, ih]
  | @token token field text rest _ unbracketed longest _ ih =>
    have found := token?_eq_some_iff.mpr ⟨token, longest⟩
    cases text with
    | nil =>
      have := token?_length found
      simp at this
    | cons c text => rw [segments, firstSegment_unbracketed unbracketed, found, ih]
  | copied unbracketed tokenless _ ih =>
    rw [segments, firstSegment_unbracketed unbracketed, token?_eq_none_iff.mpr tokenless, ih]

/-- What is read from a pattern is a scan of it. -/
theorem scan_segments (pattern : List Char) : Scan pattern (segments pattern) := by
  -- The induction follows the reading, which takes the first segment off each time.
  induction pattern using segments.induct with
  | case1 =>
    rw [segments]
    exact .done
  | case2 c rest _ ih =>
    rw [segments]
    by_cases bracketed : Bracketed (c :: rest)
    · obtain ⟨rfl, member⟩ := bracketed_cons_iff.mp bracketed
      obtain ⟨⟨inside, after⟩, cut⟩ :=
        Option.isSome_iff_exists.mp (Text.cutFirst_isSome_iff.mpr member)
      obtain ⟨rfl, nearest⟩ := Text.cutFirst_eq_some_iff.mp cut
      rw [firstSegment_bracket nearest] at ih ⊢
      exact .bracket nearest ih
    · rw [firstSegment_unbracketed bracketed] at ih ⊢
      cases found : token? (c :: rest) with
      | none =>
        rw [found] at ih
        exact .copied bracketed (token?_eq_none_iff.mp found) ih
      | some opened =>
        obtain ⟨field, after⟩ := opened
        obtain ⟨token, longest⟩ := token?_eq_some_iff.mp found
        rw [found] at ih
        exact .token bracketed longest ih

/-- A pattern has exactly one scan. -/
theorem scan_iff {pattern : List Char} {parts : List Segment} :
    Scan pattern parts ↔ parts = segments pattern := by
  constructor
  · intro scan
    exact (segments_of_scan scan).symm
  · rintro rfl
    exact scan_segments pattern

end Placeholder.Calendar.Pattern
