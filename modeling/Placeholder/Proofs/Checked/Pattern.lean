import Placeholder.Calendar.Pattern
import Placeholder.Proofs.Checked.Bytes
import Placeholder.Proofs.Text.Pieces

/-! Date patterns are cut at numbers of bytes, which are the ends of characters every time. -/

namespace Placeholder.Checked

open Calendar (ClockTime Field Strftime.format?)
open Calendar.Pattern (Segment)

/-- The number of bytes in front of the first place of a character. -/
def findByte? (c : Char) (text : List Char) : Option Nat :=
  (Text.cutFirst c text).map fun (before, _) => byteLength before

/-- The text between a bracket and its partner, with the text behind, if there is a partner. -/
def bracketed? (text : List Char) : Checked (Option (Segment × List Char)) :=
  match if text.head? = some '[' then findByte? ']' text else none with
  | some stop => do
    return some (.literal (← behind 1 (← inFront stop text)), ← behind (stop + 1) text)
  | none => return none

/-- The field whose token opens a text, with the text behind the token. -/
def token? (text : List Char) : Checked (Option (Segment × List Char)) :=
  match Field.table.find? fun (_, token, _) => token.toList.isPrefixOf text with
  | some (part, token, _) => do return some (.field part, ← behind (byteLength token.toList) text)
  | none => return none

/-- The first segment of a pattern that is not empty, with the rest of the pattern. -/
def firstSegment (c : Char) (rest : List Char) : Checked (Segment × List Char) := do
  let text := c :: rest
  match ← bracketed? text with
  | some found => return found
  | none =>
    match ← token? text with
    | some found => return found
    | none => return (.literal (← inFront c.utf8Size text), ← behind c.utf8Size text)

/-- A bracket and its partner are one byte each, and the text can be cut at both of them. -/
theorem cut_at_partner (inside after : List Char) :
    inFront (byteLength ('[' :: inside)) ('[' :: (inside ++ ']' :: after)) =
        .ok ('[' :: inside) ∧
      behind (byteLength ('[' :: inside) + 1) ('[' :: (inside ++ ']' :: after)) = .ok after := by
  refine ⟨inFront_append ('[' :: inside) (']' :: after), ?_⟩
  have partner : byteLength [']'] = 1 := by decide
  have back := behind_append ('[' :: inside ++ [']']) after
  rwa [byteLength_append, partner, List.append_assoc, List.singleton_append,
    List.cons_append] at back

/-- A text in brackets is cut off without a fault. -/
theorem bracketed?_eq (c : Char) (rest : List Char) :
    bracketed? (c :: rest) = .ok ((if c = '[' then Text.cutFirst ']' rest else none).map
      fun (inside, after) => (.literal inside, after)) := by
  -- Only an opening bracket makes both sides look for its partner.
  unfold bracketed? findByte?
  by_cases bracket : c = '['
  · subst bracket
    rw [List.head?_cons, if_pos rfl, if_pos rfl, Text.cutFirst, if_neg (by decide)]
    cases cut : Text.cutFirst ']' rest with
    | none => rfl
    | some parts =>
      obtain ⟨inside, after⟩ := parts
      obtain ⟨rfl, nearest⟩ := Text.cutFirst_eq_some_iff.mp cut
      obtain ⟨front, back⟩ := cut_at_partner inside after
      show (do return some (Segment.literal (← behind 1 (← inFront (byteLength ('[' :: inside)) _)),
        ← behind (byteLength ('[' :: inside) + 1) _)) = _
      rw [front, ok_bind, behind_one (by decide), ok_bind, back]
      rfl
  · have other : (c :: rest).head? ≠ some '[' := by
      rw [List.head?_cons]
      exact fun same => bracket (Option.some.inj same)
    rw [if_neg other, if_neg bracket]
    rfl

/-- A text has what follows an opening exactly when the opening is a prefix. -/
theorem afterOpening_isSome (opening text : List Char) :
    (Text.afterOpening opening text).isSome = opening.isPrefixOf text := by
  rw [Bool.eq_iff_iff, Option.isSome_iff_exists, List.isPrefixOf_iff_prefix]
  simp only [Text.afterOpening_eq_some_iff, List.IsPrefix, @eq_comm _ text]

/-- The first result is that of the first item that has one. -/
theorem findSome?_eq_bind_find? {α β : Type} (result? : α → Option β) (items : List α) :
    items.findSome? result? = (items.find? fun item => (result? item).isSome).bind result? := by
  -- Both searches pass the items without a result and stop at the same one.
  induction items with
  | nil => rfl
  | cons item items ih =>
    cases found : result? item with
    | none => simp [found, ih]
    | some result => simp [found]

/-- A token is cut off behind its last byte. -/
theorem token?_eq (text : List Char) :
    token? text = .ok ((Calendar.Pattern.token? text).map fun (part, after) =>
      (.field part, after)) := by
  -- The entry that is found is the first one whose token is a prefix.
  unfold token? Calendar.Pattern.token?
  rw [findSome?_eq_bind_find?]
  simp only [Option.isSome_map, afterOpening_isSome]
  cases found : Field.table.find? fun (_, token, _) => token.toList.isPrefixOf text with
  | none => rfl
  | some entry =>
    obtain ⟨part, token, specifier⟩ := entry
    have fits := List.find?_some found
    dsimp only at fits
    obtain ⟨rest, rfl⟩ := List.isPrefixOf_iff_prefix.mp fits
    have opened : Text.afterOpening token.toList (token.toList ++ rest) = some rest :=
      Text.afterOpening_eq_some_iff.mpr rfl
    dsimp only
    rw [behind_append, ok_bind, Option.bind_some, opened]
    rfl

/-- A lone character is cut off behind its last byte. -/
theorem lone_eq (c : Char) (rest : List Char) :
    inFront c.utf8Size (c :: rest) = .ok [c] ∧ behind c.utf8Size (c :: rest) = .ok rest := by
  have whole : byteLength [c] = c.utf8Size := by
    rw [byteLength_cons]
    rfl
  rw [← whole]
  exact ⟨inFront_append [c] rest, behind_append [c] rest⟩

/-- The first segment is cut off without a fault. -/
theorem firstSegment_eq (c : Char) (rest : List Char) :
    firstSegment c rest = .ok (Calendar.Pattern.firstSegment c rest) := by
  unfold firstSegment Calendar.Pattern.firstSegment
  dsimp only
  rw [bracketed?_eq, ok_bind]
  cases (if c = '[' then Text.cutFirst ']' rest else none) with
  | some parts => rfl
  | none =>
    dsimp only [Option.map_none]
    rw [token?_eq, ok_bind]
    cases Calendar.Pattern.token? (c :: rest) with
    | some found => rfl
    | none =>
      dsimp only [Option.map_none]
      rw [(lone_eq c rest).1, ok_bind, (lone_eq c rest).2]
      rfl

/-- The `%` format that means the same as a pattern. -/
def translate (pattern : List Char) : Checked (List Char) :=
  match pattern with
  | [] => .ok []
  | c :: rest =>
    match found : firstSegment c rest with
    | .ok (segment, after) =>
      have : after.length ≤ rest.length := by
        have shorter := Calendar.Pattern.firstSegment_length c rest
        rw [firstSegment_eq, Except.ok.injEq] at found
        rwa [found] at shorter
      (translate after).map (segment.toStrftime ++ ·)
    | .error fault => .error fault
termination_by pattern.length
decreasing_by simp only [List.length_cons]; omega

/-- A clock time in a pattern, which itself is the answer should its format be broken. -/
def format (pattern : String) (time : ClockTime) : Checked String := do
  match Strftime.format? (← translate pattern.toList) time with
  | some text => return String.ofList text
  | none => return pattern

/-- Patterns are translated without a fault. -/
theorem translate_eq (pattern : List Char) :
    translate pattern = .ok ((Calendar.Pattern.segments pattern).flatMap Segment.toStrftime) := by
  -- The induction takes one segment off the front each time, as both readings do.
  induction pattern using Calendar.Pattern.segments.induct with
  | case1 =>
    rw [translate, Calendar.Pattern.segments]
    rfl
  | case2 c rest shorter ih =>
    rw [translate, Calendar.Pattern.segments, List.flatMap_cons]
    split
    · rename_i segment after found
      rw [firstSegment_eq, Except.ok.injEq] at found
      rw [found] at ih ⊢
      rw [ih]
      rfl
    · rename_i fault found
      rw [firstSegment_eq] at found
      cases found

/-- Clock times are shown in patterns without a fault. -/
theorem format_eq (pattern : String) (time : ClockTime) :
    format pattern time = .ok (Calendar.Pattern.format pattern time) := by
  unfold format Calendar.Pattern.format
  rw [translate_eq, ok_bind, Calendar.Pattern.toStrftime, String.toList_ofList]
  cases Strftime.format? _ time with
  | some text => rfl
  | none => rfl

end Placeholder.Checked
