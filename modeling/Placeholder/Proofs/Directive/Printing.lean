import Placeholder.Proofs.Arg.Classify
import Placeholder.Proofs.Directive.Forms

/-! Directives that were read from a call are read again from the call they are printed as. -/

namespace Placeholder.Directive

/-- A directive that a call can be read as. -/
structure Normal (directive : Directive) : Prop where
  word : Text.isWord directive.opcode.toList = true
  args : ∀ arg ∈ directive.args, arg.Normal

/-- A normal directive is read back from its printed form. -/
theorem ofCall?_toText {directive : Directive} (normal : directive.Normal) :
    ofCall? directive.toText = some directive := by
  -- A directive prints as the call of the texts of its arguments.
  have read : ofCall? directive.toText =
      some ⟨directive.opcode, (directive.args.map Arg.toText).map Arg.classify⟩ := by
    refine ofCall?_callText normal.word (List.forall_mem_map.mpr fun arg inArgs => ?_)
    obtain ⟨nonempty, comma, line⟩ := Arg.toText_normal (normal.args arg inArgs)
    exact ⟨by simpa using nonempty, comma, line⟩
  have args : (directive.args.map Arg.toText).map Arg.classify = directive.args := by
    rw [List.map_map]
    refine (List.map_congr_left fun arg inArgs => ?_).trans (List.map_id _)
    exact Arg.classify_toText (normal.args arg inArgs)
  rw [read, args]

/-- Whatever is read from a call is a normal directive. -/
theorem normal_of_ofCall? {text : String} {directive : Directive}
    (called : ofCall? text = some directive) : directive.Normal := by
  obtain ⟨site, chosen, -, opcode, segments, segmented, args⟩ := ofCall?_eq_some_iff.mp called
  refine ⟨by simpa [opcode] using chosen.word, ?_⟩
  intro arg inArgs
  rw [args] at inArgs
  obtain ⟨segment, kept, rfl⟩ := List.mem_map.mp inArgs
  obtain ⟨member, nonempty⟩ := List.mem_filter.mp kept
  -- The blob stays on one line, and each segment is made of its characters.
  have line : '\n' ∉ segment := by
    intro within
    rw [← Text.pieces_eq_iff.mpr segmented] at member
    exact chosen.oneLine (Text.mem_of_mem_piece member within).1
  exact Arg.normal_classify (by simpa using nonempty) (segmented.clean segment member) line

/--
Normal directives are the ones that printing and reading give back, and reading gives no others.

Reading what was printed after reading therefore changes nothing more.
-/
theorem normal_reads_back (directive : Directive) :
    (directive.Normal → ofCall? directive.toText = some directive) ∧
      ∀ text, ofCall? text = some directive →
        directive.Normal ∧ ofCall? directive.toText = some directive :=
  ⟨ofCall?_toText, fun _ called =>
    ⟨normal_of_ofCall? called, ofCall?_toText (normal_of_ofCall? called)⟩⟩

/-- Leading zeros, large numbers and parentheses in texts are settled by the first reading. -/
theorem saturated_call_reads_back :
    ∃ directive, ofCall? "x @f(007,,99999999999999999999,a)@b()" = some directive ∧
      directive.Normal ∧ ofCall? directive.toText = some directive := by
  have called : ofCall? "x @f(007,,99999999999999999999,a)@b()" =
      some ⟨"f", [.number 7, .number Int64.maxValue, .text "a)@b("]⟩ := by decide
  exact ⟨_, called, (normal_reads_back _).2 _ called⟩

end Placeholder.Directive
