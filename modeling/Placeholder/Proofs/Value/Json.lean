import Placeholder.Binary64.Bits
import Placeholder.Proofs.Value.Exact
import Placeholder.Proofs.Value.Listings
import Placeholder.Proofs.Value.Strings

/-! Values with finite floats are read from the JSON texts that they are written as. -/

namespace Placeholder.Value

/-- The float that the JSON text of a float is read as. -/
def rereadFloat (value : Binary64) : Binary64 :=
  match ofJson? (toJson (.float value)) with
  | some (.float read) => read
  | _ => value

/-- The JSON texts of items are those of each. -/
theorem itemsToJson_eq (items : List Value) : itemsToJson items = items.map toJson := by
  induction items with
  | nil => rfl
  | cons item items ih => rw [itemsToJson, List.map_cons, ih]

/-- The JSON text of a field. -/
def fieldText (field : String × Value) : String :=
  quoted field.1 ++ ":" ++ toJson field.2

/-- The JSON texts of fields are those of each. -/
theorem fieldsToJson_eq (fields : List (String × Value)) :
    fieldsToJson fields = fields.map fieldText := by
  induction fields with
  | nil => rfl
  | cons field fields ih =>
    rw [List.map_cons, ← ih]
    rfl

/-- Digits are no spaces. -/
theorem isSpace_digit {c : Char} (digit : c.isDigit = true) : isSpace c = false := by
  apply Bool.eq_false_iff.mpr
  intro space
  simp only [isSpace, Bool.or_eq_true, beq_iff_eq] at space
  rcases space with ((rfl | rfl) | rfl) | rfl
  all_goals exact absurd digit (by decide)

/-- A text that starts with a digit is read as an unsigned number. -/
theorem value?_digit {c : Char} (digit : c.isDigit = true) (depth : Nat) (rest : List Char) :
    value? depth (c :: rest) = number? false (c :: rest) := by
  have kept : skipSpaces (c :: rest) = c :: rest := by
    rw [skipSpaces, List.dropWhile_cons_of_neg (by simp [isSpace_digit digit])]
  unfold value?
  rw [kept]
  split
  case h_8 => rfl
  all_goals
    rename_i same
    rw [(List.cons.inj same).1] at digit
    exact absurd digit (by decide)

/-- A text that starts with a minus is read as a negative number. -/
theorem value?_minus (depth : Nat) (rest : List Char) :
    value? depth ('-' :: rest) = number? true rest := by
  unfold value?
  rfl

/-- A text that starts with a quote is read as a string. -/
theorem value?_quoted (depth : Nat) (text : String) (rest : List Char) :
    value? depth ((quoted text).toList ++ rest) = some (.string text, rest) := by
  rw [toList_quoted]
  unfold value?
  show (stringAfterQuote? _).map _ = _
  rw [stringAfterQuote?_quoted]
  rfl

/-- No value starts with a closing bracket. -/
theorem value?_closing {text rest : List Char} (closing : skipSpaces text = ']' :: rest)
    (depth : Nat) : value? depth text = none := by
  unfold value?
  rw [closing]
  rfl

/-- A machine integer stays one. -/
theorem ofInteger_toInt (value : Int64) : ofInteger value.toInt = .int value := by
  rw [ofInteger, Integer.narrow?, Int64.ofInt_toInt, if_pos rfl]

/-- The digits of a number of 64 bits are read as an integer. -/
theorem number?_decimalDigits {size : Nat} (fits : size < UInt64.size) (negative : Bool)
    {rest : List Char} (ends : EndsNumber rest) :
    number? negative (Text.decimalDigits size ++ rest) =
      some (ofSignificand negative size, rest) := by
  have wellFormed : Numeral.WellFormed ⟨Text.decimalDigits size, [], none⟩ := by
    refine ⟨Text.isDigits_decimalDigits size, ?_, fun c none => absurd none List.not_mem_nil⟩
    -- Only the digits of zero start with a zero.
    intro first
    rcases Nat.eq_zero_or_pos size with rfl | positive
    · rfl
    · exact absurd first (Text.head_decimalDigits positive)
  have short : Text.decimalValue (Text.decimalDigits size) < UInt64.size := by
    rwa [Text.decimalValue_decimalDigits]
  have read := number?_numeral wellFormed negative ends
  rw [Numeral.value?_whole short, Text.decimalValue_decimalDigits] at read
  simpa [Numeral.text, Numeral.fractionText, Numeral.exponentText] using read

/-- An integer is read as itself. -/
theorem value?_int (depth : Nat) (value : Int64) {rest : List Char} (ends : EndsNumber rest) :
    value? depth ((toString value.toInt).toList ++ rest) = some (.int value, rest) := by
  have low := value.le_toInt
  have high := value.toInt_lt
  have size64 : UInt64.size = 2 ^ 64 := rfl
  rw [← ofInteger_toInt]
  -- The size of a negative number goes up to one more than that of a positive one.
  generalize value.toInt = number at low high ⊢
  rcases number with size | before
  · have fits : size < UInt64.size := by
      rw [Int.ofNat_eq_natCast] at high
      omega
    have digits : (toString (Int.ofNat size)).toList = Text.decimalDigits size :=
      Nat.toList_repr
    obtain ⟨filled, each⟩ := Text.isDigits_iff.mp (Text.isDigits_decimalDigits size)
    obtain ⟨c, others, form⟩ := List.exists_cons_of_ne_nil filled
    have read := number?_decimalDigits fits false ends
    rw [digits]
    rw [form] at each read ⊢
    rw [List.cons_append, value?_digit (each c List.mem_cons_self), ← List.cons_append, read]
    rfl
  · have fits : before + 1 < UInt64.size := by omega
    have digits : (toString (Int.negSucc before)).toList =
        '-' :: Text.decimalDigits (before + 1) := by
      show ("-" ++ toString (before + 1)).toList = _
      rw [String.toList_append]
      exact congrArg _ Nat.toList_repr
    rw [digits, List.cons_append, value?_minus, number?_decimalDigits fits true ends,
      ofSignificand, if_pos rfl, if_neg (Nat.succ_ne_zero before), Int.negSucc_eq]
    rfl

/-- A finite float is read as its text is scaled. -/
theorem value?_scaled {negative : Bool} {units : Nat} {fits : Representable units}
    {magnitude : Binary64} (scaled : (Numeral.ofMagnitude units).scaled? = some magnitude)
    (depth : Nat) {rest : List Char} (ends : EndsNumber rest) :
    value? depth ((toJson (.float (.finite negative units fits))).toList ++ rest) =
      some (.float (signed negative magnitude), rest) := by
  have read := number?_magnitudeText fits scaled negative ends
  obtain ⟨c, others, digit, form⟩ := exists_magnitudeText fits
  rw [toJson, Spelling.text, String.toList_ofList]
  cases negative with
  | true => exact (value?_minus depth _).trans read
  | false =>
    rw [if_neg Bool.false_ne_true, List.nil_append, ← read, form, List.cons_append,
      value?_digit digit]

/-- The float that a text is read as when there is nothing else is the scaled one. -/
theorem rereadFloat_scaled {negative : Bool} {units : Nat} {fits : Representable units}
    {magnitude : Binary64} (scaled : (Numeral.ofMagnitude units).scaled? = some magnitude) :
    rereadFloat (.finite negative units fits) = signed negative magnitude := by
  have read := @value?_scaled negative units fits magnitude scaled depthLimit [] rfl
  rw [List.append_nil] at read
  unfold rereadFloat ofJson?
  rw [read]
  rfl

/-- A short float is read as itself. -/
theorem rereadFloat_short {value : Binary64} (short : Short value) : rereadFloat value = value := by
  cases value with
  | nan => exact absurd short id
  | infinity negative => exact absurd short id
  | finite negative units fits =>
    rw [rereadFloat_scaled (Numeral.scaled?_short short)]
    cases negative with
    | true => rfl
    | false => rfl

/-- A finite float is read as a float, which depends on nothing else. -/
theorem value?_float {value : Binary64} (finite : value.isFinite = true) (depth : Nat)
    {rest : List Char} (ends : EndsNumber rest) :
    value? depth ((toJson (.float value)).toList ++ rest) =
      some (.float (rereadFloat value), rest) := by
  cases value with
  | nan => cases finite
  | infinity negative => cases finite
  | finite negative units fits =>
    obtain ⟨magnitude, scaled⟩ := (Numeral.floating_ofMagnitude fits).scaled
    rw [rereadFloat_scaled scaled, value?_scaled scaled depth ends]

/-- Joined texts are at least as long as there are commas between them. -/
theorem length_le_joined (texts : List (List Char)) (rest : List Char) :
    texts.length ≤ ([','].intercalate texts ++ rest).length + 1 := by
  induction texts with
  | nil => exact Nat.zero_le _
  | cons text texts ih =>
    cases texts with
    | nil => exact Nat.le_add_left 1 _
    | cons other texts =>
      rw [List.length_append] at ih
      rw [List.intercalate_cons_cons, List.length_append, List.length_append, List.length_append,
        List.length_cons, List.length_singleton]
      omega

/-- The text of one value is read as another value, up to what can follow it. -/
def ReadAs (item? : List Char → Option (Value × List Char)) (value image : Value) : Prop :=
  ∀ rest, EndsNumber rest → item? ((toJson value).toList ++ rest) = some (image, rest)

/-- Items that are each read are read one after another. -/
theorem items?_joined {item? : List Char → Option (Value × List Char)} {items images : List Value}
    (filled : items ≠ []) (each : List.Forall₂ (ReadAs item?) items images)
    {budget : Nat} (enough : items.length ≤ budget) (rest : List Char) :
    items? item? budget
        ([','].intercalate (items.map fun item => (toJson item).toList) ++ ']' :: rest) =
      some (images, rest) := by
  -- Each item takes one step, and the last one is followed by the bracket.
  induction each generalizing budget with
  | nil => exact absurd rfl filled
  | @cons item image items images first others ih =>
    cases budget with
    | zero => exact absurd enough (Nat.not_succ_le_zero _)
    | succ budget =>
      cases others with
      | nil =>
        rw [List.map_singleton, List.intercalate_singleton, items?, first (']' :: rest) rfl]
        rfl
      | cons =>
        have left := ih (List.cons_ne_nil _ _) (Nat.le_of_succ_le_succ enough)
        rw [List.map_cons, List.map_cons, List.intercalate_cons_cons, List.append_assoc,
          List.append_assoc, List.singleton_append, items?, first (',' :: _) rfl]
        show (items? item? budget _ >>= _) = _
        rw [← List.map_cons (f := fun item => (toJson item).toList), left]
        rfl

/-- A field is read up to its value. -/
theorem fields?_field {item? : List Char → Option (Value × List Char)} (budget : Nat)
    (key : String) (rest : List Char) :
    fields? item? (budget + 1) ((quoted key).toList ++ ':' :: rest) = (do
      let (value, rest) ← item? rest
      match skipSpaces rest with
      | ',' :: rest =>
        let (fields, rest) ← fields? item? budget rest
        return ((key, value) :: fields, rest)
      | '\x7d' :: rest => return ([(key, value)], rest)
      | _ => none) := by
  rw [toList_quoted, fields?]
  show (stringAfterQuote? _ >>= _) = _
  rw [stringAfterQuote?_quoted]
  rfl

/-- Fields whose values are each read are read one after another. -/
theorem fields?_joined {item? : List Char → Option (Value × List Char)}
    {fields images : List (String × Value)} (filled : fields ≠ [])
    (each : List.Forall₂ (fun field image => field.1 = image.1 ∧ ReadAs item? field.2 image.2)
      fields images)
    {budget : Nat} (enough : fields.length ≤ budget) (rest : List Char) :
    fields? item? budget ([','].intercalate (fields.map
        fun field => (quoted field.1).toList ++ ':' :: (toJson field.2).toList) ++ '\x7d' :: rest) =
      some (images, rest) := by
  -- Each field takes one step, and the last one is followed by the brace.
  induction each generalizing budget with
  | nil => exact absurd rfl filled
  | @cons field image fields images first others ih =>
    obtain ⟨key, value⟩ := field
    obtain ⟨same, read⟩ := first
    cases same
    cases budget with
    | zero => exact absurd enough (Nat.not_succ_le_zero _)
    | succ budget =>
      cases others with
      | nil =>
        rw [List.map_singleton, List.intercalate_singleton, List.append_assoc, List.cons_append,
          fields?_field, read ('\x7d' :: rest) rfl]
        rfl
      | cons =>
        have left := ih (List.cons_ne_nil _ _) (Nat.le_of_succ_le_succ enough)
        rw [List.map_cons, List.map_cons, List.intercalate_cons_cons, List.append_assoc,
          List.append_assoc, List.append_assoc, List.cons_append, List.singleton_append,
          fields?_field, read (',' :: _) rfl]
        show (fields? item? budget _ >>= _) = _
        rw [← List.map_cons (f := fun field : String × Value =>
          (quoted field.1).toList ++ ':' :: (toJson field.2).toList), left]
        rfl

/-- The JSON text of an array. -/
theorem toList_toJson_array (items : List Value) (rest : List Char) :
    (toJson (.array items)).toList ++ rest =
      '[' :: ([','].intercalate (items.map fun item => (toJson item).toList) ++ ']' :: rest) := by
  rw [toJson, itemsToJson_eq, String.toList_append, String.toList_append, String.toList_intercalate,
    List.map_map, List.append_assoc, List.append_assoc]
  rfl

/-- The JSON text of an object. -/
theorem toList_toJson_object (fields : List (String × Value)) (rest : List Char) :
    (toJson (.object fields)).toList ++ rest =
      '\x7b' :: ([','].intercalate (fields.map fun field =>
        (quoted field.1).toList ++ ':' :: (toJson field.2).toList) ++ '\x7d' :: rest) := by
  have texts : (fields.map fieldText).map String.toList = fields.map
      fun field => (quoted field.1).toList ++ ':' :: (toJson field.2).toList := by
    rw [List.map_map]
    apply List.map_congr_left
    intro field _
    show (quoted field.1 ++ ":" ++ toJson field.2).toList = _
    rw [String.toList_append, String.toList_append, List.append_assoc]
    rfl
  rw [toJson, fieldsToJson_eq, String.toList_append, String.toList_append,
    String.toList_intercalate, texts, List.append_assoc, List.append_assoc]
  rfl

/-- Behind a bracket there are items, if it is not closed at once. -/
theorem value?_array (limit : Nat) (text : List Char) :
    value? (limit + 1) ('[' :: text) =
      match skipSpaces text with
      | ']' :: rest => some (.array [], rest)
      | _ => (items? (value? limit) (text.length + 1) text).map fun (items, rest) =>
          (.array items, rest) := by
  rw [value?]
  rfl

/-- Behind a brace there are fields, if it is not closed at once. -/
theorem value?_object (limit : Nat) (text : List Char) :
    value? (limit + 1) ('\x7b' :: text) =
      match skipSpaces text with
      | '\x7d' :: rest => some (ofFields [], rest)
      | _ => (fields? (value? limit) (text.length + 1) text).map fun (fields, rest) =>
          (ofFields fields, rest) := by
  rw [value?]
  rfl

/-- An array is read when its items are, one level deeper. -/
theorem value?_toJson_array {limit : Nat} {items images : List Value}
    (each : List.Forall₂ (ReadAs (value? limit)) items images) :
    ReadAs (value? (limit + 1)) (.array items) (.array images) := by
  intro rest _
  rw [toList_toJson_array, value?_array]
  by_cases filled : items = []
  · subst filled
    cases each
    rfl
  · have enough := length_le_joined (items.map fun item => (toJson item).toList) (']' :: rest)
    rw [List.length_map] at enough
    have read := items?_joined filled each enough rest
    split
    · -- A text that is closed at once has no first item.
      rename_i closing
      rw [items?, value?_closing closing] at read
      cases read
    · rw [read]
      rfl

/-- An object is read when its values are, one level deeper, and its fields are put in order. -/
theorem value?_toJson_object {limit : Nat} {fields images : List (String × Value)}
    (each : List.Forall₂
      (fun field image => field.1 = image.1 ∧ ReadAs (value? limit) field.2 image.2)
      fields images) :
    ReadAs (value? (limit + 1)) (.object fields) (ofFields images) := by
  intro rest _
  rw [toList_toJson_object, value?_object]
  by_cases filled : fields = []
  · subst filled
    cases each
    rfl
  · have enough := length_le_joined (fields.map fun field =>
      (quoted field.1).toList ++ ':' :: (toJson field.2).toList) ('\x7d' :: rest)
    rw [List.length_map] at enough
    have read := fields?_joined filled each enough rest
    split
    · -- A text that is closed at once has no first key.
      rename_i closing
      rw [fields?, closing] at read
      cases read
    · rw [read]
      rfl

/-- A listing is read as the value in order with its floats read again. -/
theorem value?_toJson (canonical : Canonical) {written : Value} {limit : Nat}
    (lists : written.Lists canonical.value) (shallow : canonical.value.depth ≤ limit)
    (finite : canonical.value.EachFloat (·.isFinite = true)) :
    ReadAs (value? limit) written (canonical.value.mapFloats rereadFloat) := by
  obtain ⟨value, ordered⟩ := canonical
  dsimp only at *
  -- Arrays and objects take one level of the limit, and their parts are followed by more text.
  induction value generalizing written limit with
  | null =>
    cases lists
    intro rest _
    unfold value?
    rfl
  | bool content =>
    cases lists
    intro rest _
    unfold value?
    cases content with
    | true => rfl
    | false => rfl
  | int content =>
    cases lists
    exact fun rest ends => value?_int limit content ends
  | float content =>
    cases lists
    exact fun rest ends => value?_float (eachFloat_float.mp finite) limit ends
  | string content =>
    cases lists
    exact fun rest _ => value?_quoted limit content rest
  | array items ih =>
    cases limit with
    | zero => exact absurd shallow (Nat.not_succ_le_zero _)
    | succ limit =>
      have flat := itemDepth_le_iff.mp (Nat.le_of_succ_le_succ shallow)
      cases lists with
      | array each =>
        rw [mapFloats, mapItems_eq]
        refine value?_toJson_array (List.forall₂_map_right_iff.mpr (forall₂_of_mem each ?_))
        intro written item member lists
        exact ih item member (ordered_array.mp ordered item member) lists (flat item member)
          (eachFloat_array.mp finite item member)
  | object fields ih =>
    cases limit with
    | zero => exact absurd shallow (Nat.not_succ_le_zero _)
    | succ limit =>
      have flat := fieldDepth_le_iff.mp (Nat.le_of_succ_le_succ shallow)
      obtain ⟨order, inner⟩ := ordered_object.mp ordered
      cases lists with
      | @object written _ _ same keys values =>
        obtain ⟨others, each, found⟩ := exists_of_lists_object (.object same keys values)
        have images := found.map fun field => (field.1, field.2.mapFloats rereadFloat)
        rw [mapFloats, mapFields_eq, ← ofFields_of_perm images (List.pairwise_map.mpr order)]
        refine value?_toJson_object (List.forall₂_map_right_iff.mpr (forall₂_of_mem each ?_))
        rintro field other member ⟨key, lists⟩
        have inside := found.mem_iff.mp member
        exact ⟨key, ih other inside (inner other inside) lists (flat other inside)
          (eachFloat_object.mp finite other inside)⟩

/-- The JSON text of a listing is read as the value in order with its floats read again. -/
theorem ofJson?_toJson (canonical : Canonical) {written : Value}
    (lists : written.Lists canonical.value)
    (finite : canonical.value.EachFloat (·.isFinite = true))
    (shallow : canonical.value.depth ≤ depthLimit) :
    ofJson? written.toJson = some (canonical.value.mapFloats rereadFloat) := by
  have read := value?_toJson canonical lists shallow finite [] rfl
  rw [List.append_nil] at read
  rw [ofJson?, read]
  rfl

/--
A value of finite floats comes back from its rendered JSON with nothing but floats changed.

The fields of its objects may be written in any order. The value comes back equal exactly when each
of its floats does, and comes back as it was when all of them are short.
-/
theorem json_reads_back (canonical : Canonical) {written : Value}
    (lists : written.Lists canonical.value)
    (finite : canonical.value.EachFloat (·.isFinite = true))
    (shallow : canonical.value.depth ≤ depthLimit) :
    (render (some written) true).bind ofJson? = some (canonical.value.mapFloats rereadFloat) ∧
      (canonical.value.alike (canonical.value.mapFloats rereadFloat) = true ↔
        canonical.value.EachFloat fun number => number.equal (rereadFloat number) = true) ∧
      (canonical.value.EachFloat Short →
        canonical.value.mapFloats rereadFloat = canonical.value) := by
  refine ⟨ofJson?_toJson canonical lists finite shallow, alike_mapFloats_iff, fun short => ?_⟩
  exact mapFloats_eq_self fun number part => rereadFloat_short (short number part)

/-- An object with every kind of value in it comes back in order from another order. -/
theorem mixed_object_reads_back :
    let half := Binary64.ofDecimal false 5 (-1)
    let value := Value.object [("", .array [.null, .bool true, .int (-5), .object []]),
      ("a", .string "\"1.5\" \\ \n"), ("b", .array [.float half, .array []])]
    let written := Value.object [("a", .string "\"1.5\" \\ \n"),
      ("", .array [.null, .bool true, .int (-5), .object []]),
      ("b", .array [.float half, .array []])]
    written.Lists value ∧ (render (some written) true).bind ofJson? = some value := by
  intro half value written
  -- The parts are listed, so that a half is seen to be the only float among them.
  have onlyHalf : ∀ holds : Binary64 → Prop, holds half → value.EachFloat holds := by
    intro holds held number part
    simp only [value, parts, itemParts, fieldParts, List.cons_append, List.nil_append,
      List.append_nil, List.mem_cons, reduceCtorEq, false_or, List.not_mem_nil, or_false,
      Value.float.injEq] at part
    rw [part]
    exact held
  have ordered : value.Ordered := by
    intro fields part
    simp only [value, parts, itemParts, fieldParts, List.cons_append, List.nil_append,
      List.append_nil, List.mem_cons, reduceCtorEq, false_or, List.not_mem_nil, or_false,
      Value.object.injEq] at part
    rcases part with rfl | rfl
    · decide
    · exact List.Pairwise.nil
  -- The first two fields have changed places, and the values are the same ones.
  have lists : written.Lists value :=
    .object (.swap _ _ _) rfl (List.forall₂_same.mpr fun value _ => lists_self value)
  have shallow : value.depth ≤ depthLimit := by decide
  obtain ⟨back, -, same⟩ :=
    json_reads_back ⟨value, ordered⟩ lists (onlyHalf _ (by decide +kernel)) shallow
  exact ⟨lists, by rw [back, same (onlyHalf _ (by decide +kernel))]⟩

/-- The float nearest to a decimal is not always read from that decimal. -/
theorem tiny_float_reads_back_changed :
    let tiny := Value.float (.ofBits 0x3b282db34012b251)
    (tiny.EachFloat (·.isFinite = true) ∧ tiny.Ordered ∧ tiny.depth ≤ depthLimit) ∧
      render (some tiny) true = some "1e-23" ∧
      (render (some tiny) true).bind ofJson? = some (.float (.ofBits 0x3b282db34012b252)) ∧
      tiny.alike (.float (.ofBits 0x3b282db34012b252)) = false := by
  intro tiny
  have finite : tiny.EachFloat (·.isFinite = true) := by
    rw [eachFloat_float]
    decide +kernel
  have ordered : tiny.Ordered := by
    intro fields part
    simp [tiny, parts] at part
  have text : tiny.toJson = "1e-23" := by decide +kernel
  have reread : rereadFloat (.ofBits 0x3b282db34012b251) = .ofBits 0x3b282db34012b252 := by
    decide +kernel
  -- The reader divides by a rounded power of ten, and ends on the neighbour above.
  have read := ofJson?_toJson ⟨tiny, ordered⟩ (lists_self tiny) finite (Nat.zero_le _)
  rw [mapFloats, reread] at read
  have shown : render (some tiny) true = some tiny.toJson := rfl
  refine ⟨⟨finite, ordered, Nat.zero_le _⟩, ?_, ?_, by decide +kernel⟩
  · rw [shown, text]
  · rw [shown, Option.bind_some, read]

end Placeholder.Value
