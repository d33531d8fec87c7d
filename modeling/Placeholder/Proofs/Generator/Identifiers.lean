import Placeholder.Proofs.Random.Taking
import Placeholder.Proofs.Resolver.Forms

/-! Identifiers show every bit of two words but the six that say how they were made. -/

namespace Placeholder

namespace Generator

/-- The places of the hyphens in the text of an identifier. -/
def hyphenPlaces : List Nat :=
  [8, 13, 18, 23]

/-- The digit at a place of the text of sixteen bytes, where the hyphens in front do not count. -/
def digitAt (bytes : List UInt8) (place : Nat) : Char :=
  let digit := place - (hyphenPlaces.filter (· < place)).length
  let byte := (bytes.getD (digit / 2) 0).toNat
  Text.hexDigit (if digit % 2 = 0 then byte / 16 else byte % 16)

/-- A text of the form of an identifier, with its version and its variant. -/
structure IdentifierForm (text : String) : Prop where
  length : text.length = 36
  hyphens : ∀ place ∈ hyphenPlaces, text.toList[place]? = some '-'
  digits : ∀ place < 36, place ∉ hyphenPlaces → ∃ c ∈ Text.hexDigits, text.toList[place]? = some c
  version : text.toList[14]? = some '4'
  variant : ∃ c ∈ ['8', '9', 'a', 'b'], text.toList[19]? = some c

/-- Values below sixteen have digits of their own. -/
theorem hexDigit_inj : ∀ value < 16, ∀ other < 16,
    Text.hexDigit value = Text.hexDigit other → value = other := by
  decide

/-- The text of a value below sixteen is one of the sixteen digits. -/
theorem hexDigit_mem : ∀ value < 16, Text.hexDigit value ∈ Text.hexDigits := by
  decide

/-- The highest bit of a half and any two below it are a digit of the variant. -/
theorem hexDigit_variant : ∀ low < 4, Text.hexDigit (low ||| 8) ∈ ['8', '9', 'a', 'b'] := by
  decide

/-- Bytes have texts of their own. -/
theorem byteText_inj {byte other : UInt8} (same : byteText byte = byteText other) :
    byte = other := by
  -- The two digits are the two halves of the byte.
  have bound := byte.toNat_lt
  have otherBound := other.toNat_lt
  simp only [byteText, List.cons.injEq, and_true] at same
  have high := hexDigit_inj _ (by omega) _ (by omega) same.1
  have low := hexDigit_inj _ (by omega) _ (by omega) same.2
  apply UInt8.toNat_inj.mp
  omega

/-- Lists of bytes have texts of their own. -/
theorem flatMap_byteText_inj {bytes others : List UInt8}
    (same : bytes.flatMap byteText = others.flatMap byteText) : bytes = others := by
  -- Each byte takes up two digits, so the texts are cut at the same places.
  induction bytes generalizing others with
  | nil =>
    cases others with
    | nil => rfl
    | cons other others => simp [byteText] at same
  | cons byte bytes ih =>
    cases others with
    | nil => simp [byteText] at same
    | cons other others =>
      rw [List.flatMap_cons, List.flatMap_cons] at same
      obtain ⟨first, rest⟩ := List.append_inj same rfl
      rw [byteText_inj first, ih rest]

/-- As many bytes as the groups hold can be told from the text of the groups. -/
theorem groupsText_inj {sizes : List Nat} {bytes others : List UInt8}
    (length : bytes.length = sizes.sum) (otherLength : others.length = sizes.sum)
    (same : groupsText sizes bytes = groupsText sizes others) : bytes = others := by
  -- A group has the same length in both texts, so its hyphen stands at the same place.
  induction sizes generalizing bytes others with
  | nil =>
    simp only [List.sum_nil, List.length_eq_zero_iff] at length otherLength
    rw [length, otherLength]
  | cons size sizes ih =>
    rw [List.sum_cons] at length otherLength
    cases sizes with
    | nil =>
      simp only [List.sum_nil, Nat.add_zero] at length otherLength
      simp only [groupsText] at same
      rw [List.take_of_length_le (by omega), List.take_of_length_le (by omega)] at same
      exact flatMap_byteText_inj same
    | cons next sizes =>
      have width : ((bytes.take size).flatMap byteText).length =
          ((others.take size).flatMap byteText).length := by
        simp [byteText, List.length_flatMap, length, otherLength]
      obtain ⟨group, rest⟩ := List.append_inj same width
      have front := flatMap_byteText_inj group
      have back := ih (by simp only [List.length_drop]; omega)
        (by simp only [List.length_drop]; omega) (List.cons.inj rest).2
      rw [← List.take_append_drop size bytes, front, back, List.take_append_drop]

/-- Sixteen bytes are written digit by digit, with hyphens in between. -/
theorem groupsText_eq_map {bytes : List UInt8} (sixteen : bytes.length = 16) :
    groupsText groupSizes bytes =
      (List.range 36).map fun place =>
        if place ∈ hyphenPlaces then '-' else digitAt bytes place := by
  match bytes, sixteen with
  | [_, _, _, _, _, _, _, _, _, _, _, _, _, _, _, _], _ => rfl

/-- A bit of bytes, counted from the lowest one of the first byte. -/
def bitOf (bytes : List UInt8) (place : Nat) : Bool :=
  (bytes.getD (place / 8) 0).toNat.testBit (place % 8)

/-- The bits of sixteen bytes that the version and the variant are written over. -/
def markedBits : List Nat :=
  [52, 53, 54, 55, 70, 71]

/-- Bytes are told apart by their bits. -/
theorem eq_of_bitOf {bytes others : List UInt8} (lengths : bytes.length = others.length)
    (same : ∀ place < 8 * bytes.length, bitOf bytes place = bitOf others place) :
    bytes = others := by
  -- A bit of a byte is one of all the bits, and a byte has no more than eight of them.
  refine List.ext_getElem lengths fun index within otherWithin => ?_
  apply UInt8.toNat_inj.mp
  apply Nat.eq_of_testBit_eq
  intro bit
  by_cases inside : bit < 8
  · have quotient : (8 * index + bit) / 8 = index := by omega
    have remainder : (8 * index + bit) % 8 = bit := by omega
    have equal := same (8 * index + bit) (by omega)
    simpa [bitOf, quotient, remainder, within, otherWithin] using equal
  · have wide : 2 ^ 8 ≤ 2 ^ bit := Nat.pow_le_pow_right (by decide) (by omega)
    have bound := bytes[index].toNat_lt
    have otherBound := others[index].toNat_lt
    rw [Nat.testBit_lt_two_pow (by omega), Nat.testBit_lt_two_pow (by omega)]

/-- The masks keep the lower four and the lower six bits, and set one bit above them. -/
theorem testBit_masks : ∀ bit < 8,
    Nat.testBit 15 bit = decide (bit < 4) ∧ Nat.testBit 64 bit = decide (bit = 6) ∧
      Nat.testBit 63 bit = decide (bit < 6) ∧ Nat.testBit 128 bit = decide (bit = 7) := by
  decide

/-- Only the bytes of the version and of the variant are changed. -/
theorem getD_markedBytes (bytes : List UInt8) {index : Nat} (inside : index < bytes.length) :
    (markedBytes bytes).getD index 0 =
      if index = 6 then (bytes.getD index 0 &&& 0x0F) ||| 0x40
      else if index = 8 then (bytes.getD index 0 &&& 0x3F) ||| 0x80
      else bytes.getD index 0 := by
  simp only [markedBytes, List.getD_eq_getElem?_getD, List.getElem?_modify]
  by_cases version : index = 6
  · simp [version ▸ inside, version]
  · by_cases variant : index = 8
    · simp [variant ▸ inside, variant]
    · simp [version, variant, Ne.symm version, Ne.symm variant]

/-- The marks are written over six bits, and the others stay as they are. -/
theorem bitOf_markedBytes {bytes : List UInt8} (sixteen : bytes.length = 16) {place : Nat}
    (within : place < 128) :
    bitOf (markedBytes bytes) place =
      if place ∈ markedBits then decide (place = 54 ∨ place = 71) else bitOf bytes place := by
  -- Of the version the upper four bits of a byte are written over, of the variant the upper two.
  obtain ⟨low, four, wide, two⟩ := testBit_masks (place % 8) (Nat.mod_lt _ (by decide))
  have marked : place ∈ markedBits ↔
      place / 8 = 6 ∧ 4 ≤ place % 8 ∨ place / 8 = 8 ∧ 6 ≤ place % 8 := by
    simp only [markedBits, List.mem_cons, List.not_mem_nil, or_false]
    omega
  rw [bitOf, bitOf, getD_markedBytes bytes (by omega)]
  by_cases version : place / 8 = 6
  · have set : (place = 54 ∨ place = 71) ↔ place % 8 = 6 := by omega
    by_cases high : 4 ≤ place % 8
    · simp [version, marked, set, low, four, high, Nat.not_lt.mpr high]
    · simp [version, marked, low, four, high, Nat.not_le.mp high, show place % 8 ≠ 6 by omega]
  · by_cases variant : place / 8 = 8
    · have set : (place = 54 ∨ place = 71) ↔ place % 8 = 7 := by omega
      by_cases high : 6 ≤ place % 8
      · simp [variant, marked, set, wide, two, high, Nat.not_lt.mpr high]
      · simp [variant, marked, wide, two, high, Nat.not_le.mp high, show place % 8 ≠ 7 by omega]
    · simp [version, variant, marked]

/-- Marked bytes are the same when all other bits of theirs are. -/
theorem markedBytes_eq_iff {bytes others : List UInt8} (sixteen : bytes.length = 16)
    (otherSixteen : others.length = 16) :
    markedBytes bytes = markedBytes others ↔
      ∀ place < 128, place ∉ markedBits → bitOf bytes place = bitOf others place := by
  constructor
  · intro same place within free
    have bit := congrArg (bitOf · place) same
    simpa only [bitOf_markedBytes sixteen within, bitOf_markedBytes otherSixteen within, free,
      if_false] using bit
  · intro same
    apply eq_of_bitOf
    · simp [markedBytes, sixteen, otherSixteen]
    · intro place within
      have within : place < 128 := by simpa [markedBytes, sixteen] using within
      rw [bitOf_markedBytes sixteen within, bitOf_markedBytes otherSixteen within]
      -- A bit that is written over is the same in both, whatever it was.
      split
      · rfl
      · rename_i free
        exact same place within free

end Generator

/-- A bit of the words that come next, counted from the lowest one of the first word. -/
def Source.nextBit (source : Source) (place : Nat) : Bool :=
  (source.word (source.drawn + place / 64)).toNat.testBit (place % 64)

namespace Draw

open Generator

/-- A bit of a word is the same one of its bytes. -/
theorem bitOf_bytesOf (word : UInt64) {place : Nat} (within : place < 64) :
    bitOf (bytesOf word) place = word.toNat.testBit place := by
  -- The byte is shifted down to the lowest eight bits, by less than a whole word.
  have byte : (bytesOf word).getD (place / 8) 0 =
      (word >>> UInt64.ofNat (8 * (place / 8))).toUInt8 := by
    simp [bytesOf, show place / 8 < 8 by omega]
  have amount : (UInt64.ofNat (8 * (place / 8))).toNat % 64 = 8 * (place / 8) := by
    rw [UInt64.toNat_ofNat_of_lt' (by simp only [UInt64.size]; omega)]
    omega
  rw [bitOf, byte, UInt64.toNat_toUInt8, UInt64.toNat_shiftRight, amount,
    Nat.testBit_mod_two_pow, Nat.testBit_shiftRight]
  simp only [show place % 8 < 8 by omega, decide_true, Bool.true_and]
  congr 1
  omega

/-- The bits of sixteen bytes are those of the two words that they come from. -/
theorem bitOf_nextBit (source : Source) {place : Nat} (within : place < 128) :
    bitOf (bytesOf (source.word source.drawn) ++ bytesOf (source.word (source.drawn + 1))) place =
      source.nextBit place := by
  -- Eight bytes are one word, so the second word starts with the ninth byte.
  have width : ∀ word, (bytesOf word).length = 8 := fun word => by simp [bytesOf]
  by_cases first : place < 64
  · rw [Source.nextBit, show place / 64 = 0 by omega, show place % 64 = place by omega,
      ← bitOf_bytesOf _ first]
    simp only [bitOf, List.getD_eq_getElem?_getD, Nat.add_zero]
    rw [List.getElem?_append_left (by rw [width]; omega)]
  · rw [Source.nextBit, show place / 64 = 1 by omega, ← bitOf_bytesOf _ (by omega)]
    simp only [bitOf, List.getD_eq_getElem?_getD]
    rw [List.getElem?_append_right (by rw [width]; omega), width,
      show place / 8 - 8 = place % 64 / 8 by omega, show place % 64 % 8 = place % 8 by omega]

end Draw

namespace Generator

/-- The upper half of the byte of the version is four. -/
theorem upperHalf_version (byte : UInt8) : ((byte &&& 0x0F) ||| 0x40).toNat / 16 = 4 := by
  rw [UInt8.toNat_or, UInt8.toNat_and]
  show _ / 2 ^ 4 = _
  rw [← Nat.shiftRight_eq_div_pow, Nat.shiftRight_or_distrib, Nat.shiftRight_and_distrib]
  -- The mask leaves nothing of the upper half.
  show _ &&& 0 ||| 4 = 4
  rw [Nat.and_zero]
  rfl

/-- The upper half of the byte of the variant has two bits below the one that is set. -/
theorem upperHalf_variant (byte : UInt8) :
    ((byte &&& 0x3F) ||| 0x80).toNat / 16 = (byte.toNat >>> 4 &&& 3) ||| 8 := by
  rw [UInt8.toNat_or, UInt8.toNat_and]
  show _ / 2 ^ 4 = _
  rw [← Nat.shiftRight_eq_div_pow, Nat.shiftRight_or_distrib, Nat.shiftRight_and_distrib]
  rfl

/-- The text of sixteen marked bytes has the form of an identifier. -/
theorem identifierForm_identifierText {bytes : List UInt8} (sixteen : bytes.length = 16) :
    IdentifierForm (identifierText bytes) := by
  have marked : (markedBytes bytes).length = 16 := by simp [markedBytes, sixteen]
  have text : (identifierText bytes).toList = (List.range 36).map fun place =>
      if place ∈ hyphenPlaces then '-' else digitAt (markedBytes bytes) place := by
    rw [identifierText, String.toList_ofList, groupsText_eq_map marked]
  have character : ∀ place < 36, (identifierText bytes).toList[place]? =
      some (if place ∈ hyphenPlaces then '-' else digitAt (markedBytes bytes) place) := by
    intro place within
    simp [text, within]
  refine ⟨?_, ?_, ?_, ?_, ?_⟩
  · rw [← String.length_toList, text, List.length_map, List.length_range]
  · intro place hyphen
    have within : place < 36 := by
      simp only [hyphenPlaces, List.mem_cons, List.not_mem_nil, or_false] at hyphen
      omega
    rw [character place within, if_pos hyphen]
  · intro place within digit
    rw [character place within, if_neg digit]
    refine ⟨_, hexDigit_mem _ ?_, rfl⟩
    -- Half a byte is below sixteen, whichever half it is.
    have bound := ((markedBytes bytes).getD
      ((place - (hyphenPlaces.filter (· < place)).length) / 2) 0).toNat_lt
    split
    · omega
    · omega
  · rw [character 14 (by decide), if_neg (by decide)]
    show some (Text.hexDigit (((markedBytes bytes).getD 6 0).toNat / 16)) = _
    rw [getD_markedBytes bytes (by omega), if_pos rfl, upperHalf_version]
    rfl
  · rw [character 19 (by decide), if_neg (by decide)]
    show ∃ c ∈ _, some (Text.hexDigit (((markedBytes bytes).getD 8 0).toNat / 16)) = some c
    rw [getD_markedBytes bytes (by omega), if_neg (by decide), if_pos rfl, upperHalf_variant]
    exact ⟨_, hexDigit_variant _ (Nat.and_lt_two_pow (n := 2) _ (by decide)), rfl⟩

/-- An identifier is the text of two words, which it leaves behind. -/
theorem run_identifier (source : Source) :
    identifier.run source =
      (identifierText (Draw.bytesOf (source.word source.drawn) ++
        Draw.bytesOf (source.word (source.drawn + 1))), source.behind 2) :=
  rfl

/-- The bytes of two words are sixteen. -/
theorem length_bytesOf_append (first second : UInt64) :
    (Draw.bytesOf first ++ Draw.bytesOf second).length = 16 := by
  simp [Draw.bytesOf]

/-- Identifiers are the same when the next words agree in all bits that no mark is written over. -/
theorem identifier_eq_iff (source other : Source) :
    (identifier.run source).1 = (identifier.run other).1 ↔
      ∀ place < 128, place ∉ markedBits → source.nextBit place = other.nextBit place := by
  -- The text shows all marked bytes, and the marked bytes keep all other bits.
  rw [run_identifier, run_identifier]
  have sixteen := length_bytesOf_append (source.word source.drawn) (source.word (source.drawn + 1))
  have otherSixteen := length_bytesOf_append (other.word other.drawn) (other.word (other.drawn + 1))
  constructor
  · intro same place within free
    have texts := String.ofList_injective same
    have marked : ∀ {bytes : List UInt8}, bytes.length = 16 →
        (markedBytes bytes).length = groupSizes.sum := by
      intro bytes sixteen
      simp [markedBytes, sixteen, groupSizes]
    have bytes := groupsText_inj (marked sixteen) (marked otherSixteen) texts
    have bits := (markedBytes_eq_iff sixteen otherSixteen).mp bytes place within free
    rwa [Draw.bitOf_nextBit source within, Draw.bitOf_nextBit other within] at bits
  · intro same
    have bits : markedBytes _ = markedBytes _ :=
      (markedBytes_eq_iff sixteen otherSixteen).mpr fun place within free => by
        rw [Draw.bitOf_nextBit source within, Draw.bitOf_nextBit other within]
        exact same place within free
    simp only [identifierText, bits]

end Generator

namespace Resolver

open Generator

/-- A call of the generator of identifiers is answered by one. -/
theorem answers_identifier (resolver : Resolver) (source : Source) :
    let answer := (some (.string (identifier.run source).1), source.behind 2)
    (resolver.resolve "@uuid()").run source = answer ∧
      (resolver.mock "@uuid()").run source = answer := by
  have called : Directive.ofCall? "@uuid()" = some ⟨"uuid", []⟩ := by decide
  obtain ⟨resolved, mocked⟩ := answers_of_ofCall? resolver called
  have invoked := @invoke_builtin resolver "uuid" _ rfl []
  rw [resolved, mocked, invoked]
  exact ⟨rfl, rfl⟩

/--
Identifiers show every bit of two words but six, which say how they were made.

From every source one has the form of an identifier of version four, whether a call or a recipe
asks for it. Two are the same exactly when all other bits of the words are.
-/
theorem identifiers_show_free_bits :
    (∀ source, ∃ text, identifier.run source = (text, source.behind 2) ∧ IdentifierForm text ∧
      Recipe.uuid.generate.run source = (.string text, source.behind 2) ∧
      ∀ resolver : Resolver,
        (resolver.resolve "@uuid()").run source = (some (.string text), source.behind 2) ∧
        (resolver.mock "@uuid()").run source = (some (.string text), source.behind 2)) ∧
    (∀ entries, Recipe.ofEntries? "uuid_v4" entries = some .uuid) ∧
    ∀ source other, (identifier.run source).1 = (identifier.run other).1 ↔
      ∀ place < 128, place ∉ markedBits → source.nextBit place = other.nextBit place := by
  refine ⟨fun source => ?_, fun entries => rfl, identifier_eq_iff⟩
  exact ⟨_, run_identifier source, identifierForm_identifierText (length_bytesOf_append _ _), rfl,
    fun resolver => answers_identifier resolver source⟩

/-- Words of zeros show nothing but the marks. -/
example : (identifier.run ⟨fun _ => 0, 0⟩).1 = "00000000-0000-4000-8000-000000000000" := by
  decide

end Resolver

end Placeholder
