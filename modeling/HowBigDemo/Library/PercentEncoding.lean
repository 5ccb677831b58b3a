import HowBigDemo.Library.PercentEscapes

namespace Library

/-!
# Percent encoding

The converse of `replacePercentEscapes`.  Code units are read as scalar
values, which fails at a surrogate without its partner, and each scalar value
outside a set of allowed characters is written as one escape for each of its
UTF-8 bytes.

A text may be encoded in pieces: cut anywhere but inside a surrogate pair,
the encodings of the pieces make up the encoding of the whole.
-/

def isHighSurrogate (unit : CodeUnit) : Bool :=
  0xD800 ≤ unit.toNat && unit.toNat ≤ 0xDBFF

def isLowSurrogate (unit : CodeUnit) : Bool :=
  0xDC00 ≤ unit.toNat && unit.toNat ≤ 0xDFFF

/-- The scalar value of a surrogate pair. -/
def pairScalar (high low : CodeUnit) : Nat :=
  0x10000 + (high.toNat - 0xD800) * 0x400 + (low.toNat - 0xDC00)

/-- The scalar values of a text, if no surrogate lacks its partner. -/
def utf16Decode : List CodeUnit -> Option (List Nat)
  | [] => some []
  | unit :: rest =>
    if isHighSurrogate unit then
      match rest with
      | [] => none
      | low :: later =>
        if isLowSurrogate low then (utf16Decode later).map (pairScalar unit low :: ·) else none
    else if isLowSurrogate unit then none
    else (utf16Decode rest).map (unit.toNat :: ·)

theorem isHighSurrogate_iff (unit : CodeUnit) :
    isHighSurrogate unit = true ↔ 0xD800 ≤ unit.toNat ∧ unit.toNat ≤ 0xDBFF := by
  simp [isHighSurrogate]

theorem isLowSurrogate_iff (unit : CodeUnit) :
    isLowSurrogate unit = true ↔ 0xDC00 ≤ unit.toNat ∧ unit.toNat ≤ 0xDFFF := by
  simp [isLowSurrogate]

theorem utf16Decode_single {unit : CodeUnit} (notHigh : ¬ isHighSurrogate unit = true)
    (notLow : ¬ isLowSurrogate unit = true) (rest : List CodeUnit) :
    utf16Decode (unit :: rest) = (utf16Decode rest).map (unit.toNat :: ·) := by
  rw [utf16Decode.eq_def]
  change (if _ then _ else _) = _
  rw [if_neg notHigh, if_neg notLow]

theorem utf16Decode_pair {high low : CodeUnit} (isHigh : isHighSurrogate high = true)
    (isLow : isLowSurrogate low = true) (rest : List CodeUnit) :
    utf16Decode (high :: low :: rest) = (utf16Decode rest).map (pairScalar high low :: ·) := by
  rw [utf16Decode.eq_def]
  change (if _ then (if _ then _ else _) else _) = _
  rw [if_pos isHigh, if_pos isLow]

theorem pairScalar_of_halves {high low : CodeUnit} {highHalf lowHalf : Nat}
    (highValue : high.toNat = 0xD800 + highHalf) (lowValue : low.toNat = 0xDC00 + lowHalf) :
    pairScalar high low = 0x10000 + highHalf * 0x400 + lowHalf := by
  unfold pairScalar
  rw [highValue, lowValue, Nat.add_sub_cancel_left, Nat.add_sub_cancel_left]

/-- The units of a scalar value are read as that scalar value. -/
theorem utf16Decode_utf16_append {scalar : Nat} (isScalar : IsScalar scalar)
    (rest : List CodeUnit) :
    utf16Decode (utf16 scalar ++ rest) = (utf16Decode rest).map (scalar :: ·) := by
  unfold IsScalar at isScalar
  unfold utf16
  by_cases short : scalar < 0x10000
  · have value : (UInt16.ofNat scalar).toNat = scalar :=
      UInt16.toNat_ofNat_of_lt' short
    rw [if_pos short]
    refine (utf16Decode_single ?_ ?_ rest).trans (by rw [value])
    · rw [isHighSurrogate_iff, value]
      omega
    · rw [isLowSurrogate_iff, value]
      omega
  · have highValue : (UInt16.ofNat (0xD800 + (scalar - 0x10000) / 0x400)).toNat =
        0xD800 + (scalar - 0x10000) / 0x400 :=
      UInt16.toNat_ofNat_of_lt' (by rw [UInt16.size]; omega)
    have lowValue : (UInt16.ofNat (0xDC00 + (scalar - 0x10000) % 0x400)).toNat =
        0xDC00 + (scalar - 0x10000) % 0x400 :=
      UInt16.toNat_ofNat_of_lt' (by rw [UInt16.size]; omega)
    have halves : 0x10000 + (scalar - 0x10000) / 0x400 * 0x400 + (scalar - 0x10000) % 0x400 = scalar := by
      omega
    have value := (pairScalar_of_halves highValue lowValue).trans halves
    rw [if_neg short]
    refine (utf16Decode_pair ?_ ?_ rest).trans (by rw [value])
    · rw [isHighSurrogate_iff, highValue]
      omega
    · rw [isLowSurrogate_iff, lowValue]
      omega

theorem utf16_pairScalar {high low : CodeUnit} (isHigh : isHighSurrogate high = true)
    (isLow : isLowSurrogate low = true) :
    IsScalar (pairScalar high low) ∧ utf16 (pairScalar high low) = [high, low] := by
  rw [isHighSurrogate_iff] at isHigh
  rw [isLowSurrogate_iff] at isLow
  have highHalf : 0xD800 + (pairScalar high low - 0x10000) / 0x400 = high.toNat := by
    unfold pairScalar
    omega
  have lowHalf : 0xDC00 + (pairScalar high low - 0x10000) % 0x400 = low.toNat := by
    unfold pairScalar
    omega
  refine ⟨Or.inr (by unfold pairScalar; omega), ?_⟩
  rw [utf16, if_neg (by unfold pairScalar; omega), highHalf, lowHalf, UInt16.ofNat_toNat,
    UInt16.ofNat_toNat]

theorem utf16_single {unit : CodeUnit} (notHigh : ¬ isHighSurrogate unit = true)
    (notLow : ¬ isLowSurrogate unit = true) :
    IsScalar unit.toNat ∧ utf16 unit.toNat = [unit] := by
  have bound : unit.toNat < 0x10000 := unit.toNat_lt
  rw [isHighSurrogate_iff] at notHigh
  rw [isLowSurrogate_iff] at notLow
  refine ⟨by unfold IsScalar; omega, ?_⟩
  rw [utf16, if_pos bound, UInt16.ofNat_toNat]

/-- A text is read as scalar values exactly if it consists of their units. -/
theorem utf16Decode_eq_some_iff (units : List CodeUnit) (scalars : List Nat) :
    utf16Decode units = some scalars ↔
      (forall scalar, scalar ∈ scalars -> IsScalar scalar) ∧ units = scalars.flatMap utf16 := by
  constructor
  · intro decodes
    induction units using utf16Decode.induct generalizing scalars with
    | case1 =>
        cases decodes
        exact ⟨fun _ listed => absurd listed List.not_mem_nil, rfl⟩
    | case2 unit isHigh =>
        rw [utf16Decode, if_pos isHigh] at decodes
        cases decodes
    | case3 unit isHigh low later isLow inductionHypothesis =>
        rw [utf16Decode_pair isHigh isLow] at decodes
        rcases Option.map_eq_some_iff.mp decodes with ⟨laterScalars, laterDecodes, rfl⟩
        have pair := utf16_pairScalar isHigh isLow
        have rest := inductionHypothesis laterScalars laterDecodes
        refine ⟨List.forall_mem_cons.mpr ⟨pair.1, rest.1⟩, ?_⟩
        rw [List.flatMap_cons, pair.2, ← rest.2]
        rfl
    | case4 unit isHigh low later notLow =>
        rw [utf16Decode, if_pos isHigh, if_neg notLow] at decodes
        cases decodes
    | case5 unit rest notHigh isLow =>
        rw [utf16Decode.eq_def] at decodes
        change (if _ then _ else _) = _ at decodes
        rw [if_neg notHigh, if_pos isLow] at decodes
        cases decodes
    | case6 unit rest notHigh notLow inductionHypothesis =>
        rw [utf16Decode_single notHigh notLow] at decodes
        rcases Option.map_eq_some_iff.mp decodes with ⟨laterScalars, laterDecodes, rfl⟩
        have single := utf16_single notHigh notLow
        have later := inductionHypothesis laterScalars laterDecodes
        refine ⟨List.forall_mem_cons.mpr ⟨single.1, later.1⟩, ?_⟩
        rw [List.flatMap_cons, single.2, ← later.2]
        rfl
  · rintro ⟨valid, rfl⟩
    induction scalars with
    | nil => rfl
    | cons scalar later inductionHypothesis =>
        have parts := List.forall_mem_cons.mp valid
        rw [List.flatMap_cons, utf16Decode_utf16_append parts.1, inductionHypothesis parts.2]
        rfl

/-- Between the two texts no surrogate pair is cut. -/
def CutsNoPair (first second : List CodeUnit) : Prop :=
  forall high low, first.getLast? = some high -> second.head? = some low ->
    isHighSurrogate high = true -> ¬ isLowSurrogate low = true

theorem CutsNoPair.of_cons {unit : CodeUnit} {first second : List CodeUnit}
    (cut : CutsNoPair (unit :: first) second) : CutsNoPair first second := by
  intro high low last
  apply cut high low
  rw [List.getLast?_cons, last]
  rfl

/-- The two sides of such a cut are read on their own. -/
theorem utf16Decode_append {first second : List CodeUnit} (cut : CutsNoPair first second) :
    utf16Decode (first ++ second) =
      (utf16Decode first).bind fun scalars => (utf16Decode second).map (scalars ++ ·) := by
  induction first using utf16Decode.induct with
  | case1 =>
      change _ = (utf16Decode second).map id
      rw [Option.map_id]
      rfl
  | case2 unit isHigh =>
      have fails : utf16Decode [unit] = none := by rw [utf16Decode, if_pos isHigh]
      rw [fails]
      cases second with
      | nil => exact fails
      | cons low later =>
          have notLow := cut unit low rfl rfl isHigh
          rw [List.singleton_append, utf16Decode, if_pos isHigh, if_neg notLow]
          rfl
  | case3 unit isHigh low later isLow inductionHypothesis =>
      rw [List.cons_append, List.cons_append, utf16Decode_pair isHigh isLow,
        utf16Decode_pair isHigh isLow, inductionHypothesis cut.of_cons.of_cons]
      cases utf16Decode later <;> cases utf16Decode second <;> rfl
  | case4 unit isHigh low later notLow =>
      rw [List.cons_append, List.cons_append, utf16Decode, if_pos isHigh, if_neg notLow, utf16Decode,
        if_pos isHigh, if_neg notLow]
      rfl
  | case5 unit rest notHigh isLow =>
      have fails : forall others, utf16Decode (unit :: others) = none := by
        intro others
        rw [utf16Decode.eq_def]
        change (if _ then _ else _) = _
        rw [if_neg notHigh, if_pos isLow]
      rw [List.cons_append, fails, fails]
      rfl
  | case6 unit rest notHigh notLow inductionHypothesis =>
      rw [List.cons_append, utf16Decode_single notHigh notLow, utf16Decode_single notHigh notLow,
        inductionHypothesis cut.of_cons]
      cases utf16Decode rest <;> cases utf16Decode second <;> rfl

/-! ## Bytes of a text -/

/-- The UTF-8 bytes of a text, if it has scalar values. -/
def utf8Bytes (units : List CodeUnit) : Option (List Nat) :=
  (utf16Decode units).map fun scalars => scalars.flatMap utf8

/-- The text of UTF-8 bytes, if they are well formed, is the text they were
made from. -/
theorem decodeRun_of_utf8Bytes {units : List CodeUnit} {bytes : List Nat}
    (encodes : utf8Bytes units = some bytes) : decodeRun bytes = some units := by
  rcases Option.map_eq_some_iff.mp encodes with ⟨scalars, decodes, rfl⟩
  have parts := (utf16Decode_eq_some_iff units scalars).mp decodes
  exact (decodeRun_eq_some_iff _ units).mpr ⟨scalars, parts.1, rfl, parts.2⟩

theorem utf8_lt (scalar : Nat) (isScalar : IsScalar scalar) {byte : Nat}
    (listed : byte ∈ utf8 scalar) : byte < 0x100 := by
  unfold IsScalar at isScalar
  unfold utf8 at listed
  split_ifs at listed <;> simp only [List.mem_cons, List.not_mem_nil, or_false] at listed <;> omega

/-! ## Escapes -/

/-- The digit that `%X` prints. -/
def hexDigit (value : Nat) : CodeUnit :=
  if value < 10 then UInt16.ofNat (48 + value) else UInt16.ofNat (55 + value)

def escapeByte (byte : Nat) : List CodeUnit :=
  [37, hexDigit (byte / 16), hexDigit (byte % 16)]

/-- An allowed ASCII character stands for itself, any other for its bytes. -/
def escapeScalar (allowed : Nat -> Bool) (scalar : Nat) : List CodeUnit :=
  if scalar < 0x80 ∧ allowed scalar then [UInt16.ofNat scalar]
  else (utf8 scalar).flatMap escapeByte

/-- `stringByAddingPercentEncodingWithAllowedCharacters:`. -/
def addingPercentEncoding (allowed : Nat -> Bool) (units : List CodeUnit) :
    Option (List CodeUnit) :=
  (utf16Decode units).map fun scalars => scalars.flatMap (escapeScalar allowed)

theorem hexValue_hexDigit : forall value, value < 16 -> hexValue (hexDigit value) = some value := by
  decide

theorem spells_escapeByte {byte : Nat} (bound : byte < 0x100) (rest : List CodeUnit) :
    OpensWithEscape byte (escapeByte byte ++ rest) rest :=
  ⟨hexDigit (byte / 16), hexDigit (byte % 16), byte / 16, byte % 16, rfl,
    hexValue_hexDigit _ (by omega), hexValue_hexDigit _ (by omega), by omega⟩

theorem spells_escapeBytes {bytes : List Nat} (bound : forall byte, byte ∈ bytes -> byte < 0x100) :
    Spells (bytes.flatMap escapeByte) bytes := by
  induction bytes with
  | nil => rfl
  | cons byte rest inductionHypothesis =>
      have parts := List.forall_mem_cons.mp bound
      exact ⟨rest.flatMap escapeByte, spells_escapeByte parts.1 _, inductionHypothesis parts.2⟩

variable {allowed : Nat -> Bool}

theorem decodes_escapeScalar (notPercent : allowed 37 = false) {scalar : Nat}
    (isScalar : IsScalar scalar) : Decodes (escapeScalar allowed scalar) (utf16 scalar) := by
  unfold escapeScalar
  by_cases plain : scalar < 0x80 ∧ allowed scalar = true
  · have differs : UInt16.ofNat scalar ≠ 37 := by
      intro same
      have value := congrArg UInt16.toNat same
      rw [UInt16.toNat_ofNat_of_lt' (by rw [UInt16.size]; omega)] at value
      change scalar = 37 at value
      rw [value, notPercent] at plain
      exact Bool.false_ne_true plain.2
    rw [if_pos plain, utf16, if_pos (by omega)]
    exact Decodes.unit differs Decodes.nil
  · rw [if_neg plain]
    have whole := Decodes.escapes isScalar
      (spells_escapeBytes fun _ listed => utf8_lt scalar isScalar listed) Decodes.nil
    rwa [List.append_nil, List.append_nil] at whole

/-- Decoding inverts the encoding, whatever is allowed besides `%`. -/
theorem replacePercentEscapes_addingPercentEncoding (notPercent : allowed 37 = false)
    {units encoded : List CodeUnit} (encodes : addingPercentEncoding allowed units = some encoded) :
    replacePercentEscapes encoded = some units := by
  rcases Option.map_eq_some_iff.mp encodes with ⟨scalars, decodes, rfl⟩
  rcases (utf16Decode_eq_some_iff units scalars).mp decodes with ⟨valid, rfl⟩
  rw [replacePercentEscapes_eq_some_iff]
  clear encodes decodes
  induction scalars with
  | nil => exact Decodes.nil
  | cons scalar rest inductionHypothesis =>
      have parts := List.forall_mem_cons.mp valid
      exact (decodes_escapeScalar notPercent parts.1).append (inductionHypothesis parts.2)

/-- Encoded piece by piece, a text has the encoding of the whole. -/
theorem addingPercentEncoding_append {first second : List CodeUnit} (cut : CutsNoPair first second) :
    addingPercentEncoding allowed (first ++ second) =
      (addingPercentEncoding allowed first).bind fun encoded =>
        (addingPercentEncoding allowed second).map (encoded ++ ·) := by
  unfold addingPercentEncoding
  rw [utf16Decode_append cut]
  cases utf16Decode first with
  | none => rfl
  | some scalars =>
      cases utf16Decode second with
      | none => rfl
      | some later => exact congrArg some List.flatMap_append

theorem hexDigit_range : forall value, value < 16 ->
    48 ≤ (hexDigit value).toNat ∧ (hexDigit value).toNat ≤ 57 ∨
      65 ≤ (hexDigit value).toNat ∧ (hexDigit value).toNat ≤ 70 := by
  decide

/-- A unit of an encoded text is `%`, a digit of an escape or an allowed
character. -/
theorem mem_addingPercentEncoding {units encoded : List CodeUnit} {unit : CodeUnit}
    (encodes : addingPercentEncoding allowed units = some encoded) (listed : unit ∈ encoded) :
    unit.toNat = 37 ∨ 48 ≤ unit.toNat ∧ unit.toNat ≤ 57 ∨ 65 ≤ unit.toNat ∧ unit.toNat ≤ 70 ∨
      allowed unit.toNat = true := by
  rcases Option.map_eq_some_iff.mp encodes with ⟨scalars, decodes, rfl⟩
  have valid := ((utf16Decode_eq_some_iff units scalars).mp decodes).1
  rcases List.mem_flatMap.mp listed with ⟨scalar, member, inScalar⟩
  unfold escapeScalar at inScalar
  by_cases plain : scalar < 0x80 ∧ allowed scalar = true
  · rw [if_pos plain] at inScalar
    rw [List.mem_singleton.mp inScalar, UInt16.toNat_ofNat_of_lt' (by rw [UInt16.size]; omega)]
    exact Or.inr (Or.inr (Or.inr plain.2))
  · rw [if_neg plain] at inScalar
    rcases List.mem_flatMap.mp inScalar with ⟨byte, inBytes, inEscape⟩
    have bound := utf8_lt scalar (valid scalar member) inBytes
    have high := hexDigit_range (byte / 16) (by omega)
    have low := hexDigit_range (byte % 16) (by omega)
    simp only [escapeByte, List.mem_cons, List.not_mem_nil, or_false] at inEscape
    rcases inEscape with rfl | rfl | rfl
    · exact Or.inl rfl
    · omega
    · omega

end Library
