import HowBigDemo.Library.TextEncoding
import Mathlib.Tactic.SplitIfs

namespace Library

/-!
# What percent escapes decode to

`utf8Decode` reads bytes one sequence at a time.  Here UTF-8 is given the
other way round, by the bytes of each scalar value, and the decoder is shown
to invert it: it accepts the encodings and nothing else.

A text decodes to another when it is made of units that are not `%` and of
escapes that spell the bytes of scalar values.  This relation does not
mention runs of escapes, and `replacePercentEscapes` computes it.
-/

/-- A Unicode scalar value: a code point that is no surrogate. -/
def IsScalar (scalar : Nat) : Prop :=
  scalar < 0xD800 ∨ 0xDFFF < scalar ∧ scalar < 0x110000

/-- The one to four bytes of a scalar value. -/
def utf8 (scalar : Nat) : List Nat :=
  if scalar < 0x80 then [scalar]
  else if scalar < 0x800 then [0xC0 + scalar / 0x40, 0x80 + scalar % 0x40]
  else if scalar < 0x10000 then
    [0xE0 + scalar / 0x1000, 0x80 + scalar / 0x40 % 0x40, 0x80 + scalar % 0x40]
  else
    [0xF0 + scalar / 0x40000, 0x80 + scalar / 0x1000 % 0x40, 0x80 + scalar / 0x40 % 0x40,
      0x80 + scalar % 0x40]

theorem isContinuation_iff (byte : Nat) : isContinuation byte = true ↔ 0x80 ≤ byte ∧ byte ≤ 0xBF := by
  simp [isContinuation]

theorem opensThree_iff (first second : Nat) :
    opensThree first second = true ↔
      0xE0 ≤ first ∧ first ≤ 0xEF ∧ 0x80 ≤ second ∧ second ≤ 0xBF ∧
        (first = 0xE0 -> 0xA0 ≤ second) ∧ (first = 0xED -> second ≤ 0x9F) := by
  simp only [opensThree, isContinuation, Bool.or_eq_true, Bool.and_eq_true, beq_iff_eq, bne_iff_ne,
    decide_eq_true_eq]
  omega

theorem opensFour_iff (first second : Nat) :
    opensFour first second = true ↔
      0xF0 ≤ first ∧ first ≤ 0xF4 ∧ 0x80 ≤ second ∧ second ≤ 0xBF ∧
        (first = 0xF0 -> 0x90 ≤ second) ∧ (first = 0xF4 -> second ≤ 0x8F) := by
  simp only [opensFour, isContinuation, Bool.or_eq_true, Bool.and_eq_true, beq_iff_eq,
    decide_eq_true_eq]
  omega

theorem utf8Decode_one {first : Nat} {rest : List Nat} (short : first < 0x80) :
    utf8Decode (first :: rest) = (utf8Decode rest).map (first :: ·) := by
  rw [utf8Decode.eq_def]
  exact if_pos short

theorem utf8Decode_two {first second : Nat} {rest : List Nat} (opens : 0xC2 ≤ first ∧ first ≤ 0xDF)
    (continues : isContinuation second = true) :
    utf8Decode (first :: second :: rest) =
      (utf8Decode rest).map (((first - 0xC0) * 0x40 + (second - 0x80)) :: ·) := by
  rw [utf8Decode.eq_def]
  change (if first < 0x80 then _ else _) = _
  rw [if_neg (by omega)]
  exact if_pos ⟨opens.1, opens.2, continues⟩

theorem utf8Decode_three {first second third : Nat} {rest : List Nat}
    (opens : opensThree first second = true) (continues : isContinuation third = true) :
    utf8Decode (first :: second :: third :: rest) =
      (utf8Decode rest).map
        (((first - 0xE0) * 0x1000 + (second - 0x80) * 0x40 + (third - 0x80)) :: ·) := by
  have range := (opensThree_iff first second).mp opens
  rw [utf8Decode.eq_def]
  change (if first < 0x80 then _ else _) = _
  rw [if_neg (by omega)]
  change (if 0xC2 ≤ first ∧ first ≤ 0xDF ∧ isContinuation second then _ else _) = _
  rw [if_neg (by omega)]
  exact if_pos (by rw [opens, continues]; rfl)

theorem utf8Decode_four {first second third fourth : Nat} {rest : List Nat}
    (opens : opensFour first second = true) (continuesThird : isContinuation third = true)
    (continuesFourth : isContinuation fourth = true) :
    utf8Decode (first :: second :: third :: fourth :: rest) =
      (utf8Decode rest).map
        (((first - 0xF0) * 0x40000 + (second - 0x80) * 0x1000 + (third - 0x80) * 0x40 +
          (fourth - 0x80)) :: ·) := by
  have range := (opensFour_iff first second).mp opens
  have notThree : ¬ opensThree first second = true := by
    rw [opensThree_iff]
    omega
  rw [utf8Decode.eq_def]
  change (if first < 0x80 then _ else _) = _
  rw [if_neg (by omega)]
  change (if 0xC2 ≤ first ∧ first ≤ 0xDF ∧ isContinuation second then _ else _) = _
  rw [if_neg (by omega)]
  change (if (opensThree first second && isContinuation third) = true then _ else _) = _
  rw [if_neg (by rw [Bool.and_eq_true]; exact fun both => notThree both.1)]
  exact if_pos (by rw [opens, continuesThird, continuesFourth]; rfl)

/-- The decoder reads the bytes of a scalar value and goes on behind them. -/
theorem utf8Decode_utf8_append {scalar : Nat} (isScalar : IsScalar scalar) (rest : List Nat) :
    utf8Decode (utf8 scalar ++ rest) = (utf8Decode rest).map (scalar :: ·) := by
  unfold IsScalar at isScalar
  unfold utf8
  by_cases one : scalar < 0x80
  · rw [if_pos one]
    exact utf8Decode_one one
  rw [if_neg one]
  by_cases two : scalar < 0x800
  · rw [if_pos two]
    have value : (0xC0 + scalar / 0x40 - 0xC0) * 0x40 + (0x80 + scalar % 0x40 - 0x80) = scalar := by
      omega
    refine (utf8Decode_two (by omega) ?_).trans (by rw [value]; rfl)
    rw [isContinuation_iff]
    omega
  rw [if_neg two]
  by_cases three : scalar < 0x10000
  · rw [if_pos three]
    have value : (0xE0 + scalar / 0x1000 - 0xE0) * 0x1000 +
        (0x80 + scalar / 0x40 % 0x40 - 0x80) * 0x40 + (0x80 + scalar % 0x40 - 0x80) = scalar := by
      omega
    refine (utf8Decode_three ?_ ?_).trans (by rw [value]; rfl)
    · rw [opensThree_iff]
      omega
    · rw [isContinuation_iff]
      omega
  · rw [if_neg three]
    have value : (0xF0 + scalar / 0x40000 - 0xF0) * 0x40000 +
        (0x80 + scalar / 0x1000 % 0x40 - 0x80) * 0x1000 +
        (0x80 + scalar / 0x40 % 0x40 - 0x80) * 0x40 + (0x80 + scalar % 0x40 - 0x80) = scalar := by
      omega
    refine (utf8Decode_four ?_ ?_ ?_).trans (by rw [value]; rfl)
    · rw [opensFour_iff]
      omega
    · rw [isContinuation_iff]
      omega
    · rw [isContinuation_iff]
      omega

/-- Bytes open with the encoding of a scalar value, and the rest decodes to
the other scalar values. -/
def OpensWithScalar (bytes scalars : List Nat) : Prop :=
  Exists fun scalar => Exists fun laterBytes => Exists fun later =>
    IsScalar scalar ∧ bytes = utf8 scalar ++ laterBytes ∧
      utf8Decode laterBytes = some later ∧ scalars = scalar :: later

theorem utf8_of_one {first : Nat} (short : first < 0x80) :
    IsScalar first ∧ utf8 first = [first] :=
  ⟨Or.inl (by omega), if_pos short⟩

theorem utf8_of_two {first second : Nat} (opens : 0xC2 ≤ first ∧ first ≤ 0xDF)
    (continues : isContinuation second = true) :
    IsScalar ((first - 0xC0) * 0x40 + (second - 0x80)) ∧
      utf8 ((first - 0xC0) * 0x40 + (second - 0x80)) = [first, second] := by
  have secondRange := (isContinuation_iff second).mp continues
  have lead : 0xC0 + ((first - 0xC0) * 0x40 + (second - 0x80)) / 0x40 = first := by omega
  have trail : 0x80 + ((first - 0xC0) * 0x40 + (second - 0x80)) % 0x40 = second := by omega
  refine ⟨Or.inl (by omega), ?_⟩
  rw [utf8, if_neg (by omega), if_pos (by omega), lead, trail]

theorem utf8_of_three {first second third : Nat} (opens : opensThree first second = true)
    (continues : isContinuation third = true) :
    IsScalar ((first - 0xE0) * 0x1000 + (second - 0x80) * 0x40 + (third - 0x80)) ∧
      utf8 ((first - 0xE0) * 0x1000 + (second - 0x80) * 0x40 + (third - 0x80)) =
        [first, second, third] := by
  have firstRange := (opensThree_iff first second).mp opens
  have thirdRange := (isContinuation_iff third).mp continues
  have lead : 0xE0 + ((first - 0xE0) * 0x1000 + (second - 0x80) * 0x40 + (third - 0x80)) / 0x1000 =
      first := by omega
  have middle : 0x80 + ((first - 0xE0) * 0x1000 + (second - 0x80) * 0x40 + (third - 0x80)) / 0x40 %
      0x40 = second := by omega
  have trail : 0x80 + ((first - 0xE0) * 0x1000 + (second - 0x80) * 0x40 + (third - 0x80)) % 0x40 =
      third := by omega
  refine ⟨by unfold IsScalar; omega, ?_⟩
  rw [utf8, if_neg (by omega), if_neg (by omega), if_pos (by omega), lead, middle, trail]

theorem utf8_of_four {first second third fourth : Nat} (opens : opensFour first second = true)
    (continuesThird : isContinuation third = true)
    (continuesFourth : isContinuation fourth = true) :
    IsScalar ((first - 0xF0) * 0x40000 + (second - 0x80) * 0x1000 + (third - 0x80) * 0x40 +
        (fourth - 0x80)) ∧
      utf8 ((first - 0xF0) * 0x40000 + (second - 0x80) * 0x1000 + (third - 0x80) * 0x40 +
        (fourth - 0x80)) = [first, second, third, fourth] := by
  have firstRange := (opensFour_iff first second).mp opens
  have thirdRange := (isContinuation_iff third).mp continuesThird
  have fourthRange := (isContinuation_iff fourth).mp continuesFourth
  have lead : 0xF0 + ((first - 0xF0) * 0x40000 + (second - 0x80) * 0x1000 + (third - 0x80) * 0x40 +
      (fourth - 0x80)) / 0x40000 = first := by omega
  have middle : 0x80 + ((first - 0xF0) * 0x40000 + (second - 0x80) * 0x1000 +
      (third - 0x80) * 0x40 + (fourth - 0x80)) / 0x1000 % 0x40 = second := by omega
  have middleLow : 0x80 + ((first - 0xF0) * 0x40000 + (second - 0x80) * 0x1000 +
      (third - 0x80) * 0x40 + (fourth - 0x80)) / 0x40 % 0x40 = third := by omega
  have trail : 0x80 + ((first - 0xF0) * 0x40000 + (second - 0x80) * 0x1000 +
      (third - 0x80) * 0x40 + (fourth - 0x80)) % 0x40 = fourth := by omega
  refine ⟨by unfold IsScalar; omega, ?_⟩
  rw [utf8, if_neg (by omega), if_neg (by omega), if_neg (by omega), lead, middle, middleLow, trail]

theorem opensWithScalar_of_map {scalar : Nat} {encoded bytes laterBytes scalars : List Nat}
    (encodes : IsScalar scalar ∧ utf8 scalar = encoded) (opens : encoded ++ laterBytes = bytes)
    (decodes : (utf8Decode laterBytes).map (scalar :: ·) = some scalars) :
    OpensWithScalar bytes scalars := by
  rcases Option.map_eq_some_iff.mp decodes with ⟨later, laterDecodes, rfl⟩
  exact ⟨scalar, laterBytes, later, encodes.1, by rw [encodes.2, opens], laterDecodes, rfl⟩

/-- What the decoder accepts opens with the encoding of a scalar value. -/
theorem opensWithScalar_of_utf8Decode {first : Nat} {afterFirst scalars : List Nat}
    (decodes : utf8Decode (first :: afterFirst) = some scalars) :
    OpensWithScalar (first :: afterFirst) scalars := by
  rw [utf8Decode.eq_def] at decodes
  change (if first < 0x80 then _ else _) = _ at decodes
  by_cases one : first < 0x80
  · rw [if_pos one] at decodes
    exact opensWithScalar_of_map (utf8_of_one one) rfl decodes
  rw [if_neg one] at decodes
  cases afterFirst with
  | nil => cases decodes
  | cons second afterSecond =>
  change (if 0xC2 ≤ first ∧ first ≤ 0xDF ∧ isContinuation second then _ else _) = _ at decodes
  by_cases two : 0xC2 ≤ first ∧ first ≤ 0xDF ∧ isContinuation second
  · rw [if_pos two] at decodes
    exact opensWithScalar_of_map (utf8_of_two ⟨two.1, two.2.1⟩ two.2.2) rfl decodes
  rw [if_neg two] at decodes
  cases afterSecond with
  | nil => cases decodes
  | cons third afterThird =>
  change (if (opensThree first second && isContinuation third) = true then _ else _) = _ at decodes
  by_cases three : (opensThree first second && isContinuation third) = true
  · rw [if_pos three] at decodes
    have parts := Bool.and_eq_true_iff.mp three
    exact opensWithScalar_of_map (utf8_of_three parts.1 parts.2) rfl decodes
  rw [if_neg three] at decodes
  cases afterThird with
  | nil => cases decodes
  | cons fourth rest =>
  change (if (opensFour first second && isContinuation third && isContinuation fourth) = true then _
    else _) = _ at decodes
  by_cases four : (opensFour first second && isContinuation third && isContinuation fourth) = true
  · rw [if_pos four] at decodes
    have parts := Bool.and_eq_true_iff.mp four
    have front := Bool.and_eq_true_iff.mp parts.1
    exact opensWithScalar_of_map (utf8_of_four front.1 front.2 parts.2) rfl decodes
  rw [if_neg four] at decodes
  cases decodes

theorem utf8_length_pos (scalar : Nat) : 0 < (utf8 scalar).length := by
  unfold utf8
  split_ifs <;> exact Nat.succ_pos _

/-- The decoder inverts the encoding: it reads the scalar values of their
bytes and accepts nothing but such bytes. -/
theorem utf8Decode_eq_some_iff (bytes scalars : List Nat) :
    utf8Decode bytes = some scalars ↔
      (forall scalar, scalar ∈ scalars -> IsScalar scalar) ∧ bytes = scalars.flatMap utf8 := by
  constructor
  · induction size : bytes.length using Nat.strongRecOn generalizing bytes scalars with
    | ind length inductionHypothesis =>
      intro decodes
      cases bytes with
      | nil =>
          rw [utf8Decode] at decodes
          cases decodes
          exact ⟨fun _ listed => absurd listed List.not_mem_nil, rfl⟩
      | cons first afterFirst =>
          rcases opensWithScalar_of_utf8Decode decodes with
            ⟨scalar, laterBytes, later, isScalar, encoded, laterDecodes, rfl⟩
          have shorter : laterBytes.length < length := by
            have positive := utf8_length_pos scalar
            rw [← size, encoded, List.length_append]
            omega
          have laterParts := inductionHypothesis _ shorter laterBytes later rfl laterDecodes
          refine ⟨?_, ?_⟩
          · intro other listed
            rcases List.mem_cons.mp listed with rfl | member
            · exact isScalar
            · exact laterParts.1 other member
          · rw [encoded, List.flatMap_cons, ← laterParts.2]
  · rintro ⟨valid, rfl⟩
    induction scalars with
    | nil => rfl
    | cons scalar later inductionHypothesis =>
        have laterDecodes :=
          inductionHypothesis (fun other listed => valid other (List.mem_cons_of_mem _ listed))
        rw [List.flatMap_cons, utf8Decode_utf8_append (valid scalar List.mem_cons_self), laterDecodes]
        rfl

/-! ## Escapes in a text -/

/-- `%`, two hexadecimal digits of the byte, and a text after them. -/
def OpensWithEscape (byte : Nat) (text rest : List CodeUnit) : Prop :=
  Exists fun high => Exists fun low => Exists fun highValue => Exists fun lowValue =>
    text = 37 :: high :: low :: rest ∧ hexValue high = some highValue ∧
      hexValue low = some lowValue ∧ byte = 16 * highValue + lowValue

/-- The text consists of escapes, one for each of the bytes. -/
def Spells (escaped : List CodeUnit) : List Nat -> Prop
  | [] => escaped = []
  | byte :: bytes => Exists fun rest => OpensWithEscape byte escaped rest ∧ Spells rest bytes

/-- A text decodes to another: its units other than `%` stand for themselves,
and its escapes spell the UTF-8 bytes of scalar values. -/
inductive Decodes : List CodeUnit -> List CodeUnit -> Prop
  | nil : Decodes [] []
  | unit {unit : CodeUnit} {rest later : List CodeUnit} (notPercent : unit ≠ 37)
      (restDecodes : Decodes rest later) : Decodes (unit :: rest) (unit :: later)
  | escapes {scalar : Nat} {escaped rest later : List CodeUnit} (isScalar : IsScalar scalar)
      (spells : Spells escaped (utf8 scalar)) (restDecodes : Decodes rest later) :
      Decodes (escaped ++ rest) (utf16 scalar ++ later)

theorem Decodes.append {first second firstDecoded secondDecoded : List CodeUnit}
    (firstDecodes : Decodes first firstDecoded) (secondDecodes : Decodes second secondDecoded) :
    Decodes (first ++ second) (firstDecoded ++ secondDecoded) := by
  induction firstDecodes with
  | nil => exact secondDecodes
  | unit notPercent _ inductionHypothesis => exact Decodes.unit notPercent inductionHypothesis
  | escapes isScalar spells _ inductionHypothesis =>
      rw [List.append_assoc, List.append_assoc]
      exact Decodes.escapes isScalar spells inductionHypothesis

theorem OpensWithEscape.append {byte : Nat} {text rest : List CodeUnit}
    (opens : OpensWithEscape byte text rest) (later : List CodeUnit) :
    OpensWithEscape byte (text ++ later) (rest ++ later) := by
  rcases opens with ⟨high, low, highValue, lowValue, rfl, digits⟩
  exact ⟨high, low, highValue, lowValue, rfl, digits⟩

theorem Spells.append {first second : List CodeUnit} {bytes laterBytes : List Nat}
    (spells : Spells first bytes) (spellsLater : Spells second laterBytes) :
    Spells (first ++ second) (bytes ++ laterBytes) := by
  induction bytes generalizing first with
  | nil =>
      cases spells
      exact spellsLater
  | cons byte bytes inductionHypothesis =>
      rcases spells with ⟨rest, opens, spellsRest⟩
      exact ⟨rest ++ second, opens.append second, inductionHypothesis spellsRest⟩

/-- Escapes that spell the bytes of two lists fall into two parts. -/
theorem Spells.split {escaped : List CodeUnit} {bytes laterBytes : List Nat}
    (spells : Spells escaped (bytes ++ laterBytes)) :
    Exists fun first => Exists fun second =>
      escaped = first ++ second ∧ Spells first bytes ∧ Spells second laterBytes := by
  induction bytes generalizing escaped with
  | nil => exact ⟨[], escaped, rfl, rfl, spells⟩
  | cons byte bytes inductionHypothesis =>
      rcases spells with ⟨rest, ⟨high, low, highValue, lowValue, rfl, digits⟩, spellsRest⟩
      rcases inductionHypothesis spellsRest with ⟨first, second, rfl, spellsFirst, spellsSecond⟩
      exact ⟨37 :: high :: low :: first, second, rfl,
        ⟨first, ⟨high, low, highValue, lowValue, rfl, digits⟩, spellsFirst⟩, spellsSecond⟩

theorem decodeRun_eq_some_iff (bytes : List Nat) (decoded : List CodeUnit) :
    decodeRun bytes = some decoded ↔
      Exists fun scalars : List Nat => (forall scalar, scalar ∈ scalars -> IsScalar scalar) ∧
        bytes = scalars.flatMap utf8 ∧ decoded = scalars.flatMap utf16 := by
  rw [decodeRun, Option.map_eq_some_iff]
  simp only [utf8Decode_eq_some_iff, and_assoc, eq_comm]

/-- A run of escapes that decodes as a whole decodes scalar by scalar. -/
theorem decodes_of_scalars {scalars : List Nat} {escaped : List CodeUnit}
    (valid : forall scalar, scalar ∈ scalars -> IsScalar scalar)
    (spells : Spells escaped (scalars.flatMap utf8)) :
    Decodes escaped (scalars.flatMap utf16) := by
  induction scalars generalizing escaped with
  | nil =>
      cases spells
      exact Decodes.nil
  | cons scalar rest inductionHypothesis =>
      rw [List.flatMap_cons] at spells
      rcases spells.split with ⟨first, second, rfl, spellsFirst, spellsSecond⟩
      refine Decodes.escapes (valid scalar List.mem_cons_self) spellsFirst ?_
      exact inductionHypothesis (fun other listed => valid other (List.mem_cons_of_mem _ listed))
        spellsSecond

/-! ## The decoder -/

theorem replaceEscapesFrom_escape {byte : Nat} {encoded rest : List CodeUnit} (pending : List Nat)
    (opens : OpensWithEscape byte encoded rest) :
    replaceEscapesFrom pending encoded = replaceEscapesFrom (pending ++ [byte]) rest := by
  rcases opens with ⟨high, low, highValue, lowValue, rfl, highDigit, lowDigit, rfl⟩
  rw [replaceEscapesFrom, if_pos rfl, highDigit, lowDigit]

theorem replaceEscapesFrom_unit {unit : CodeUnit} (notPercent : unit ≠ 37) (pending : List Nat)
    (rest : List CodeUnit) :
    replaceEscapesFrom pending (unit :: rest) =
      (decodeRun pending).bind fun decoded =>
        (replacePercentEscapes rest).map fun later => decoded ++ unit :: later := by
  rw [replaceEscapesFrom.eq_def]
  change (if unit = 37 then _ else _) = _
  rw [if_neg notPercent]
  change _ = (decodeRun pending).bind fun decoded => (replaceEscapesFrom [] rest).map _
  cases decodeRun pending with
  | none => rfl
  | some decoded => cases replaceEscapesFrom [] rest <;> rfl

/-- A `%` that the decoder accepts starts an escape. -/
theorem opensWithEscape_of_replaceEscapesFrom {pending : List Nat} {rest decoded : List CodeUnit}
    (decodes : replaceEscapesFrom pending (37 :: rest) = some decoded) :
    Exists fun byte => Exists fun later => OpensWithEscape byte (37 :: rest) later := by
  match rest, decodes with
  | [], decodes => cases decodes
  | [_], decodes => cases decodes
  | high :: low :: later, decodes =>
      rw [replaceEscapesFrom, if_pos rfl] at decodes
      cases highDigit : hexValue high with
      | none =>
          rw [highDigit] at decodes
          cases decodes
      | some highValue =>
          cases lowDigit : hexValue low with
          | none =>
              rw [highDigit, lowDigit] at decodes
              cases decodes
          | some lowValue =>
              exact ⟨_, later, high, low, highValue, lowValue, rfl, highDigit, lowDigit, rfl⟩

/-- A `%` that starts no escape is not accepted. -/
theorem replaceEscapesFrom_of_not_opens {rest : List CodeUnit} (pending : List Nat)
    (noEscape : ¬ Exists fun byte => Exists fun later => OpensWithEscape byte (37 :: rest) later) :
    replaceEscapesFrom pending (37 :: rest) = none := by
  apply Option.eq_none_iff_forall_ne_some.mpr
  intro decoded decodes
  exact noEscape (opensWithEscape_of_replaceEscapesFrom decodes)

/-- With the bytes of earlier escapes still pending, the decoder accepts only
texts that decode. -/
theorem decodes_of_replaceEscapesFrom {pending : List Nat} {before encoded decoded : List CodeUnit}
    (spells : Spells before pending)
    (replaced : replaceEscapesFrom pending encoded = some decoded) :
    Decodes (before ++ encoded) decoded := by
  induction size : encoded.length using Nat.strongRecOn generalizing pending before encoded decoded with
  | ind length inductionHypothesis =>
    have decodes_pending {run : List CodeUnit} (runDecodes : decodeRun pending = some run) :
        Decodes before run := by
      rcases (decodeRun_eq_some_iff pending run).mp runDecodes with ⟨scalars, valid, same, rfl⟩
      exact decodes_of_scalars valid (same ▸ spells)
    cases encoded with
    | nil =>
        rw [List.append_nil]
        rw [replaceEscapesFrom] at replaced
        exact decodes_pending replaced
    | cons unit rest =>
        by_cases isPercent : unit = 37
        · subst isPercent
          rcases opensWithEscape_of_replaceEscapesFrom replaced with ⟨byte, later, opens⟩
          rw [replaceEscapesFrom_escape pending opens] at replaced
          rcases opens with ⟨high, low, highValue, lowValue, same, digits⟩
          rw [List.cons.injEq] at same
          rcases same with ⟨_, rfl⟩
          have spellsMore : Spells (before ++ [37, high, low]) (pending ++ [byte]) :=
            spells.append ⟨[], ⟨high, low, highValue, lowValue, rfl, digits⟩, rfl⟩
          have decodes := inductionHypothesis later.length (by rw [← size]; simp; omega) spellsMore
            replaced rfl
          rw [List.append_assoc] at decodes
          exact decodes
        · rw [replaceEscapesFrom_unit isPercent] at replaced
          rcases Option.bind_eq_some_iff.mp replaced with ⟨run, runDecodes, continues⟩
          rcases Option.map_eq_some_iff.mp continues with ⟨later, laterDecodes, rfl⟩
          have restDecodes : Decodes ([] ++ rest) later :=
            inductionHypothesis rest.length (by rw [← size]; simp) (show Spells [] [] from rfl)
              laterDecodes rfl
          exact (decodes_pending runDecodes).append (Decodes.unit isPercent restDecodes)

/-- Escapes are collected into the pending bytes. -/
theorem replaceEscapesFrom_spelled {escaped : List CodeUnit} {bytes : List Nat}
    (spells : Spells escaped bytes) (pending : List Nat) (rest : List CodeUnit) :
    replaceEscapesFrom pending (escaped ++ rest) = replaceEscapesFrom (pending ++ bytes) rest := by
  induction bytes generalizing escaped pending with
  | nil =>
      cases spells
      rw [List.append_nil]
      rfl
  | cons byte bytes inductionHypothesis =>
      rcases spells with ⟨later, opens, spellsLater⟩
      rw [replaceEscapesFrom_escape pending (opens.append rest), inductionHypothesis spellsLater,
        List.append_assoc]
      rfl

/-- The pending bytes decode and the text decodes, hence both together. -/
theorem replaceEscapesFrom_of_decodes {pending : List Nat} {encoded decoded run : List CodeUnit}
    (runDecodes : decodeRun pending = some run) (decodes : Decodes encoded decoded) :
    replaceEscapesFrom pending encoded = some (run ++ decoded) := by
  induction decodes generalizing pending run with
  | nil => rw [replaceEscapesFrom, runDecodes, List.append_nil]
  | @unit unit rest later notPercent _ inductionHypothesis =>
      have restDecodes : replacePercentEscapes rest = some ([] ++ later) := inductionHypothesis rfl
      rw [replaceEscapesFrom_unit notPercent, runDecodes, restDecodes]
      rfl
  | @escapes scalar escaped rest later isScalar spells _ inductionHypothesis =>
      have longer : decodeRun (pending ++ utf8 scalar) = some (run ++ utf16 scalar) := by
        rcases (decodeRun_eq_some_iff pending run).mp runDecodes with ⟨scalars, valid, rfl, rfl⟩
        refine (decodeRun_eq_some_iff _ _).mpr ⟨scalars ++ [scalar], ?_, ?_, ?_⟩
        · intro other listed
          rcases List.mem_append.mp listed with member | member
          · exact valid other member
          · rw [List.mem_singleton.mp member]
            exact isScalar
        · rw [List.flatMap_append, List.flatMap_singleton]
        · rw [List.flatMap_append, List.flatMap_singleton]
      rw [replaceEscapesFrom_spelled spells, inductionHypothesis longer, List.append_assoc]

/-- The decoder computes what a text decodes to. -/
theorem replacePercentEscapes_eq_some_iff (encoded decoded : List CodeUnit) :
    replacePercentEscapes encoded = some decoded ↔ Decodes encoded decoded := by
  constructor
  · intro replaced
    exact decodes_of_replaceEscapesFrom (show Spells [] [] from rfl) replaced
  · intro decodes
    exact replaceEscapesFrom_of_decodes (show decodeRun [] = some [] from rfl) decodes

/-- A unit that is neither `%` nor a digit of an escape. -/
def IsSeparator (unit : CodeUnit) : Prop :=
  unit ≠ 37 ∧ hexValue unit = none

/-- No escape reaches over a separator. -/
theorem OpensWithEscape.of_separated {byte : Nat} {separator : CodeUnit}
    (isSeparator : IsSeparator separator) {first second later : List CodeUnit}
    (opens : OpensWithEscape byte (37 :: (first ++ separator :: second)) later) :
    Exists fun rest => OpensWithEscape byte (37 :: first) rest := by
  rcases opens with ⟨high, low, highValue, lowValue, same, highDigit, lowDigit, spelled⟩
  match first, same with
  | [], same =>
      cases same
      rw [isSeparator.2] at highDigit
      cases highDigit
  | [_], same =>
      cases same
      rw [isSeparator.2] at lowDigit
      cases lowDigit
  | _ :: _ :: rest, same =>
      cases same
      exact ⟨rest, high, low, highValue, lowValue, rfl, highDigit, lowDigit, spelled⟩

/-- The decoder treats what stands before and after a separator on its own. -/
theorem replaceEscapesFrom_separated {separator : CodeUnit} (isSeparator : IsSeparator separator)
    (pending : List Nat) (first second : List CodeUnit) :
    replaceEscapesFrom pending (first ++ separator :: second) =
      (replaceEscapesFrom pending first).bind fun decoded =>
        (replacePercentEscapes second).map fun later => decoded ++ separator :: later := by
  induction size : first.length using Nat.strongRecOn generalizing pending first with
  | ind length inductionHypothesis =>
    cases first with
    | nil =>
        rw [List.nil_append, replaceEscapesFrom_unit isSeparator.1, replaceEscapesFrom]
    | cons unit rest =>
        by_cases isPercent : unit = 37
        · subst isPercent
          by_cases opens : Exists fun byte => Exists fun later => OpensWithEscape byte (37 :: rest) later
          · rcases opens with ⟨byte, later, opens⟩
            have shorter : later.length < length := by
              rcases opens with ⟨_, _, _, _, same, _⟩
              rw [← size, same]
              simp only [List.length_cons]
              omega
            rw [replaceEscapesFrom_escape pending (opens.append (separator :: second)),
              replaceEscapesFrom_escape pending opens]
            exact inductionHypothesis later.length shorter _ later rfl
          · rw [replaceEscapesFrom_of_not_opens pending opens]
            apply replaceEscapesFrom_of_not_opens
            rintro ⟨byte, later, opensLonger⟩
            rcases opensLonger.of_separated isSeparator with ⟨shorter, opensShorter⟩
            exact opens ⟨byte, shorter, opensShorter⟩
        · have atRest := inductionHypothesis rest.length (by rw [← size]; simp) [] rest rfl
          change replacePercentEscapes _ = _ at atRest
          rw [List.cons_append, replaceEscapesFrom_unit isPercent, replaceEscapesFrom_unit isPercent,
            atRest]
          change _ = ((decodeRun pending).bind fun decoded =>
            (replaceEscapesFrom [] rest).map _).bind _
          cases decodeRun pending with
          | none => rfl
          | some run =>
              cases replaceEscapesFrom [] rest with
              | none => rfl
              | some between =>
                  cases replacePercentEscapes second with
                  | none => rfl
                  | some later =>
                      exact congrArg some (List.append_assoc run (unit :: between) _).symm

/-- A separated text decodes exactly if its parts do, and to their decodings
with the separator between them. -/
theorem replacePercentEscapes_separated {separator : CodeUnit} (isSeparator : IsSeparator separator)
    (first second : List CodeUnit) :
    replacePercentEscapes (first ++ separator :: second) =
      (replacePercentEscapes first).bind fun decoded =>
        (replacePercentEscapes second).map fun later => decoded ++ separator :: later :=
  replaceEscapesFrom_separated isSeparator [] first second

end Library
