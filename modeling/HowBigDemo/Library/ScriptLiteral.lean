import HowBigDemo.Library.TextEncoding

namespace Library

/-!
# Calls with single-quoted literals in JavaScript source

The part of the ECMAScript grammar that derives one call of a function with
single-quoted string literals as arguments, over UTF-16 code units.  A
derivation relates the source of a literal's body to its string value:
characters stand for themselves, and every escape sequence of the standard,
with line continuations and the legacy octal escapes of sloppy mode, stands
for its value.  White space and comments may occur between tokens, and one
semicolon may close the call.

The editions differ in one rule that matters here.  Before ES2019 the line
and paragraph separators U+2028 and U+2029 could not occur in a literal.

The main result concerns source text made by writing values between quotes
without escaping them.  It derives a call with those values exactly if no
value contains a quote, a backslash or a line terminator of the edition.
-/

/-- Whether the separators U+2028 and U+2029 end a literal's line. -/
inductive Edition
  | beforeES2019
  | sinceES2019
  deriving DecidableEq

namespace Script

def quote : CodeUnit := 39
def backslash : CodeUnit := 92
def comma : CodeUnit := 44
def leftParenthesis : CodeUnit := 40
def rightParenthesis : CodeUnit := 41
def semicolon : CodeUnit := 59
def slash : CodeUnit := 47
def asterisk : CodeUnit := 42
def lineFeed : CodeUnit := 10
def carriageReturn : CodeUnit := 13

/-- LineTerminator. -/
def lineTerminators : List CodeUnit :=
  [lineFeed, carriageReturn, 0x2028, 0x2029]

/-- The line terminators that may not stand in a literal. -/
def literalTerminators : Edition -> List CodeUnit
  | .beforeES2019 => lineTerminators
  | .sinceES2019 => [lineFeed, carriageReturn]

/-- WhiteSpace and LineTerminator. -/
def blanks : List CodeUnit :=
  [9, 11, 12, 32, 0xA0, 0x1680, 0x2000, 0x2001, 0x2002, 0x2003, 0x2004, 0x2005, 0x2006, 0x2007,
    0x2008, 0x2009, 0x200A, 0x202F, 0x205F, 0x3000, 0xFEFF] ++ lineTerminators

def isDecimalDigit (unit : CodeUnit) : Bool := 48 ≤ unit && unit ≤ 57

def isOctalDigit (unit : CodeUnit) : Bool := 48 ≤ unit && unit ≤ 55

/-- SingleEscapeCharacter and its value. -/
def singleEscapes : List (CodeUnit × CodeUnit) :=
  [(quote, quote), (34, 34), (backslash, backslash), (98, 8), (102, 12), (110, 10), (114, 13),
    (116, 9), (118, 11)]

/-- The number written by hexadecimal digits. -/
def hexNumber (digits : List CodeUnit) : Option Nat :=
  if digits.all (fun digit => (hexValue digit).isSome) then
    some (digits.foldl (fun number digit => 16 * number + (hexValue digit).getD 0) 0)
  else none

/-- The value of an octal digit. -/
def octalValue (unit : CodeUnit) : Nat := unit.toNat - 48

/-- The next unit of the body, if there is one, is not of the given kind.
The unit after a body is its closing quote, which is no digit. -/
def NotFollowedBy (kind : CodeUnit -> Bool) (rest : List CodeUnit) : Prop :=
  forall unit, rest.head? = some unit -> kind unit = false

/-- What may follow a backslash: the source of an escape sequence or line
continuation, its value, and the source after it, which some of the rules
look at. -/
inductive Escape : List CodeUnit -> List CodeUnit -> List CodeUnit -> Prop
  | single {unit value rest} : (unit, value) ∈ singleEscapes -> Escape [unit] [value] rest
  | nonEscape {unit rest} : unit ∉ singleEscapes.map Prod.fst -> isDecimalDigit unit = false ->
      unit ≠ 120 -> unit ≠ 117 -> unit ∉ lineTerminators -> Escape [unit] [unit] rest
  | zero {rest} : NotFollowedBy isDecimalDigit rest -> Escape [48] [0] rest
  | hex {first second value rest} : hexNumber [first, second] = some value ->
      Escape [120, first, second] [UInt16.ofNat value] rest
  | unicode {digits value rest} : digits.length = 4 -> hexNumber digits = some value ->
      Escape (117 :: digits) [UInt16.ofNat value] rest
  | codePoint {digits value rest} : digits ≠ [] -> hexNumber digits = some value ->
      value ≤ 0x10FFFF -> Escape (117 :: 123 :: digits ++ [125]) (utf16 value) rest
  | octalOne {first rest} : isOctalDigit first = true -> NotFollowedBy isOctalDigit rest ->
      Escape [first] [UInt16.ofNat (octalValue first)] rest
  | octalTwo {first second rest} : isOctalDigit first = true -> isOctalDigit second = true ->
      (first ≤ 51 -> NotFollowedBy isOctalDigit rest) ->
      Escape [first, second] [UInt16.ofNat (8 * octalValue first + octalValue second)] rest
  | octalThree {first second third rest} : isOctalDigit first = true -> first ≤ 51 ->
      isOctalDigit second = true -> isOctalDigit third = true ->
      Escape [first, second, third]
        [UInt16.ofNat (64 * octalValue first + 8 * octalValue second + octalValue third)] rest
  | nonOctal {unit rest} : unit = 56 ∨ unit = 57 -> Escape [unit] [unit] rest
  | continuation {unit rest} : unit ∈ lineTerminators ->
      (unit = carriageReturn -> NotFollowedBy (· == lineFeed) rest) -> Escape [unit] [] rest
  | continuationPair {rest} : Escape [carriageReturn, lineFeed] [] rest

/-- The body of a single-quoted literal and its string value. -/
inductive Body (edition : Edition) : List CodeUnit -> List CodeUnit -> Prop
  | nil : Body edition [] []
  | character {unit rest value} : unit ≠ quote -> unit ≠ backslash ->
      unit ∉ literalTerminators edition -> Body edition rest value ->
      Body edition (unit :: rest) (unit :: value)
  | escape {source units rest value} : Escape source units rest -> Body edition rest value ->
      Body edition (backslash :: (source ++ rest)) (units ++ value)

/-- White space and comments between two tokens. -/
inductive Gap : List CodeUnit -> Prop
  | nil : Gap []
  | blank {unit rest} : unit ∈ blanks -> Gap rest -> Gap (unit :: rest)
  | blockComment {body rest} : ¬ [asterisk, slash] <:+: body ++ [asterisk] -> Gap rest ->
      Gap (slash :: asterisk :: body ++ asterisk :: slash :: rest)
  | lineComment {body unit rest} : (forall other, other ∈ body -> other ∉ lineTerminators) ->
      unit ∈ lineTerminators -> Gap rest -> Gap (slash :: slash :: body ++ unit :: rest)

/-- What may follow the last token: a gap, and a line comment without an end. -/
inductive Ending : List CodeUnit -> Prop
  | gap {rest} : Gap rest -> Ending rest
  | lineComment {before body} : Gap before ->
      (forall other, other ∈ body -> other ∉ lineTerminators) ->
      Ending (before ++ slash :: slash :: body)

/-- One or more literals, separated by commas, up to the closing parenthesis,
with the values of the literals. -/
inductive Arguments (edition : Edition) : List CodeUnit -> List (List CodeUnit) -> Prop
  | last {before body value after} : Gap before -> Body edition body value -> Gap after ->
      Arguments edition (before ++ quote :: body ++ quote :: after ++ [rightParenthesis]) [value]
  | more {before body value after rest values} : Gap before -> Body edition body value ->
      Gap after -> Arguments edition rest values ->
      Arguments edition (before ++ quote :: body ++ quote :: after ++ comma :: rest)
        (value :: values)

/-- The whole source text is one call of the function with literals of the
given values, optionally closed by a semicolon. -/
def IsCall (edition : Edition) (name : List CodeUnit) (values : List (List CodeUnit))
    (source : List CodeUnit) : Prop :=
  Exists fun before => Exists fun between => Exists fun arguments => Exists fun after =>
    Gap before ∧ Gap between ∧ Arguments edition arguments values ∧
      (Ending after ∨ Exists fun first => Exists fun second =>
        Gap first ∧ Ending second ∧ after = first ++ semicolon :: second) ∧
      source = before ++ name ++ between ++ leftParenthesis :: arguments ++ after

/-- Values written between quotes and separated by commas, as they are. -/
def unescapedArguments : List (List CodeUnit) -> List CodeUnit
  | [] => [rightParenthesis]
  | [value] => quote :: value ++ [quote, rightParenthesis]
  | value :: rest => quote :: value ++ quote :: comma :: unescapedArguments rest

/-- The value can be written in a literal as it is. -/
def Inert (edition : Edition) (value : List CodeUnit) : Prop :=
  forall unit, unit ∈ value ->
    unit ≠ quote ∧ unit ≠ backslash ∧ unit ∉ literalTerminators edition

instance (edition : Edition) (value : List CodeUnit) : Decidable (Inert edition value) :=
  inferInstanceAs (Decidable (forall unit, unit ∈ value ->
    unit ≠ quote ∧ unit ≠ backslash ∧ unit ∉ literalTerminators edition))

/-! ## Bodies and their values -/

theorem length_utf16_le_two (scalar : Nat) : (utf16 scalar).length ≤ 2 := by
  unfold utf16
  by_cases one : scalar < 0x10000
  · rw [if_pos one]
    exact Nat.le_succ 1
  · rw [if_neg one]
    exact Nat.le_refl 2

/-- The value of an escape is no longer than what follows its backslash. -/
theorem Escape.length_le {source units rest : List CodeUnit}
    (escape : Escape source units rest) : units.length ≤ source.length := by
  cases escape with
  | @codePoint digits value _ _ _ _ =>
      have short := length_utf16_le_two value
      simp only [List.length_cons, List.length_append, List.length_nil, List.cons_append]
      omega
  | single => exact Nat.le_refl 1
  | nonEscape => exact Nat.le_refl 1
  | zero => exact Nat.le_refl 1
  | hex => exact Nat.succ_le_succ (Nat.zero_le _)
  | unicode => exact Nat.succ_le_succ (Nat.zero_le _)
  | octalOne => exact Nat.le_refl 1
  | octalTwo => exact Nat.succ_le_succ (Nat.zero_le _)
  | octalThree => exact Nat.succ_le_succ (Nat.zero_le _)
  | nonOctal => exact Nat.le_refl 1
  | continuation => exact Nat.zero_le _
  | continuationPair => exact Nat.zero_le _

theorem quote_not_hex {digits : List CodeUnit} {value : Nat}
    (number : hexNumber digits = some value) : quote ∉ digits := by
  intro member
  unfold hexNumber at number
  by_cases digit : digits.all fun digit => (hexValue digit).isSome
  · have impossible := List.all_eq_true.mp digit quote member
    revert impossible
    decide
  · rw [if_neg digit] at number
    cases number

theorem quote_not_octal {unit : CodeUnit} (octal : isOctalDigit unit = true) : quote ≠ unit := by
  intro same
  rw [← same] at octal
  revert octal
  decide

/-- A quote after a backslash is that backslash's escape, and stands for
itself. -/
theorem Escape.quote_mem {source units rest : List CodeUnit}
    (escape : Escape source units rest) (member : quote ∈ source) :
    source = [quote] ∧ units = [quote] := by
  cases escape with
  | single listed =>
      cases List.mem_singleton.mp member
      have value : forall other, (quote, other) ∈ singleEscapes -> other = quote := by
        intro other found
        simp only [singleEscapes, List.mem_cons, Prod.mk.injEq, List.not_mem_nil, or_false] at found
        revert found
        simp +decide
      rw [value _ listed]
      exact ⟨rfl, rfl⟩
  | nonEscape unlisted =>
      cases List.mem_singleton.mp member
      exact absurd unlisted (by decide)
  | zero =>
      exact absurd (List.mem_singleton.mp member) (by decide)
  | hex number =>
      rcases List.mem_cons.mp member with impossible | digit
      · exact absurd impossible (by decide)
      · exact absurd digit (quote_not_hex number)
  | unicode _ number =>
      rcases List.mem_cons.mp member with impossible | digit
      · exact absurd impossible (by decide)
      · exact absurd digit (quote_not_hex number)
  | codePoint _ number =>
      rcases List.mem_append.mp member with opening | closing
      · rcases List.mem_cons.mp opening with impossible | opening
        · exact absurd impossible (by decide)
        · rcases List.mem_cons.mp opening with impossible | digit
          · exact absurd impossible (by decide)
          · exact absurd digit (quote_not_hex number)
      · exact absurd (List.mem_singleton.mp closing) (by decide)
  | octalOne octal =>
      exact absurd (List.mem_singleton.mp member) (quote_not_octal octal)
  | octalTwo first second =>
      rcases List.mem_cons.mp member with impossible | later
      · exact absurd impossible (quote_not_octal first)
      · exact absurd (List.mem_singleton.mp later) (quote_not_octal second)
  | octalThree first _ second third =>
      rcases List.mem_cons.mp member with impossible | later
      · exact absurd impossible (quote_not_octal first)
      · rcases List.mem_cons.mp later with impossible | later
        · exact absurd impossible (quote_not_octal second)
        · exact absurd (List.mem_singleton.mp later) (quote_not_octal third)
  | nonOctal digit =>
      cases List.mem_singleton.mp member
      exact absurd digit (by decide)
  | continuation terminator =>
      cases List.mem_singleton.mp member
      exact absurd terminator (by decide)
  | continuationPair => exact absurd member (by decide)

variable {edition : Edition}

/-- A value is never longer than the source of its literal. -/
theorem Body.length_le {source value : List CodeUnit} (body : Body edition source value) :
    value.length ≤ source.length := by
  induction body with
  | nil => exact Nat.le_refl 0
  | character _ _ _ _ inductionHypothesis => exact Nat.succ_le_succ inductionHypothesis
  | escape escape _ inductionHypothesis =>
      have short := escape.length_le
      simp only [List.length_append, List.length_cons]
      omega

/-- A literal as long as its value was written without escapes. -/
theorem Body.inert_of_length {source value : List CodeUnit} (body : Body edition source value)
    (same : source.length ≤ value.length) : Inert edition value := by
  induction body with
  | nil =>
      intro unit impossible
      cases impossible
  | character notQuote notBackslash notTerminator _ inductionHypothesis =>
      intro other member
      rcases List.mem_cons.mp member with head | later
      · exact head ▸ ⟨notQuote, notBackslash, notTerminator⟩
      · exact inductionHypothesis (Nat.le_of_succ_le_succ same) other later
  | escape escape rest _ =>
      have short := escape.length_le
      have shortRest := rest.length_le
      simp only [List.length_append, List.length_cons] at same
      omega

/-- An inert value is the source of its own literal. -/
theorem Inert.body {value : List CodeUnit} (inert : Inert edition value) :
    Body edition value value := by
  induction value with
  | nil => exact Body.nil
  | cons unit rest inductionHypothesis =>
      have head := inert unit List.mem_cons_self
      exact Body.character head.1 head.2.1 head.2.2
        (inductionHypothesis fun other member => inert other (List.mem_cons_of_mem unit member))

/-- A quote inside a body is escaped: a backslash stands before it, the
value has the quote, and a body follows. -/
theorem Body.quote_split {before after value : List CodeUnit}
    (body : Body edition (before ++ quote :: after) value) :
    Exists fun start => Exists fun first => Exists fun second =>
      before = start ++ [backslash] ∧ value = first ++ quote :: second ∧
        Body edition after second := by
  generalize whole : before ++ quote :: after = source at body
  induction body generalizing before with
  | nil => exact absurd whole (by simp)
  | @character unit rest value notQuote _ _ _ inductionHypothesis =>
      cases before with
      | nil =>
          injection whole with head
          exact absurd head.symm notQuote
      | cons other before =>
          injection whole with head tail
          rcases inductionHypothesis tail with ⟨start, first, second, split, values, later⟩
          exact ⟨other :: start, unit :: first, second, congrArg (List.cons other) split,
            congrArg (List.cons unit) values, later⟩
  | @escape source units rest value escape later inductionHypothesis =>
      cases before with
      | nil =>
          injection whole with head
          exact absurd head (by decide)
      | cons other before =>
          injection whole with head tail
          rcases List.append_eq_append_iff.mp tail with ⟨middle, split, remaining⟩ | ⟨middle, split, remaining⟩
          · cases middle with
            | nil =>
                rcases @inductionHypothesis [] remaining with ⟨start, _, _, impossible, _⟩
                exact absurd impossible (by simp)
            | cons unit middle =>
                injection remaining with quoted remaining
                cases quoted
                have whole := escape.quote_mem (split ▸ List.mem_append_right _ List.mem_cons_self)
                have lengths := congrArg List.length (split.symm.trans whole.1)
                simp only [List.length_append, List.length_cons, List.length_nil] at lengths
                have noBefore : before = [] := List.eq_nil_of_length_eq_zero (by omega)
                have noMiddle : middle = [] := List.eq_nil_of_length_eq_zero (by omega)
                subst noBefore noMiddle
                refine ⟨[], [], value, congrArg (fun unit => [unit]) head, ?_, ?_⟩
                · rw [whole.2]
                  rfl
                · rw [remaining]
                  exact later
          · rcases inductionHypothesis remaining.symm with ⟨start, first, second, ends, values, tailBody⟩
            refine ⟨other :: (source ++ start), units ++ first, second, ?_, ?_, tailBody⟩
            · rw [split, ends, ← List.append_assoc]
              rfl
            · rw [values, List.append_assoc]

/-- The text between an opening quote and the next unescaped one is the
value itself only if the value is inert, and then the literal ends where
the value does.  What follows the value's own closing quote must not let an
escaped quote pass for a part of it: either a comma and an opening quote, or
text without quotes. -/
theorem Body.eq_of_unescaped {source value after rest : List CodeUnit}
    (body : Body edition source value)
    (same : source ++ quote :: after = value ++ quote :: rest)
    (closing : (Exists fun next => rest = comma :: quote :: next) ∨ quote ∉ rest) :
    Inert edition value ∧ after = rest := by
  have short := body.length_le
  rcases List.append_eq_append_iff.mp same with ⟨extra, split, remaining⟩ | ⟨extra, split, remaining⟩
  · have lengths := congrArg List.length split
    rw [List.length_append] at lengths
    have none : extra = [] := List.eq_nil_of_length_eq_zero (by omega)
    subst none
    injection remaining with _ remaining
    exact ⟨body.inert_of_length (by omega), remaining⟩
  · cases extra with
    | nil =>
        rw [List.append_nil] at split
        injection remaining with _ remaining
        exact ⟨body.inert_of_length (Nat.le_of_eq (congrArg List.length split)), remaining.symm⟩
    | cons unit extra =>
        injection remaining with quoted remaining
        cases quoted
        rw [split] at body
        rcases body.quote_split with ⟨start, first, second, ends, values, tailBody⟩
        rcases closing with ⟨next, opens⟩ | noQuote
        · rw [opens] at remaining
          cases extra with
          | nil =>
              injection remaining with impossible
              exact absurd impossible (by decide)
          | cons separator extra =>
              injection remaining with separated remaining
              cases separated
              cases extra with
              | nil =>
                  have last : second = [comma] := by
                    cases tailBody with
                    | character _ _ _ empty =>
                        cases empty
                        rfl
                  have final := congrArg List.getLast? (ends.symm.trans values)
                  rw [last] at final
                  simp only [List.getLast?_append, List.getLast?_singleton, List.getLast?_cons_cons,
                    Option.some_or, Option.some.injEq] at final
                  exact absurd final (by decide)
              | cons third extra =>
                  injection remaining with third
                  cases third
                  rcases @Body.quote_split edition [comma] _ _ tailBody with
                    ⟨start, _, _, impossible, _⟩
                  have final := congrArg List.getLast? impossible
                  simp only [List.getLast?_append, List.getLast?_singleton, Option.some_or,
                    Option.some.injEq] at final
                  exact absurd final (by decide)
        · exact absurd (remaining ▸ List.mem_append_right _ List.mem_cons_self) noQuote

/-! ## Gaps and argument lists -/

/-- Text that starts with neither white space nor a slash has no gap before it. -/
theorem Gap.eq_nil {gap tail rest : List CodeUnit} {unit : CodeUnit} (skipped : Gap gap)
    (same : gap ++ tail = unit :: rest) (notBlank : unit ∉ blanks) (notSlash : unit ≠ slash) :
    gap = [] := by
  cases skipped with
  | nil => rfl
  | blank blank _ =>
      injection same with head
      exact absurd (head ▸ blank) notBlank
  | blockComment _ _ =>
      injection same with head
      exact absurd head.symm notSlash
  | lineComment _ _ _ =>
      injection same with head
      exact absurd head.symm notSlash

theorem unescapedArguments_cons (value second : List CodeUnit) (later : List (List CodeUnit)) :
    Exists fun next => unescapedArguments (value :: second :: later) =
        quote :: (value ++ quote :: comma :: quote :: next) ∧
      unescapedArguments (second :: later) = quote :: next := by
  cases later with
  | nil => exact ⟨_, rfl, rfl⟩
  | cons third later => exact ⟨_, rfl, rfl⟩

/-- Inert values written as they are form an argument list. -/
theorem arguments_of_inert {values : List (List CodeUnit)} (nonempty : values ≠ [])
    (inert : forall value, value ∈ values -> Inert edition value) :
    Arguments edition (unescapedArguments values) values := by
  induction values with
  | nil => exact absurd rfl nonempty
  | cons value rest inductionHypothesis =>
      have body := (inert value List.mem_cons_self).body
      cases rest with
      | nil =>
          have single := Arguments.last Gap.nil body Gap.nil
          change Arguments edition (quote :: value ++ [quote, rightParenthesis]) [value]
          simpa only [List.nil_append, List.append_assoc, List.cons_append] using single
      | cons second later =>
          have tail := inductionHypothesis (List.cons_ne_nil _ _)
            (fun other member => inert other (List.mem_cons_of_mem value member))
          have several := Arguments.more Gap.nil body Gap.nil tail
          change Arguments edition
            (quote :: value ++ quote :: comma :: unescapedArguments (second :: later)) _
          simpa only [List.nil_append, List.append_assoc, List.cons_append] using several

/-- An argument list that begins the unescaped text of the same values is
all of it, and the values are inert. -/
theorem Arguments.inert {arguments extra : List CodeUnit} {values : List (List CodeUnit)}
    (derived : Arguments edition arguments values)
    (same : arguments ++ extra = unescapedArguments values) :
    (forall value, value ∈ values -> Inert edition value) ∧ extra = [] := by
  induction derived with
  | @last before body value after gap literal afterGap =>
      change before ++ quote :: body ++ quote :: after ++ [rightParenthesis] ++ extra =
        quote :: value ++ [quote, rightParenthesis] at same
      have noGap := gap.eq_nil (by simpa only [List.append_assoc, List.cons_append] using same)
        (by decide) (by decide)
      subst noGap
      have tail : body ++ quote :: (after ++ rightParenthesis :: extra) =
          value ++ quote :: [rightParenthesis] := by
        simpa only [List.nil_append, List.cons_append, List.append_assoc, List.cons.injEq,
          true_and] using same
      rcases literal.eq_of_unescaped tail (Or.inr (by decide)) with ⟨inert, ends⟩
      have lengths := congrArg List.length ends
      simp only [List.length_append, List.length_cons, List.length_nil] at lengths
      refine ⟨?_, List.eq_nil_of_length_eq_zero (by omega)⟩
      intro other member
      exact List.mem_singleton.mp member ▸ inert
  | @more before body value after rest values gap literal afterGap derivedRest inductionHypothesis =>
      cases values with
      | nil => cases derivedRest
      | cons second later =>
          rcases unescapedArguments_cons value second later with ⟨next, unfolded, unfoldedRest⟩
          rw [unfolded] at same
          have noGap := gap.eq_nil (by simpa only [List.append_assoc, List.cons_append] using same)
            (by decide) (by decide)
          subst noGap
          have tail : body ++ quote :: (after ++ comma :: (rest ++ extra)) =
              value ++ quote :: comma :: quote :: next := by
            simpa only [List.nil_append, List.cons_append, List.append_assoc, List.cons.injEq,
              true_and] using same
          rcases literal.eq_of_unescaped tail (Or.inl ⟨next, rfl⟩) with ⟨inert, ends⟩
          have noAfter := afterGap.eq_nil ends (by decide) (by decide)
          subst noAfter
          injection ends with _ ends
          rcases inductionHypothesis (ends.trans unfoldedRest.symm) with ⟨inertRest, none⟩
          refine ⟨?_, none⟩
          intro other member
          rcases List.mem_cons.mp member with head | listed
          · exact head ▸ inert
          · exact inertRest other listed

/-- Values written between quotes as they are form a call with exactly these
values if and only if each of them is inert. -/
theorem isCall_unescaped_iff {name : List CodeUnit} {head : CodeUnit} {tail : List CodeUnit}
    (named : name = head :: tail) (notBlank : head ∉ blanks) (notSlash : head ≠ slash)
    {values : List (List CodeUnit)} (nonempty : values ≠ []) :
    IsCall edition name values (name ++ leftParenthesis :: unescapedArguments values) ↔
      forall value, value ∈ values -> Inert edition value := by
  constructor
  · rintro ⟨before, between, arguments, after, gap, gapBetween, derived, _, same⟩
    have noGap : before = [] := by
      simp only [List.append_assoc, List.cons_append, named] at same
      exact gap.eq_nil same.symm notBlank notSlash
    subst noGap
    have afterName : leftParenthesis :: unescapedArguments values =
        between ++ leftParenthesis :: (arguments ++ after) := by
      apply (List.append_right_inj name).mp
      simpa only [List.nil_append, List.append_assoc, List.cons_append] using same
    have noBetween := gapBetween.eq_nil afterName.symm (by decide) (by decide)
    subst noBetween
    injection afterName with _ afterName
    exact (derived.inert afterName.symm).1
  · intro inert
    refine ⟨[], [], unescapedArguments values, [], Gap.nil, Gap.nil,
      arguments_of_inert nonempty inert, Or.inl (Ending.gap Gap.nil), ?_⟩
    simp only [List.nil_append, List.append_nil]

end Script
end Library
