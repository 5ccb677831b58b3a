import Mathlib.Data.List.Basic

namespace Library

universe u

/-!
# Delimited texts and multipart bodies

The first part of this file cuts a list at the first occurrence of a
delimiter.  If the first item of the delimiter does not occur in the rest of
it, a delimiter put behind a content in which it does not occur is found
where it was put: an occurrence cannot reach from the content into the
delimiter.

The second part is the multipart format over bytes: parts with header lines
and a content, separated by a delimiter line.  `parse` is a receiver; it
reads an encoded body back if no part contains the delimiter.
-/

section Delimiters

variable {Item : Type u}

/-- What stands before and behind the first occurrence of the delimiter. -/
def cutAtFirst [DecidableEq Item] (delimiter : List Item) : List Item -> Option (List Item × List Item)
  | [] => if delimiter = [] then some ([], []) else none
  | item :: rest =>
    if delimiter <+: item :: rest then some ([], (item :: rest).drop delimiter.length)
    else (cutAtFirst delimiter rest).map fun parts => (item :: parts.1, parts.2)

variable {delimiter : List Item}

/-- A cut leaves less than the whole, unless the delimiter is empty. -/
theorem length_of_cutAtFirst [DecidableEq Item] {whole before behind : List Item}
    (cut : cutAtFirst delimiter whole = some (before, behind)) :
    before.length + delimiter.length + behind.length = whole.length := by
  induction whole generalizing before with
  | nil =>
      unfold cutAtFirst at cut
      split at cut
      · rename_i empty
        cases cut
        rw [empty]
        rfl
      · cases cut
  | cons item rest inductionHypothesis =>
      unfold cutAtFirst at cut
      by_cases here : delimiter <+: item :: rest
      · rw [if_pos here] at cut
        cases cut
        have fits := here.length_le
        rw [List.length_drop, List.length_nil]
        omega
      · rw [if_neg here] at cut
        rcases Option.map_eq_some_iff.mp cut with ⟨⟨earlier, later⟩, found, same⟩
        cases same
        have lengths : earlier.length + delimiter.length + later.length = rest.length :=
          inductionHypothesis found
        change earlier.length + 1 + delimiter.length + later.length = rest.length + 1
        omega

/-- An occurrence that starts before the delimiter ends before it. -/
theorem prefix_of_prefix_append {first : Item} {others : List Item} (apart : first ∉ others)
    {content rest : List Item} (nonempty : content ≠ [])
    (occurs : first :: others <+: content ++ (first :: others ++ rest)) :
    first :: others <+: content := by
  rcases List.prefix_or_prefix_of_prefix occurs (List.prefix_append content _) with inside | longer
  · exact inside
  · rcases longer with ⟨tail, same⟩
    cases content with
    | nil => exact absurd rfl nonempty
    | cons item content =>
        cases tail with
        | nil =>
            rw [List.append_nil] at same
            exact same ▸ List.prefix_refl _
        | cons next tail =>
            rw [List.cons_append] at same
            injection same with sameFirst sameOthers
            subst sameFirst
            rcases occurs with ⟨behind, whole⟩
            have overlap : next :: tail ++ behind = item :: others ++ rest := by
              have aligned : (item :: content) ++ (next :: tail ++ behind) =
                  (item :: content) ++ (item :: others ++ rest) := by
                rw [← whole, ← sameOthers]
                simp only [List.cons_append, List.append_assoc]
              exact List.append_cancel_left aligned
            have sameNext : next = item := by
              injection overlap
            apply absurd _ apart
            rw [← sameOthers, sameNext]
            exact List.mem_append_right _ List.mem_cons_self

/-- A delimiter behind a content without it is the first occurrence. -/
theorem cutAtFirst_append [DecidableEq Item] {first : Item} {others : List Item} (apart : first ∉ others)
    {content : List Item} (absent : ¬ first :: others <:+: content) (rest : List Item) :
    cutAtFirst (first :: others) (content ++ (first :: others ++ rest)) = some (content, rest) := by
  induction content with
  | nil =>
      rw [List.nil_append, List.cons_append, cutAtFirst, ← List.cons_append,
        if_pos (List.prefix_append _ _), List.drop_left]
  | cons item content inductionHypothesis =>
      have notHere : ¬ first :: others <+: item :: content ++ (first :: others ++ rest) := fun occurs =>
        absent (prefix_of_prefix_append apart (List.cons_ne_nil _ _) occurs).isInfix
      have notLater : ¬ first :: others <:+: content := fun occurs =>
        absent (occurs.trans (List.suffix_cons item content).isInfix)
      rw [List.cons_append] at notHere ⊢
      rw [cutAtFirst, if_neg notHere, inductionHypothesis notLater]
      rfl

/-- An occurrence of the delimiter behind items that are not its first one
is an occurrence in the rest. -/
theorem infix_of_infix_append {first : Item} {others before rest : List Item}
    (noFirst : first ∉ before) (occurs : first :: others <:+: before ++ rest) :
    first :: others <:+: rest := by
  induction before with
  | nil => exact occurs
  | cons item before inductionHypothesis =>
      have parts := not_or.mp (fun listed => noFirst (List.mem_cons.mpr listed))
      rcases List.infix_cons_iff.mp occurs with atStart | later
      · rcases atStart with ⟨behind, same⟩
        injection same with sameFirst
        exact absurd sameFirst parts.1
      · exact inductionHypothesis parts.2 later

end Delimiters

/-! ## The multipart format -/

abbrev Byte := UInt8

def lineEnd : List Byte := [13, 10]

/-- The header lines and the content of a part. -/
structure Part where
  lines : List (List Byte)
  content : List Byte
  deriving DecidableEq

namespace Multipart

/-- Two hyphens and the boundary. -/
def dashed (boundary : List Byte) : List Byte :=
  45 :: 45 :: boundary

/-- What separates a part from what comes after it. -/
def delimiter (boundary : List Byte) : List Byte :=
  13 :: 10 :: dashed boundary

def encodeLines (lines : List (List Byte)) : List Byte :=
  lines.flatMap fun line => line ++ lineEnd

/-- Header lines, an empty line and the content. -/
def encodePart (part : Part) : List Byte :=
  encodeLines part.lines ++ lineEnd ++ part.content

/-- Parts, each with a delimiter behind it, and hyphens behind the last. -/
def encodeParts (boundary : List Byte) : List Part -> List Byte
  | [] => []
  | [part] => encodePart part ++ (delimiter boundary ++ (45 :: 45 :: lineEnd))
  | part :: rest =>
      encodePart part ++ (delimiter boundary ++ (lineEnd ++ encodeParts boundary rest))

/-- A body: the first delimiter line lacks the line end before it. -/
def encode (boundary : List Byte) (parts : List Part) : List Byte :=
  dashed boundary ++ (lineEnd ++ encodeParts boundary parts)

/-- Reads lines up to the empty one. -/
def readLines (bytes : List Byte) : Option (List (List Byte) × List Byte) :=
  match _found : cutAtFirst lineEnd bytes with
  | none => none
  | some (line, rest) =>
    if line = [] then some ([], rest)
    else (readLines rest).map fun later => (line :: later.1, later.2)
termination_by bytes.length
decreasing_by
  have lengths := length_of_cutAtFirst _found
  change line.length + 2 + rest.length = bytes.length at lengths
  omega

def readPart (bytes : List Byte) : Option Part :=
  (readLines bytes).map fun parts => ⟨parts.1, parts.2⟩

/-- Reads parts up to a delimiter with hyphens behind it. -/
def readParts (boundary : List Byte) (bytes : List Byte) : Option (List Part) :=
  match _found : cutAtFirst (delimiter boundary) bytes with
  | none => none
  | some (before, behind) =>
    match readPart before with
    | none => none
    | some part =>
      if [45, 45] <+: behind then some [part]
      else if lineEnd <+: behind then
        (readParts boundary (behind.drop 2)).map (part :: ·)
      else none
termination_by bytes.length
decreasing_by
  have lengths := length_of_cutAtFirst _found
  rw [List.length_drop]
  change before.length + (boundary.length + 4) + behind.length = bytes.length at lengths
  omega

/-- A receiver that knows the boundary. -/
def parse (boundary : List Byte) (bytes : List Byte) : Option (List Part) :=
  if dashed boundary ++ lineEnd <+: bytes then
    readParts boundary (bytes.drop (boundary.length + 4))
  else none

/-- A header line that a receiver cannot mistake: neither empty nor broken,
and not like a delimiter line. -/
structure PlainLine (line : List Byte) : Prop where
  nonempty : line ≠ []
  unbroken : 13 ∉ line
  undashed : line.head? ≠ some 45

/-- A part in which the delimiter does not occur, the line end before the
content included. -/
structure Separable (boundary : List Byte) (part : Part) : Prop where
  lines : forall line, line ∈ part.lines -> PlainLine line
  absent : ¬ delimiter boundary <:+: lineEnd ++ part.content

theorem readLines_of_cut_nil {bytes rest : List Byte}
    (cut : cutAtFirst lineEnd bytes = some ([], rest)) : readLines bytes = some ([], rest) := by
  rw [readLines]
  split
  · rename_i nothing
    rw [cut] at nothing
    cases nothing
  · rename_i line later found
    rw [cut] at found
    cases found
    exact if_pos rfl

theorem readLines_of_cut {bytes line rest : List Byte} (nonempty : line ≠ [])
    (cut : cutAtFirst lineEnd bytes = some (line, rest)) :
    readLines bytes = (readLines rest).map fun later => (line :: later.1, later.2) := by
  rw [readLines]
  split
  · rename_i nothing
    rw [cut] at nothing
    cases nothing
  · rename_i other later found
    rw [cut] at found
    cases found
    exact if_neg nonempty

theorem lineEnd_apart : (13 : Byte) ∉ [(10 : Byte)] := by
  decide

theorem not_infix_of_notMem {first : Byte} {others bytes : List Byte} (absent : first ∉ bytes) :
    ¬ first :: others <:+: bytes :=
  fun occurs => absent (occurs.subset List.mem_cons_self)

/-- Header lines are read back, up to the empty line. -/
theorem readLines_encodeLines {lines : List (List Byte)}
    (plain : forall line, line ∈ lines -> PlainLine line) (content : List Byte) :
    readLines (encodeLines lines ++ (lineEnd ++ content)) = some (lines, content) := by
  induction lines with
  | nil =>
      exact readLines_of_cut_nil (cutAtFirst_append lineEnd_apart
        (not_infix_of_notMem List.not_mem_nil) content)
  | cons line rest inductionHypothesis =>
      have parts := List.forall_mem_cons.mp plain
      have cut : cutAtFirst lineEnd (line ++ (lineEnd ++ (encodeLines rest ++ (lineEnd ++ content)))) =
          some (line, encodeLines rest ++ (lineEnd ++ content)) :=
        cutAtFirst_append lineEnd_apart (not_infix_of_notMem parts.1.unbroken) _
      have split : encodeLines (line :: rest) ++ (lineEnd ++ content) =
          line ++ (lineEnd ++ (encodeLines rest ++ (lineEnd ++ content))) := by
        unfold encodeLines
        rw [List.flatMap_cons, List.append_assoc, List.append_assoc]
      rw [split, readLines_of_cut parts.1.nonempty cut, inductionHypothesis parts.2]
      rfl

theorem readPart_encodePart {boundary : List Byte} {part : Part}
    (separable : Separable boundary part) : readPart (encodePart part) = some part := by
  rw [readPart, encodePart, List.append_assoc, readLines_encodeLines separable.lines]
  rfl

/-- The delimiter does not occur across a line end and bytes that do not look
like a delimiter line. -/
theorem infix_of_infix_lineEnd {boundary rest : List Byte} (undashed : rest.head? ≠ some 45)
    (occurs : delimiter boundary <:+: lineEnd ++ rest) : delimiter boundary <:+: rest := by
  rcases List.infix_cons_iff.mp occurs with atStart | later
  · rcases atStart with ⟨behind, same⟩
    apply absurd _ undashed
    injection same with _ same
    injection same with _ same
    have opens : rest = dashed boundary ++ behind := same.symm
    rw [opens]
    rfl
  · rcases List.infix_cons_iff.mp later with atStart | inRest
    · rcases atStart with ⟨behind, same⟩
      injection same with impossible
      exact absurd impossible (by decide)
    · exact inRest

theorem not_infix_encodePart {boundary : List Byte} {part : Part}
    (separable : Separable boundary part) : ¬ delimiter boundary <:+: encodePart part := by
  rcases part with ⟨lines, content⟩
  rcases separable with ⟨plain, absent⟩
  change forall line, line ∈ lines -> PlainLine line at plain
  change ¬ delimiter boundary <:+: lineEnd ++ content at absent
  rw [encodePart, List.append_assoc]
  change ¬ delimiter boundary <:+: encodeLines lines ++ (lineEnd ++ content)
  induction lines with
  | nil => exact absent
  | cons line rest inductionHypothesis =>
      have parts := List.forall_mem_cons.mp plain
      intro occurs
      rw [encodeLines, List.flatMap_cons, List.append_assoc, List.append_assoc] at occurs
      have behindLine := infix_of_infix_append parts.1.unbroken occurs
      apply inductionHypothesis parts.2
      apply infix_of_infix_lineEnd _ behindLine
      cases rest with
      | nil => exact nofun
      | cons next others =>
          have nextPlain := parts.2 next List.mem_cons_self
          rw [List.flatMap_cons, List.append_assoc, List.append_assoc]
          cases next with
          | nil => exact absurd rfl nextPlain.nonempty
          | cons byte bytes => exact nextPlain.undashed

theorem readParts_of_cut {boundary bytes before behind : List Byte} {part : Part}
    (cut : cutAtFirst (delimiter boundary) bytes = some (before, behind))
    (reads : readPart before = some part) :
    readParts boundary bytes =
      if [45, 45] <+: behind then some [part]
      else if lineEnd <+: behind then (readParts boundary (behind.drop 2)).map (part :: ·)
      else none := by
  rw [readParts]
  split
  · rename_i nothing
    rw [cut] at nothing
    cases nothing
  · rename_i earlier later found
    rw [cut] at found
    cases found
    rw [reads]

/-- Parts are read back, up to the hyphens. -/
theorem readParts_encodeParts {boundary : List Byte} (unbroken : 13 ∉ boundary) {parts : List Part}
    (nonempty : parts ≠ []) (separable : forall part, part ∈ parts -> Separable boundary part) :
    readParts boundary (encodeParts boundary parts) = some parts := by
  have apart : (13 : Byte) ∉ 10 :: dashed boundary := by
    intro listed
    rcases List.mem_cons.mp listed with impossible | listed
    · exact absurd impossible (by decide)
    rcases List.mem_cons.mp listed with impossible | listed
    · exact absurd impossible (by decide)
    rcases List.mem_cons.mp listed with impossible | listed
    · exact absurd impossible (by decide)
    · exact unbroken listed
  induction parts with
  | nil => exact absurd rfl nonempty
  | cons part rest inductionHypothesis =>
      have separableParts := List.forall_mem_cons.mp separable
      have reads := readPart_encodePart separableParts.1
      have cut : forall behind, cutAtFirst (delimiter boundary)
          (encodePart part ++ (delimiter boundary ++ behind)) = some (encodePart part, behind) :=
        cutAtFirst_append apart (not_infix_encodePart separableParts.1)
      cases rest with
      | nil =>
          rw [encodeParts, readParts_of_cut (cut _) reads]
          exact if_pos (List.prefix_append [45, 45] lineEnd)
      | cons next others =>
          have later := inductionHypothesis (List.cons_ne_nil _ _) separableParts.2
          have opensLine : lineEnd <+: lineEnd ++ encodeParts boundary (next :: others) :=
            List.prefix_append _ _
          have notLast : ¬ [45, 45] <+: lineEnd ++ encodeParts boundary (next :: others) := by
            rintro ⟨behind, same⟩
            injection same with impossible
            exact absurd impossible (by decide)
          have encoded : encodeParts boundary (part :: next :: others) = encodePart part ++
              (delimiter boundary ++ (lineEnd ++ encodeParts boundary (next :: others))) := rfl
          rw [encoded, readParts_of_cut (cut _) reads, if_neg notLast, if_pos opensLine]
          change (readParts boundary (encodeParts boundary (next :: others))).map _ = _
          rw [later]
          rfl

/-- A receiver reads back the parts of a body, if none contains the
delimiter. -/
theorem parse_encode {boundary : List Byte} (unbroken : 13 ∉ boundary) {parts : List Part}
    (nonempty : parts ≠ []) (separable : forall part, part ∈ parts -> Separable boundary part) :
    parse boundary (encode boundary parts) = some parts := by
  have opens : dashed boundary ++ lineEnd <+: encode boundary parts := by
    rw [encode, ← List.append_assoc]
    exact List.prefix_append _ _
  have length : (dashed boundary ++ lineEnd).length = boundary.length + 4 := by
    rw [List.length_append]
    rfl
  have behind : (encode boundary parts).drop (boundary.length + 4) = encodeParts boundary parts := by
    rw [← length, encode, ← List.append_assoc, List.drop_left]
  rw [parse, if_pos opens, behind, readParts_encodeParts unbroken nonempty separable]

end Multipart
end Library
