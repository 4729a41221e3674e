import CppTransport.Translator.SumAssignment

/-!
# Lines that are split and put together

`split_string` cuts a line of a template in two where it finds a separator, takes white space off the right part, and
then a semicolon and a comma off its end. Where there is a single assignment on each side, `unroll_index_assignment`
puts a line together from the pieces, with another operator in place of the separator.

## What is proved

`split_rebuilds`: the pieces are those of the line, up to the white space that is taken off on purpose. A line that
ends with `,;` is left out: the comma and the semicolon are written in the other order.
-/

namespace CppTransport.Translator.SumAssignment

open Tokenizer

/-- What a line is split at. -/
def separator : split_type → List Char
  | .sum => BACKEND_LINE_SPLIT_EQUAL
  | .sum_equal => BACKEND_LINE_SPLIT_SUM_EQUAL
  | .none => []

/-- The line that is put together, with `operator` between the parts. -/
def full_line (operator : List Char) (s : split_string) : List Char :=
  s.left ++ operator ++ s.right ++ (if s.semicolon then [';'] else []) ++ if s.comma then [','] else []

/-- Where a text is found, the line can be cut. -/
theorem eq_of_find {line text : List Char} {i : ℕ} (h : find line text = some i) :
    line = line.take i ++ text ++ line.drop (i + text.length) := by
  have prefixed : text <+: line.drop i := List.isPrefixOf_iff_prefix.mp (by simpa using List.find?_some h)
  obtain ⟨rest, hrest⟩ := prefixed
  rw [List.append_assoc, ← List.drop_drop, ← hrest, List.drop_left, hrest, List.take_append_drop]

theorem pop_back_eq (a : Char) (text : List Char) :
    text = (pop_back a text).1 ++ if (pop_back a text).2 then [a] else [] := by
  by_cases last : text.getLast? = some a
  · rw [pop_back, if_pos last]
    exact (List.dropLast_append_getLast? a last).symm
  · rw [pop_back, if_neg last]
    exact (List.append_nil text).symm

/-- The blanks at the end of a text. -/
theorem exists_blanks (text : List Char) : ∃ blanks, text = text.rdropWhile isspace ++ blanks ∧
    ∀ c ∈ blanks, isspace c = true :=
  ⟨text.rtakeWhile isspace, List.rdropWhile_append_rtakeWhile.symm, fun _ => List.mem_rtakeWhile_imp⟩

/-- And those at its beginning. -/
theorem exists_gap (text : List Char) : ∃ gap, text = gap ++ text.dropWhile isspace ∧ ∀ c ∈ gap, isspace c = true :=
  ⟨text.takeWhile isspace, List.takeWhile_append_dropWhile.symm, fun _ => List.mem_takeWhile_imp⟩

/-- The right part after its white space has been taken off. -/
def trimmed (left right : List Char) : List Char :=
  if left.length > 0 then (right.rdropWhile isspace).dropWhile isspace else right.rdropWhile isspace

/-- What is recorded of a line that is cut in two. -/
def cut (left right : List Char) (type : split_type) : split_string :=
  let text := trimmed left right
  { left
    right := (pop_back ',' (pop_back ';' text).1).1
    type
    comma := (pop_back ',' (pop_back ';' text).1).2
    semicolon := (pop_back ';' text).2 }

/-- How a line with a separator is split. -/
theorem exists_split {line : List Char}
    (h : BACKEND_LINE_SPLIT_EQUAL <:+: line ∨ BACKEND_LINE_SPLIT_SUM_EQUAL <:+: line) :
    ∃ left right type, line = left ++ separator type ++ right ∧ type ≠ .none ∧ split line = cut left right type := by
  rcases hequal : find line BACKEND_LINE_SPLIT_EQUAL with _ | i
  · have sum_equal : BACKEND_LINE_SPLIT_SUM_EQUAL <:+: line := by
      refine h.resolve_left fun equal => ?_
      have found := infix_isSome_find equal
      rw [hequal] at found
      cases found
    obtain ⟨i, hi⟩ := Option.isSome_iff_exists.mp (infix_isSome_find sum_equal)
    refine ⟨_, _, .sum_equal, eq_of_find hi, by decide, ?_⟩
    simp only [split, hequal, hi]
    rfl
  · refine ⟨_, _, .sum, eq_of_find hequal, by decide, ?_⟩
    simp only [split, hequal]
    rfl

/-- A separator ends with a character that is not white space. -/
theorem rdropWhile_separator {type : split_type} (h : type ≠ .none) (left right : List Char) :
    (left ++ separator type ++ right).rdropWhile isspace = left ++ separator type ++ right.rdropWhile isspace := by
  induction right using List.reverseRecOn with
  | nil =>
    have ends : ∃ front, left ++ separator type = front ++ ['='] := by
      cases type with
      | none => exact absurd rfl h
      | sum => exact ⟨left ++ ['$'], by simp [separator, BACKEND_LINE_SPLIT_EQUAL]⟩
      | sum_equal => exact ⟨left ++ ['$', '+'], by simp [separator, BACKEND_LINE_SPLIT_SUM_EQUAL]⟩
    obtain ⟨front, hfront⟩ := ends
    rw [List.rdropWhile_nil, List.append_nil, hfront]
    exact List.rdropWhile_concat_neg _ _ _ (by decide)
  | append_singleton right c ih =>
    rw [← List.append_assoc, List.rdropWhile_concat, List.rdropWhile_concat]
    split
    · exact ih
    · rw [List.append_assoc]

/-- What is left of the right part is a part of it. -/
theorem exists_pieces (left right : List Char) : ∃ gap blanks, right = gap ++ trimmed left right ++ blanks ∧
    (∀ c ∈ gap, isspace c = true) ∧ (∀ c ∈ blanks, isspace c = true) ∧ (left = [] → gap = []) := by
  obtain ⟨blanks, hright, white⟩ := exists_blanks right
  rw [trimmed]
  split
  case isTrue nonempty =>
    obtain ⟨gap, htext, white_gap⟩ := exists_gap (right.rdropWhile isspace)
    refine ⟨gap, blanks, ?_, white_gap, white, ?_⟩
    · rw [← htext, ← hright]
    · rintro rfl
      exact absurd nonempty (lt_irrefl _)
  case isFalse => exact ⟨[], blanks, hright, by simp, white, fun _ => rfl⟩

/-- The characters that are taken off the end, in the order in which they stand there. -/
theorem trimmed_eq (left right : List Char) (type : split_type) :
    trimmed left right = (cut left right type).right ++ (if (cut left right type).comma then [','] else []) ++
      if (cut left right type).semicolon then [';'] else [] :=
  calc trimmed left right
    _ = (pop_back ';' (trimmed left right)).1 ++ _ := pop_back_eq ';' _
    _ = _ := congrArg (· ++ _) (pop_back_eq ',' (pop_back ';' (trimmed left right)).1)

/-- Unless both have been taken off, they are written back. -/
theorem full_line_cut (operator left right : List Char) (type : split_type)
    (h : ¬([',', ';'] <:+ trimmed left right)) :
    full_line operator (cut left right type) = left ++ operator ++ trimmed left right := by
  have text := trimmed_eq left right type
  have line : full_line operator (cut left right type) = left ++ operator ++ (cut left right type).right ++
      (if (cut left right type).semicolon then [';'] else []) ++ if (cut left right type).comma then [','] else [] := rfl
  rw [line]
  generalize (cut left right type).comma = comma, (cut left right type).semicolon = semicolon,
    (cut left right type).right = body at text ⊢
  cases comma with
  | false => cases semicolon <;> simp [text]
  | true =>
    cases semicolon with
    | false => simp [text]
    | true => exact absurd ⟨body, by simp [text]⟩ h

/-- What ends the right part ends the line. -/
theorem suffix_of_trimmed {type : split_type} (h : type ≠ .none) {left right text : List Char}
    (hend : text <:+ trimmed left right) : text <:+ (left ++ separator type ++ right).rdropWhile isspace := by
  rw [rdropWhile_separator h]
  refine List.IsSuffix.trans ?_ (List.suffix_append _ _)
  rw [trimmed] at hend
  split at hend
  · exact hend.trans (List.dropWhile_suffix _)
  · exact hend

/-- The pieces of a line are put together to the line, but for white space after the separator and at the end. -/
theorem split_rebuilds (line : List Char)
    (h : BACKEND_LINE_SPLIT_EQUAL <:+: line ∨ BACKEND_LINE_SPLIT_SUM_EQUAL <:+: line)
    (hend : ¬([',', ';'] <:+ line.rdropWhile isspace)) :
    ∃ left gap body blanks, line = left ++ separator (split line).type ++ gap ++ body ++ blanks ∧
      (∀ c ∈ gap, isspace c = true) ∧ (∀ c ∈ blanks, isspace c = true) ∧ (left = [] → gap = []) ∧
      ∀ operator, full_line operator (split line) = left ++ operator ++ body := by
  obtain ⟨left, right, type, hline, htype, hsplit⟩ := exists_split h
  obtain ⟨gap, blanks, hright, white_gap, white_blanks, no_gap⟩ := exists_pieces left right
  have kept : ¬([',', ';'] <:+ trimmed left right) := fun ends =>
    hend (hline ▸ suffix_of_trimmed htype ends)
  refine ⟨left, gap, trimmed left right, blanks, ?_, white_gap, white_blanks, no_gap, fun operator => ?_⟩
  · rw [hsplit]
    calc line
      _ = left ++ separator type ++ right := hline
      _ = left ++ separator type ++ (gap ++ trimmed left right ++ blanks) := by rw [← hright]
      _ = _ := by simp [cut]
  · rw [hsplit]
    exact full_line_cut operator left right type kept

/-- An assignment with blanks on both sides of the right part. -/
theorem assignment_rebuilds : ∃ left gap body blanks,
    "x[$a] $= y[$a]; ".toList = left ++ separator (split "x[$a] $= y[$a]; ".toList).type ++ gap ++ body ++ blanks ∧
      (∀ c ∈ gap, isspace c = true) ∧ (∀ c ∈ blanks, isspace c = true) ∧ (left = [] → gap = []) ∧
      ∀ operator, full_line operator (split "x[$a] $= y[$a]; ".toList) = left ++ operator ++ body :=
  split_rebuilds _ (.inl (by decide)) (by decide)

/-- The white space itself is not written again. -/
theorem white_space_lost : ¬∀ line : List Char,
    BACKEND_LINE_SPLIT_EQUAL <:+: line ∨ BACKEND_LINE_SPLIT_SUM_EQUAL <:+: line →
      full_line (separator (split line).type) (split line) = line := fun h =>
  absurd (h "x $=  y;".toList (.inl (by decide))) (by decide)

end CppTransport.Translator.SumAssignment
