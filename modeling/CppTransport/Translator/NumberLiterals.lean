import CppTransport.Translator.Lexer
import Mathlib.Data.List.Basic
import Mathlib.Data.List.Induction
import Mathlib.Tactic.Linarith

/-!
# Number literals

A number is scanned character by character and then converted. The scanner does not know the
grammar of numbers: it takes a character if one like it may still come.

## What is proved

`lexed_iff`: a literal in front of a character that cannot continue it is read as what it stands for
if and only if it has no hexadecimal digit `C`, an integer is below 2³¹, and the character is not one
that the scanner takes: a point if there has been none, an `x` if there has been neither a point nor
an `x`, or the letter of an exponent if the literal is not hexadecimal.
-/

namespace CppTransport.Translator.Lexer

/-! ### Literals -/

/-- What a literal stands for. -/
inductive Number where
  | integer (n : ℕ)
  | decimal (d : ℚ)

def Digits (digits : List Char) : Prop := ∀ c ∈ digits, isdigit c = true

/-- The exponent of a decimal literal. -/
structure Exponent where
  letter : Char
  sign : List Char
  digits : List Char
  is_letter : letter = 'e' ∨ letter = 'E'
  is_sign : sign = [] ∨ sign = ['+'] ∨ sign = ['-']
  nonempty : digits ≠ []
  is_digits : Digits digits

def Exponent.text (e : Exponent) : List Char := e.letter :: (e.sign ++ e.digits)

def Exponent.value (e : Exponent) : ℤ :=
  if e.sign = ['-'] then -(number_of 10 e.digits : ℤ) else number_of 10 e.digits

/-- The text of a part that may be missing. -/
def fraction_text : Option (List Char) → List Char
  | none => []
  | some fraction => '.' :: fraction

def exponent_text : Option Exponent → List Char
  | none => []
  | some e => e.text

/-- The literals and what they stand for. -/
inductive IsLiteral : List Char → Number → Prop where
  | decimal {digits : List Char} (hne : digits ≠ []) (hdigits : Digits digits)
      (hzero : digits.head? = some '0' → digits = ['0']) : IsLiteral digits (.integer (number_of 10 digits))
  | octal {digits : List Char} (hne : digits ≠ []) (hdigits : ∀ c ∈ digits, is_octal c = true) :
      IsLiteral ('0' :: digits) (.integer (number_of 8 digits))
  | hexadecimal {digits : List Char} (hne : digits ≠ []) (hdigits : ∀ c ∈ digits, isxdigit c = true) :
      IsLiteral ('0' :: 'x' :: digits) (.integer (number_of 16 digits))
  | real {whole : List Char} {fraction : Option (List Char)} {exponent : Option Exponent} (hne : whole ≠ [])
      (hwhole : Digits whole) (hfraction : Digits (fraction.getD [])) (hpart : fraction.isSome ∨ exponent.isSome) :
      IsLiteral (whole ++ fraction_text fraction ++ exponent_text exponent)
        (.decimal (mantissa whole (fraction.getD []) * 10 ^ (exponent.elim 0 Exponent.value)))

/-- The character may stand behind the literal in a longer one. -/
def Continues (text : List Char) (d : Char) : Prop := ∃ more v, IsLiteral (text ++ d :: more) v

/-- An integer is to fit in 32 bits. -/
def Number.Fits : Number → Prop
  | .integer n => n < 2 ^ 32
  | .decimal _ => True

/-! ### What is to be read -/

variable {K S : Type}

/-- The lexeme of a literal. -/
def Number.meaning : Number → value K S
  | .integer n => .integer n
  | .decimal d => .decimal d

/-- The literal is read as one number, which stands for what it should, and what is behind it is left. -/
def LexedAs (t : Tables K S) (text after : List Char) (v : Number) (p : position) (context : minus_context)
    (unique : ℕ) : Prop :=
  ∃ word input, get_lexeme ⟨text ++ after, p⟩ = (word, input, []) ∧ word.buffer = text ∧
    word.type = some .number ∧ input.rest = after ∧
    (lexeme.construct t word .number context unique).1.value = v.meaning ∧
    (lexeme.construct t word .number context unique).2.2 = []

/-- The scanner stops at what follows the literal. -/
def Separated (text after : List Char) : Prop :=
  ∀ d, after.head? = some d →
    (d = '.' → '.' ∈ text) ∧ (d = 'x' → '.' ∈ text ∨ 'x' ∈ text) ∧ (d = 'e' ∨ d = 'E' → 'x' ∈ text)

/-- The literal is one that is scanned and kept. -/
def Number.Kept (text : List Char) : Number → Prop
  | .integer n => 'C' ∉ text ∧ n < 2 ^ 31
  | .decimal _ => True

/-! ### Scanning -/

/-- Are all characters taken? -/
def TakesAll : number_state → List Char → Prop
  | _, [] => True
  | s, c :: rest => s.takes c = true ∧ TakesAll (s.next c) rest

theorem takesAll_append (s : number_state) (text more : List Char) :
    TakesAll s (text ++ more) ↔ TakesAll s text ∧ TakesAll (text.foldl number_state.next s) more := by
  induction text generalizing s with
  | nil => simp [TakesAll]
  | cons c text ih => simp [TakesAll, ih, and_assoc]

/-- A text is scanned exactly if its characters are taken and the one behind it is not. -/
theorem scan_number_eq_iff (s : number_state) (text after : List Char) :
    scan_number s (text ++ after) = (text, after) ↔
      TakesAll s text ∧ ∀ d, after.head? = some d → (text.foldl number_state.next s).takes d = false := by
  induction text generalizing s with
  | nil =>
    cases after with
    | nil => simp [scan_number, TakesAll]
    | cons d after =>
      rw [List.nil_append, scan_number]
      cases h : s.takes d <;> simp [h, TakesAll]
  | cons c text ih =>
    rw [List.cons_append, scan_number, TakesAll, List.foldl_cons]
    cases h : s.takes c with
    | false => simp
    | true =>
      simp only [if_true, Prod.mk.injEq, List.cons.injEq, true_and]
      rw [← ih, Prod.ext_iff]

/-- A point or an `x` is remembered. -/
theorem foldl_next (s : number_state) (text : List Char) :
    (text.foldl number_state.next s).dot = (s.dot || text.contains '.') ∧
      (text.foldl number_state.next s).hex = (s.hex || text.contains 'x') := by
  induction text generalizing s with
  | nil => simp
  | cons c text ih =>
    obtain ⟨hdot, hhex⟩ := ih (s.next c)
    rw [List.foldl_cons, hdot, hhex]
    simp only [number_state.next, List.contains_cons, Bool.or_assoc]
    constructor <;> congr 2 <;> simp [eq_comm, beq_eq_decide]

theorem takes_digit (s : number_state) {c : Char} (h : isdigit c = true) : s.takes c = true := by
  simp [number_state.takes, h]

theorem takesAll_digits (s : number_state) {digits : List Char} (h : Digits digits) : TakesAll s digits := by
  induction digits generalizing s with
  | nil => trivial
  | cons c digits ih =>
    exact ⟨takes_digit s (h c List.mem_cons_self), ih _ fun d hd => h d (List.mem_cons_of_mem _ hd)⟩

theorem next_eng_of_digit (s : number_state) {c : Char} (h : isdigit c = true) : (s.next c).eng = false := by
  have he : c ≠ 'e' := by rintro rfl; exact absurd h (by decide)
  have hE : c ≠ 'E' := by rintro rfl; exact absurd h (by decide)
  simp [number_state.next, he, hE]

/-- Behind a digit no sign is expected. -/
theorem foldl_next_eng (s : number_state) {digits : List Char} (hne : digits ≠ []) (h : Digits digits) :
    (digits.foldl number_state.next s).eng = false := by
  induction digits using List.reverseRecOn with
  | nil => exact absurd rfl hne
  | append_singleton digits c _ =>
    rw [List.foldl_append, List.foldl_cons, List.foldl_nil]
    exact next_eng_of_digit _ (h c (by simp))

theorem eq_of_toNat_eq {c d : Char} (h : c.toNat = d.toNat) : c = d := by
  rw [← Char.ofNat_toNat c, h, Char.ofNat_toNat]

theorem toNat_le_of_le {c d : Char} (h : c ≤ d) : c.toNat ≤ d.toNat := h

theorem isxdigit_cases {c : Char} (h : isxdigit c = true) :
    isdigit c = true ∨ c ∈ ['a', 'b', 'c', 'd', 'e', 'f'] ∨ c ∈ ['A', 'B', 'C', 'D', 'E', 'F'] := by
  simp only [isxdigit, Bool.or_eq_true, decide_eq_true_eq] at h
  obtain (h | ⟨hlo, hhi⟩) | ⟨hlo, hhi⟩ := h
  · exact .inl h
  · have hlo' : 97 ≤ c.toNat := toNat_le_of_le hlo
    have hhi' : c.toNat ≤ 102 := toNat_le_of_le hhi
    refine .inr (.inl ?_)
    obtain h | h | h | h | h | h : c.toNat = 'a'.toNat ∨ c.toNat = 'b'.toNat ∨ c.toNat = 'c'.toNat ∨
        c.toNat = 'd'.toNat ∨ c.toNat = 'e'.toNat ∨ c.toNat = 'f'.toNat := by
      simp only [Char.reduceToNat]
      omega
    all_goals simp [eq_of_toNat_eq h]
  · have hlo' : 65 ≤ c.toNat := toNat_le_of_le hlo
    have hhi' : c.toNat ≤ 70 := toNat_le_of_le hhi
    refine .inr (.inr ?_)
    obtain h | h | h | h | h | h : c.toNat = 'A'.toNat ∨ c.toNat = 'B'.toNat ∨ c.toNat = 'C'.toNat ∨
        c.toNat = 'D'.toNat ∨ c.toNat = 'E'.toNat ∨ c.toNat = 'F'.toNat := by
      simp only [Char.reduceToNat]
      omega
    all_goals simp [eq_of_toNat_eq h]

/-- In a hexadecimal number the scanner takes every digit but one. -/
theorem takes_hex_iff {s : number_state} (hs : s.hex = true) {c : Char} (hc : isxdigit c = true) :
    s.takes c = true ↔ c ≠ 'C' := by
  obtain hdigit | hlower | hupper := isxdigit_cases hc
  · have hne : c ≠ 'C' := by rintro rfl; exact absurd hdigit (by decide)
    simp [takes_digit s hdigit, hne]
  · simp only [List.mem_cons, List.not_mem_nil, or_false] at hlower
    rcases hlower with rfl | rfl | rfl | rfl | rfl | rfl <;> simp [number_state.takes, hs]
  · simp only [List.mem_cons, List.not_mem_nil, or_false] at hupper
    rcases hupper with rfl | rfl | rfl | rfl | rfl | rfl <;> simp [number_state.takes, hs, isdigit, Char.isDigit]

theorem takesAll_hex_iff {s : number_state} (hs : s.hex = true) {digits : List Char}
    (h : ∀ c ∈ digits, isxdigit c = true) : TakesAll s digits ↔ 'C' ∉ digits := by
  induction digits generalizing s with
  | nil => simp [TakesAll]
  | cons c digits ih =>
    have hnext : (s.next c).hex = true := by simp [number_state.next, hs]
    rw [TakesAll, takes_hex_iff hs (h c List.mem_cons_self), ih hnext fun d hd => h d (List.mem_cons_of_mem _ hd),
      List.mem_cons, not_or]
    exact and_congr_left' ne_comm

theorem foldl_next_eng_hex {s : number_state} (hs : s.hex = true) (heng : s.eng = false) (text : List Char) :
    (text.foldl number_state.next s).eng = false := by
  induction text generalizing s with
  | nil => exact heng
  | cons c text ih => exact ih (by simp [number_state.next, hs]) (by simp [number_state.next, hs])

theorem not_mem_of_digits {digits : List Char} (h : Digits digits) {c : Char} (hc : isdigit c = false) : c ∉ digits :=
  fun hmem => by rw [h c hmem] at hc; cases hc

theorem isdigit_of_octal {c : Char} (h : is_octal c = true) : isdigit c = true := by
  simp only [is_octal, decide_eq_true_eq] at h
  simp only [isdigit, Char.isDigit, Bool.and_eq_true, decide_eq_true_eq]
  exact ⟨h.1, UInt32.le_trans h.2 (by decide)⟩

theorem digits_of_octal {digits : List Char} (h : ∀ c ∈ digits, is_octal c = true) : Digits digits :=
  fun c hc => isdigit_of_octal (h c hc)

/-- The part behind the point or the letter of an exponent. -/
theorem exponent_scan (e : Exponent) {s : number_state} (hs : s.hex = false) :
    TakesAll s e.text ∧ (e.text.foldl number_state.next s).eng = false := by
  obtain ⟨letter, sign, digits, hletter, hsign, hne, hdigits⟩ := e
  have htakes : s.takes letter = true := by obtain rfl | rfl := hletter <;> simp [number_state.takes, hs]
  have heng : (s.next letter).eng = true := by obtain rfl | rfl := hletter <;> simp [number_state.next, hs]
  have htail : TakesAll (s.next letter) (sign ++ digits) := by
    rw [takesAll_append]
    refine ⟨?_, takesAll_digits _ hdigits⟩
    obtain rfl | rfl | rfl := hsign
    · trivial
    · exact ⟨by simp [number_state.takes, heng], trivial⟩
    · exact ⟨by simp [number_state.takes, heng], trivial⟩
  refine ⟨⟨htakes, htail⟩, ?_⟩
  rw [Exponent.text, List.foldl_cons, List.foldl_append]
  exact foldl_next_eng _ hne hdigits

theorem fraction_scan {fraction : Option (List Char)} (h : Digits (fraction.getD [])) {s : number_state}
    (hdot : s.dot = false) (heng : s.eng = false) :
    TakesAll s (fraction_text fraction) ∧ ((fraction_text fraction).foldl number_state.next s).eng = false := by
  cases fraction with
  | none => exact ⟨trivial, heng⟩
  | some digits =>
    refine ⟨⟨by simp [number_state.takes, hdot], takesAll_digits _ h⟩, ?_⟩
    rw [fraction_text, List.foldl_cons]
    by_cases hne : digits = []
    · rw [hne, List.foldl_nil]
      simp [number_state.next]
    · exact foldl_next_eng _ hne h

theorem head_of_digits {digits : List Char} (hne : digits ≠ []) (h : Digits digits) :
    ∃ c tail, digits = c :: tail ∧ isdigit c = true ∧ Digits tail := by
  obtain ⟨c, tail, rfl⟩ := List.exists_cons_of_ne_nil hne
  exact ⟨c, tail, rfl, h c List.mem_cons_self, fun d hd => h d (List.mem_cons_of_mem _ hd)⟩

theorem foldl_next_digits {digits : List Char} (h : Digits digits) :
    digits.foldl number_state.next {} = {} := by
  obtain ⟨hdot, hhex⟩ := foldl_next {} digits
  have heng : (digits.foldl number_state.next {}).eng = false := by
    by_cases hne : digits = []
    · rw [hne]
      rfl
    · exact foldl_next_eng _ hne h
  have hpoint : digits.contains '.' = false := by simpa using not_mem_of_digits h (by decide)
  have hx : digits.contains 'x' = false := by simpa using not_mem_of_digits h (by decide)
  rw [hpoint] at hdot
  rw [hx] at hhex
  cases hs : digits.foldl number_state.next {}
  simp_all

theorem mem_fraction_text {fraction : Option (List Char)} (h : Digits (fraction.getD [])) {c : Char}
    (hc : c ∈ fraction_text fraction) : c = '.' ∨ isdigit c = true := by
  cases fraction with
  | none => cases hc
  | some digits => exact (List.mem_cons.mp hc).imp id (h c)

theorem mem_exponent_text {exponent : Option Exponent} {c : Char} (hc : c ∈ exponent_text exponent) :
    (c = 'e' ∨ c = 'E' ∨ c = '+' ∨ c = '-') ∨ isdigit c = true := by
  cases exponent with
  | none => cases hc
  | some e =>
    obtain ⟨letter, sign, digits, hletter, hsign, _, hdigits⟩ := e
    simp only [exponent_text, Exponent.text, List.mem_cons, List.mem_append] at hc
    obtain rfl | hc | hc := hc
    · exact .inl (hletter.imp id .inl)
    · obtain rfl | rfl | rfl := hsign
      · cases hc
      · exact .inl (.inr (.inr (.inl (by simpa using hc))))
      · exact .inl (.inr (.inr (.inr (by simpa using hc))))
    · exact .inr (hdigits c hc)

/-- The characters of a decimal number. -/
theorem not_mem_real {whole : List Char} {fraction : Option (List Char)} {exponent : Option Exponent}
    (hwhole : Digits whole) (hfraction : Digits (fraction.getD [])) {c : Char} (hc : isdigit c = false)
    (hmarks : c ∉ ['.', 'e', 'E', '+', '-']) : c ∉ whole ++ fraction_text fraction ++ exponent_text exponent := by
  simp only [List.mem_cons, List.not_mem_nil, or_false, not_or] at hmarks
  simp only [List.mem_append, not_or]
  refine ⟨⟨not_mem_of_digits hwhole hc, fun hmem => ?_⟩, fun hmem => ?_⟩
  · obtain rfl | hdigit := mem_fraction_text hfraction hmem
    · exact hmarks.1 rfl
    · rw [hc] at hdigit
      cases hdigit
  · obtain hmark | hdigit := mem_exponent_text hmem
    · tauto
    · rw [hc] at hdigit
      cases hdigit

/-- A literal begins with a digit; behind it the scanner takes every character but `C`, and then expects no sign. -/
theorem scan_literal {text : List Char} {v : Number} (h : IsLiteral text v) :
    ∃ c tail, text = c :: tail ∧ isdigit c = true ∧ (TakesAll {} tail ↔ 'C' ∉ text) ∧
      (tail.foldl number_state.next {}).eng = false := by
  cases h with
  | decimal hne hdigits _ =>
    obtain ⟨c, tail, rfl, hc, htail⟩ := head_of_digits hne hdigits
    refine ⟨c, tail, rfl, hc, iff_of_true (takesAll_digits _ htail) (not_mem_of_digits hdigits (by decide)), ?_⟩
    rw [foldl_next_digits htail]
  | @octal digits _ hoctal =>
    have hdigits := digits_of_octal hoctal
    have hall : Digits ('0' :: digits) := List.forall_mem_cons.mpr ⟨by decide, hdigits⟩
    refine ⟨'0', digits, rfl, by decide, iff_of_true (takesAll_digits _ hdigits) (not_mem_of_digits hall (by decide)),
      ?_⟩
    rw [foldl_next_digits hdigits]
  | @hexadecimal digits _ hdigits =>
    refine ⟨'0', 'x' :: digits, rfl, by decide, ?_, ?_⟩
    · rw [TakesAll, takesAll_hex_iff (by rfl) hdigits]
      simp [number_state.takes]
    · rw [List.foldl_cons]
      exact foldl_next_eng_hex (by rfl) (by rfl) _
  | @real whole fraction exponent hne hwhole hfraction _ =>
    obtain ⟨c, tail, rfl, hc, htail⟩ := head_of_digits hne hwhole
    have hstate := foldl_next_digits htail
    obtain ⟨hscan, heng⟩ := fraction_scan hfraction (show number_state.dot {} = false from rfl) rfl
    have hhex : ((fraction_text fraction).foldl number_state.next {}).hex = false := by
      have hx : 'x' ∉ fraction_text fraction := fun hmem => by
        obtain h | h := mem_fraction_text hfraction hmem <;> exact absurd h (by decide)
      rw [(foldl_next {} _).2]
      simpa using hx
    refine ⟨c, tail ++ fraction_text fraction ++ exponent_text exponent, by simp, hc, ?_, ?_⟩
    · refine iff_of_true ?_ ?_
      · rw [takesAll_append, takesAll_append, List.foldl_append, hstate]
        refine ⟨⟨takesAll_digits _ htail, hscan⟩, ?_⟩
        cases exponent with
        | none => trivial
        | some e => exact (exponent_scan e hhex).1
      · exact not_mem_real hwhole hfraction (by decide) (by decide)
    · rw [List.foldl_append, List.foldl_append, hstate]
      cases exponent with
      | none => exact heng
      | some e => exact (exponent_scan e hhex).2

/-! ### What follows -/

theorem takes_eq_false_iff {s : number_state} (heng : s.eng = false) {d : Char} (hdigit : isdigit d = false)
    (hhex : s.hex = true → isxdigit d = false) :
    s.takes d = false ↔
      (d = '.' → s.dot = true) ∧ (d = 'x' → s.dot = true ∨ s.hex = true) ∧ (d = 'e' ∨ d = 'E' → s.hex = true) := by
  cases hs : s.hex with
  | true =>
    have hletter (c : Char) (hc : isxdigit c = true) : d ≠ c := by
      rintro rfl
      rw [hhex hs] at hc
      cases hc
    simp only [number_state.takes, hdigit, heng, hs, hletter 'a' (by decide), hletter 'b' (by decide),
      hletter 'c' (by decide), hletter 'd' (by decide), hletter 'e' (by decide), hletter 'f' (by decide),
      hletter 'A' (by decide), hletter 'B' (by decide), hletter 'D' (by decide), hletter 'E' (by decide),
      hletter 'F' (by decide)]
    cases s.dot <;> simp
  | false =>
    simp only [number_state.takes, hdigit, heng, hs]
    cases s.dot <;> simp [not_or, and_assoc]

/-- A digit may always go on with a literal. -/
theorem continues_digit {text : List Char} {v : Number} (h : IsLiteral text v) {d : Char} (hd : isdigit d = true) :
    Continues text d := by
  have happend {digits : List Char} (hdigits : Digits digits) : Digits (digits ++ [d]) :=
    List.forall_mem_append.mpr ⟨hdigits, by simpa using hd⟩
  have hpoint {digits : List Char} (hdigits : Digits digits) : Continues digits d := by
    have hlonger : IsLiteral ((digits ++ [d]) ++ fraction_text (some []) ++ exponent_text none) _ :=
      .real (by simp) (happend hdigits) (by simp [Digits]) (.inl rfl)
    exact ⟨['.'], _, by simpa [fraction_text, exponent_text] using hlonger⟩
  cases h with
  | decimal _ hdigits _ => exact hpoint hdigits
  | octal _ hoctal => exact hpoint (List.forall_mem_cons.mpr ⟨by decide, digits_of_octal hoctal⟩)
  | @hexadecimal digits _ hdigits =>
    have hall : ∀ c ∈ digits ++ [d], isxdigit c = true :=
      List.forall_mem_append.mpr ⟨hdigits, by simp [isxdigit, hd]⟩
    exact ⟨[], _, .hexadecimal (by simp) hall⟩
  | @real whole fraction exponent hne hwhole hfraction hpart =>
    cases exponent with
    | some e =>
      let longer : Exponent :=
        ⟨e.letter, e.sign, e.digits ++ [d], e.is_letter, e.is_sign, by simp, happend e.is_digits⟩
      have hlonger : IsLiteral (whole ++ fraction_text fraction ++ exponent_text (some longer)) _ :=
        .real hne hwhole hfraction (.inr rfl)
      exact ⟨[], _, by simpa [exponent_text, Exponent.text, longer] using hlonger⟩
    | none =>
      cases fraction with
      | none => simp at hpart
      | some digits =>
        have hlonger : IsLiteral (whole ++ fraction_text (some (digits ++ [d])) ++ exponent_text none) _ :=
          .real hne hwhole (happend hfraction) (.inl rfl)
        exact ⟨[], _, by simpa [exponent_text, fraction_text] using hlonger⟩

theorem continues_hexadecimal {text : List Char} {v : Number} (h : IsLiteral text v) (hx : 'x' ∈ text) {d : Char}
    (hd : isxdigit d = true) : Continues text d := by
  cases h with
  | decimal _ hdigits _ => exact absurd hx (not_mem_of_digits hdigits (by decide))
  | octal _ hoctal =>
    exact absurd hx (not_mem_of_digits (List.forall_mem_cons.mpr ⟨by decide, digits_of_octal hoctal⟩) (by decide))
  | @hexadecimal digits _ hdigits =>
    have hall : ∀ c ∈ digits ++ [d], isxdigit c = true := List.forall_mem_append.mpr ⟨hdigits, by simpa using hd⟩
    exact ⟨[], _, .hexadecimal (by simp) hall⟩
  | real _ hwhole hfraction _ => exact absurd hx (not_mem_real hwhole hfraction (by decide) (by decide))

/-! ### Conversion -/

theorem read_digits_eq {base : ℕ} {is_digit : Char → Bool} {digits : List Char} (hne : digits ≠ [])
    (h : ∀ c ∈ digits, is_digit c = true) : read_digits base is_digit digits = some (number_of base digits) := by
  rw [read_digits, if_pos ⟨hne, List.all_eq_true.mpr h⟩]

theorem read_digits_eq_none {base : ℕ} {is_digit : Char → Bool} {text : List Char} {c : Char} (hc : c ∈ text)
    (h : is_digit c = false) : read_digits base is_digit text = none := by
  rw [read_digits, if_neg]
  rintro ⟨-, hall⟩
  rw [List.all_eq_true.mp hall c hc] at h
  cases h

theorem scan_exponent_eq (e : Exponent) : scan_exponent (e.sign ++ e.digits) = some e.value := by
  obtain ⟨letter, sign, digits, hletter, hsign, hne, hdigits⟩ := e
  have hread : read_digits 10 isdigit digits = some (number_of 10 digits) := read_digits_eq hne hdigits
  obtain rfl | rfl | rfl := hsign
  · obtain ⟨c, tail, rfl, hc, -⟩ := head_of_digits hne hdigits
    have hminus : c ≠ '-' := by rintro rfl; exact absurd hc (by decide)
    have hplus : c ≠ '+' := by rintro rfl; exact absurd hc (by decide)
    simp only [List.nil_append, scan_exponent]
    split
    · simp_all
    · simp_all
    · rw [hread]
      rfl
  · simp [scan_exponent, hread, Exponent.value]
  · simp [scan_exponent, hread, Exponent.value]

theorem scale_exponent (m : ℚ) (exponent : Option Exponent) :
    scale m (exponent_text exponent) = some (m * 10 ^ (exponent.elim 0 Exponent.value)) := by
  cases exponent with
  | none => simp [exponent_text, scale]
  | some e =>
    have hletter : (e.letter = 'e' || e.letter = 'E') = true := by simpa using e.is_letter
    rw [exponent_text, Exponent.text, scale, if_pos hletter, scan_exponent_eq]
    rfl

/-- Digits in front of something else. -/
theorem takeWhile_digits {digits : List Char} (rest : List Char) (h : Digits digits)
    (hrest : ∀ c, rest.head? = some c → isdigit c = false) :
    (digits ++ rest).takeWhile isdigit = digits ∧ (digits ++ rest).dropWhile isdigit = rest := by
  rw [List.takeWhile_append_of_pos h, List.dropWhile_append_of_pos h]
  cases rest with
  | nil => simp
  | cons c rest => simp [hrest c rfl]

theorem head_exponent_text (exponent : Option Exponent) :
    ∀ c, (exponent_text exponent).head? = some c → isdigit c = false ∧ c ≠ '.' := by
  intro c hc
  cases exponent with
  | none => cases hc
  | some e =>
    obtain rfl : e.letter = c := Option.some.inj hc
    obtain h | h := e.is_letter <;> rw [h] <;> decide

theorem scan_lf_real {whole : List Char} {fraction : Option (List Char)} (exponent : Option Exponent)
    (hne : whole ≠ []) (hwhole : Digits whole) (hfraction : Digits (fraction.getD [])) :
    scan_lf (whole ++ fraction_text fraction ++ exponent_text exponent) =
      some (mantissa whole (fraction.getD []) * 10 ^ (exponent.elim 0 Exponent.value)) := by
  have hexponent := head_exponent_text exponent
  rw [List.append_assoc, scan_lf]
  cases fraction with
  | none =>
    rw [fraction_text, List.nil_append]
    obtain ⟨htake, hdrop⟩ := takeWhile_digits _ hwhole fun c hc => (hexponent c hc).1
    rw [htake, hdrop]
    split
    · rename_i rest heq
      exact absurd rfl (hexponent '.' (by rw [heq]; rfl)).2
    · rw [if_neg hne, scale_exponent]
      rfl
  | some digits =>
    obtain ⟨htake, hdrop⟩ := takeWhile_digits (fraction_text (some digits) ++ exponent_text exponent) hwhole
      (by simp [fraction_text]; decide)
    have hbehind (c : Char) (hc : (exponent_text exponent).head? = some c) := (hexponent c hc).1
    obtain ⟨htake', hdrop'⟩ := takeWhile_digits (exponent_text exponent) (show Digits digits from hfraction) hbehind
    rw [htake, hdrop]
    simp only [fraction_text, List.cons_append, htake', hdrop', hne, false_and, if_false, scale_exponent]
    rfl

/-- What a number is converted to. -/
def Number.converted : Number → value K S
  | .integer n => .integer (to_int n)
  | .decimal d => .decimal d

theorem convert_decimal {digits : List Char} (hne : digits ≠ []) (hdigits : Digits digits)
    (hzero : digits.head? = some '0' → digits = ['0']) :
    (convert_number digits : value K S) = .integer (to_int (number_of 10 digits)) := by
  obtain ⟨c, tail, rfl, hc, htail⟩ := head_of_digits hne hdigits
  by_cases hc0 : c = '0'
  · have hsingle := hzero (by rw [hc0]; rfl)
    obtain rfl : tail = [] := by simpa using (List.cons.inj hsingle).2
    subst hc0
    rfl
  · have hx : ['0', 'x'].isPrefixOf (c :: tail) = false := by simp [List.isPrefixOf, Ne.symm hc0]
    have h0 : ['0'].isPrefixOf (c :: tail) = false := by simp [List.isPrefixOf, Ne.symm hc0]
    have hread : read_digits 10 isdigit (c :: tail) = some (number_of 10 (c :: tail)) := read_digits_eq hne hdigits
    have hscan : scan_i (c :: tail) = some (number_of 10 (c :: tail)) := by
      rw [scan_i, hread]
      · rintro _ ⟨⟩
        exact hc0 rfl
      · rintro _ ⟨⟩
        exact hc0 rfl
    rw [convert_number, if_neg (by simp [hx]), if_neg (by simp [h0]), hscan]

theorem convert_octal {digits : List Char} (hne : digits ≠ []) (hoctal : ∀ c ∈ digits, is_octal c = true) :
    (convert_number ('0' :: digits) : value K S) = .integer (to_int (number_of 8 digits)) := by
  have hdigits := digits_of_octal hoctal
  obtain ⟨c, tail, rfl, hc, htail⟩ := head_of_digits hne hdigits
  have hcx : c ≠ 'x' := by rintro rfl; exact absurd hc (by decide)
  have hx : ['0', 'x'].isPrefixOf ('0' :: c :: tail) = false := by simp [List.isPrefixOf, Ne.symm hcx]
  have hall : Digits ('0' :: c :: tail) := List.forall_mem_cons.mpr ⟨by decide, hdigits⟩
  have hmarks : ('0' :: c :: tail).any (fun c => c = '.' || c = 'e' || c = 'E') = false := by
    rw [List.any_eq_false]
    intro m hm
    have hdigit := hall m hm
    rw [Bool.not_eq_true, Bool.or_eq_false_iff, Bool.or_eq_false_iff]
    refine ⟨⟨?_, ?_⟩, ?_⟩ <;>
    · rw [decide_eq_false_iff_not]
      rintro rfl
      exact absurd hdigit (by decide)
  have hread : scan_o ('0' :: c :: tail) = some (number_of 8 ('0' :: c :: tail)) :=
    read_digits_eq (by simp) (List.forall_mem_cons.mpr ⟨by decide, hoctal⟩)
  rw [convert_number, if_neg (by simp [hx]), if_pos ⟨by simp, by simp [List.isPrefixOf], by simp [hmarks]⟩, hread]
  rfl

theorem convert_hexadecimal {digits : List Char} (hne : digits ≠ []) (hdigits : ∀ c ∈ digits, isxdigit c = true) :
    (convert_number ('0' :: 'x' :: digits) : value K S) = .integer (to_int (number_of 16 digits)) := by
  rw [convert_number, if_pos (by simp [List.isPrefixOf]), scan_x, read_digits_eq hne hdigits]
  rfl

/-- A literal with a fraction or an exponent has a character that is no digit. -/
theorem exists_mark {whole : List Char} {fraction : Option (List Char)} {exponent : Option Exponent}
    (hpart : fraction.isSome ∨ exponent.isSome) : ∃ m ∈ whole ++ fraction_text fraction ++ exponent_text exponent,
      (m = '.' || m = 'e' || m = 'E') = true ∧ isdigit m = false := by
  cases fraction with
  | some digits => exact ⟨'.', by simp [fraction_text], by decide, by decide⟩
  | none =>
    cases exponent with
    | none => simp at hpart
    | some e =>
      refine ⟨e.letter, by simp [exponent_text, Exponent.text], ?_, ?_⟩
      · obtain h | h := e.is_letter <;> simp [h]
      · obtain h | h := e.is_letter <;> rw [h] <;> decide

theorem convert_real {whole : List Char} {fraction : Option (List Char)} {exponent : Option Exponent} (hne : whole ≠ [])
    (hwhole : Digits whole) (hfraction : Digits (fraction.getD [])) (hpart : fraction.isSome ∨ exponent.isSome) :
    (convert_number (whole ++ fraction_text fraction ++ exponent_text exponent) : value K S) =
      .decimal (mantissa whole (fraction.getD []) * 10 ^ (exponent.elim 0 Exponent.value)) := by
  have hlf := scan_lf_real exponent hne hwhole hfraction
  obtain ⟨m, hm, hmark, hdigit⟩ := exists_mark hpart
  have hx : 'x' ∉ whole ++ fraction_text fraction ++ exponent_text exponent :=
    not_mem_real hwhole hfraction (by decide) (by decide)
  generalize whole ++ fraction_text fraction ++ exponent_text exponent = text at *
  have hstart : ['0', 'x'].isPrefixOf text = false := by
    rw [← Bool.not_eq_true, List.isPrefixOf_iff_prefix]
    rintro ⟨more, rfl⟩
    exact hx (by simp)
  have hmarks : text.any (fun c => c = '.' || c = 'e' || c = 'E') = true := List.any_eq_true.mpr ⟨m, hm, hmark⟩
  have hi : scan_i text = none := by
    have hoctal : is_octal m = false := by
      rw [← Bool.not_eq_true]
      intro h
      rw [isdigit_of_octal h] at hdigit
      cases hdigit
    unfold scan_i
    split
    · exact absurd (by simp) hx
    · exact read_digits_eq_none hm hoctal
    · exact read_digits_eq_none hm hdigit
  rw [convert_number, if_neg (by simp [hstart]), if_neg (by simp [hmarks]), hi, hlf]

/-- What a literal is converted to. -/
theorem convert_literal {text : List Char} {v : Number} (h : IsLiteral text v) :
    (convert_number text : value K S) = v.converted := by
  cases h with
  | decimal hne hdigits hzero => exact convert_decimal hne hdigits hzero
  | octal hne hdigits => exact convert_octal hne hdigits
  | hexadecimal hne hdigits => exact convert_hexadecimal hne hdigits
  | real hne hwhole hfraction hpart => exact convert_real hne hwhole hfraction hpart

/-- An integer that fits in 32 bits is kept if it fits in 31. -/
theorem to_int_eq_iff {n : ℕ} (h : n < 2 ^ 32) : to_int n = n ↔ n < 2 ^ 31 := by
  rw [to_int, Nat.mod_eq_of_lt h]
  split
  · rename_i hlt
    exact iff_of_true rfl hlt
  · rename_i hge
    refine iff_of_false (fun heq => ?_) hge
    linarith

/-! ### The theorem -/

theorem ne_of_isdigit {c m : Char} (hc : isdigit c = true) (hm : isdigit m = false) : c ≠ m := by
  rintro rfl
  rw [hc] at hm
  cases hm

theorem not_isalpha_of_isdigit {c : Char} (hc : isdigit c = true) : isalpha c = false := by
  simp only [isdigit, Char.isDigit, Bool.and_eq_true, decide_eq_true_eq] at hc
  have hletter : isalpha c = (decide ('A'.val ≤ c.val ∧ c.val ≤ 'Z'.val) || ('a'.val ≤ c.val && c.val ≤ 'z'.val)) := rfl
  simp only [hletter, Bool.or_eq_false_iff, Bool.and_eq_false_iff, decide_eq_false_iff_not, UInt32.not_le]
  exact ⟨fun h => absurd (UInt32.le_trans h.1 hc.2) (by decide), .inl (UInt32.lt_of_le_of_lt hc.2 (by decide))⟩

theorem find_word_digit {c : Char} (hc : isdigit c = true) (tail : List Char) :
    find_word c tail = ⟨c :: (scan_number {} tail).1, .number, (scan_number {} tail).2, none⟩ := by
  simp [find_word, not_isalpha_of_isdigit hc, ne_of_isdigit hc (m := '_') (by decide),
    ne_of_isdigit hc (m := '$') (by decide), hc]

/-- A word that begins with a digit. -/
theorem get_lexeme_number {c : Char} (hc : isdigit c = true) (tail : List Char) (p : position) :
    ∃ word input, get_lexeme ⟨c :: tail, p⟩ = (word, input, []) ∧ word.buffer = c :: (scan_number {} tail).1 ∧
      word.type = some .number ∧ input.rest = (scan_number {} tail).2 := by
  have hne (m : Char) (hm : isdigit m = false) : c ≠ m := ne_of_isdigit hc hm
  have hskip : skip_blank false (c :: tail) = c :: tail := by
    simp [skip_blank, hne '%' (by decide), hne ' ' (by decide), hne '\t' (by decide), hne '\n' (by decide)]
  have hfound := find_word_digit hc tail
  obtain ⟨word, input, reports, hget, hbuffer, htype, hrest, hreports⟩ := get_lexeme_eq (f := ⟨c :: tail, p⟩) hskip
  rw [hfound] at hbuffer htype hrest hreports
  obtain rfl : reports = [] := by simpa using hreports
  exact ⟨word, input, hget, hbuffer, htype, hrest⟩

theorem IsLiteral.not_mem_decimal {text : List Char} {d : ℚ} (h : IsLiteral text (.decimal d)) : 'C' ∉ text := by
  cases h with
  | real _ hwhole hfraction _ => exact not_mem_real hwhole hfraction (by decide) (by decide)

/-- The lexeme of a literal that has been scanned. -/
theorem construct_number (t : Tables K S) {text : List Char} {v : Number} (h : IsLiteral text v) (hfits : v.Fits)
    {word : lexeme_buffer} (hword : word.buffer = text) (context : minus_context) (unique : ℕ) :
    ((lexeme.construct t word .number context unique).1.value = v.meaning ∧
      (lexeme.construct t word .number context unique).2.2 = []) ↔ ∀ n, v = .integer n → n < 2 ^ 31 := by
  have hvalue : (lexeme.construct t word .number context unique).1.value = v.converted := by
    rw [← convert_literal h, ← hword]
    rfl
  have hreports : (lexeme.construct t word .number context unique).2.2 = [] := by
    rw [lexeme.construct]
    simp only [classify, hword, convert_literal h]
    cases v <;> rfl
  rw [hvalue]
  cases v with
  | integer n =>
    simp only [hreports, and_true, Number.converted, Number.meaning, value.integer.injEq, Number.integer.injEq,
      forall_eq']
    exact to_int_eq_iff hfits
  | decimal d => simp [hreports, Number.converted, Number.meaning]

/-- **A literal** in front of a character that cannot continue it is read as what it stands for if and only if it is
kept and the scanner stops behind it. -/
theorem lexed_iff (t : Tables K S) {text after : List Char} {v : Number} (h : IsLiteral text v) (hfits : v.Fits)
    (hafter : ∀ d, after.head? = some d → ¬ Continues text d) (p : position) (context : minus_context) (unique : ℕ) :
    LexedAs t text after v p context unique ↔ v.Kept text ∧ Separated text after := by
  obtain ⟨c, tail, rfl, hc, htakes, heng⟩ := scan_literal h
  obtain ⟨word, input, hget, hbuffer, htype, hrest⟩ := get_lexeme_number hc (tail ++ after) p
  -- where the scanner stops
  have hscan : scan_number {} (tail ++ after) = (tail, after) ↔ 'C' ∉ c :: tail ∧ Separated (c :: tail) after := by
    rw [scan_number_eq_iff, htakes]
    refine and_congr_right fun _ => forall_congr' fun d => imp_congr_right fun hd => ?_
    obtain ⟨hdot, hhex⟩ := foldl_next {} tail
    have hpoint : c ≠ '.' := by rintro rfl; exact absurd hc (by decide)
    have hx : c ≠ 'x' := by rintro rfl; exact absurd hc (by decide)
    have hmem (m : Char) (hm : c ≠ m) : m ∈ c :: tail ↔ tail.contains m = true := by simp [Ne.symm hm]
    have hnot := hafter d hd
    rw [takes_eq_false_iff heng, hdot, hhex, hmem '.' hpoint, hmem 'x' hx]
    · rfl
    · rw [← Bool.not_eq_true]
      exact fun hdigit => hnot (continues_digit h hdigit)
    · intro hhexadecimal
      rw [← Bool.not_eq_true]
      refine fun hdigit => hnot (continues_hexadecimal h ?_ hdigit)
      rw [hmem 'x' hx]
      simpa [hhex] using hhexadecimal
  have hlexed : LexedAs t (c :: tail) after v p context unique ↔
      scan_number {} (tail ++ after) = (tail, after) ∧ ∀ n, v = .integer n → n < 2 ^ 31 := by
    constructor
    · rintro ⟨word', input', hget', hbuffer', -, hrest', hlexeme⟩
      rw [List.cons_append, hget] at hget'
      cases hget'
      rw [hbuffer, List.cons.injEq] at hbuffer'
      refine ⟨Prod.ext hbuffer'.2 (hrest ▸ hrest'), ?_⟩
      exact (construct_number t h hfits (by rw [hbuffer, hbuffer'.2]) context unique).mp hlexeme
    · rintro ⟨hexact, hkept⟩
      rw [hexact] at hbuffer hrest
      exact ⟨word, input, hget, hbuffer, htype, hrest, (construct_number t h hfits hbuffer context unique).mpr hkept⟩
  rw [hlexed, hscan]
  cases v with
  | integer n =>
    simp only [Number.Kept, Number.integer.injEq, forall_eq']
    tauto
  | decimal d =>
    have hC := h.not_mem_decimal
    simp [Number.Kept, hC]

theorem hexadecimal_lexed :
    LexedAs (⟨[], []⟩ : Tables Unit Unit) ['0', 'x', '1', 'f'] [] (.integer 31) {} .unary 1 := by
  have hliteral : IsLiteral ['0', 'x', '1', 'f'] (.integer 31) :=
    .hexadecimal (by simp) (List.forall_iff_forall_mem.mp (by decide))
  have hfits : (Number.integer 31).Fits := by simp [Number.Fits]
  have hkept : (Number.integer 31).Kept ['0', 'x', '1', 'f'] := by simp [Number.Kept]
  exact (lexed_iff ⟨[], []⟩ hliteral hfits (by simp) {} .unary 1).mpr ⟨hkept, by simp [Separated]⟩

/-- The hexadecimal digit `C` is not read. -/
theorem hexadecimal_not_lexed :
    IsLiteral ['0', 'x', 'C'] (.integer 12) ∧
      ¬ LexedAs (⟨[], []⟩ : Tables Unit Unit) ['0', 'x', 'C'] [] (.integer 12) {} .unary 1 := by
  refine ⟨.hexadecimal (by simp) (List.forall_iff_forall_mem.mp (by decide)), ?_⟩
  rintro ⟨word, input, hget, hbuffer, -⟩
  have hword : (get_lexeme ⟨['0', 'x', 'C'] ++ [], {}⟩).1.buffer = ['0', 'x'] := by decide
  rw [hget, hbuffer] at hword
  exact absurd hword (by decide)

end CppTransport.Translator.Lexer
