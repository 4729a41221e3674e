import CppTransport.Translator.TokenList

/-!
# Printing and reading lists of arguments

A macro of a template is given its arguments in braces, separated by commas, with white space around
them; an argument with commas, braces or white space in it is written in quotes. `print` writes such
a list, and `get_argument_list` reads it.

## What is proved

`reads_back_iff`: the list comes back as it was printed, and reading stops behind the closing brace,
if and only if no argument begins with a quotation mark or has one in its quotes, an empty argument
without quotes is the last one and has white space around it, and an empty list has no white space
between the braces. Otherwise arguments are lost, cut off, or made up (`blank_list_not_read_back`).
-/

namespace CppTransport.Translator.Tokenizer

open Library

/-! ### Printing -/

/-- An argument as it is printed. -/
structure Printed where
  text : List Char
  quoted : Bool
  /-- The white space before it. -/
  before : List Char
  /-- The white space behind it. -/
  after : List Char
  space_before : ∀ a ∈ before, isspace a = true
  space_after : ∀ a ∈ after, isspace a = true
  /-- Only quotes may have delimiters between them. -/
  plain : quoted = false → ∀ a ∈ text, a ≠ ',' ∧ a ≠ '\x7b' ∧ a ≠ '\x7d' ∧ isspace a = false

def Printed.body (p : Printed) : List Char := if p.quoted then '"' :: p.text ++ ['"'] else p.text

def Printed.print (p : Printed) : List Char := p.before ++ p.body ++ p.after

/-- What is printed behind the opening brace. -/
def print_tail : List Printed → List Char
  | [] => ['\x7d']
  | [p] => p.print ++ ['\x7d']
  | p :: q :: rest => p.print ++ ',' :: print_tail (q :: rest)

/-- A list of arguments; `blank` is the white space between empty braces. -/
def print (blank : List Char) : List Printed → List Char
  | [] => '\x7b' :: blank ++ ['\x7d']
  | p :: rest => '\x7b' :: print_tail (p :: rest)

/-- The argument is not taken for another one. -/
def Printed.Kept (p : Printed) (last : Bool) : Prop :=
  if p.quoted then '"' ∉ p.text
  else p.text.head? ≠ some '"' ∧ (p.text = [] → last = true ∧ p.before ++ p.after ≠ [])

/-- None of the arguments is. -/
def AllKept : List Printed → Prop
  | [] => True
  | p :: rest => p.Kept rest.isEmpty ∧ AllKept rest

namespace Config

variable {c : Config} (name : List Char) {s : State}

/-! ### What is read at a position -/

theorem drop_of_append {i : ℕ} {mid rest : List Char} (h : c.input.drop i = mid ++ rest) :
    c.input.drop (i + mid.length) = rest := by
  rw [← List.drop_drop, h, List.drop_left]

theorem drop_succ_of_drop {i : ℕ} {a : Char} {rest : List Char} (h : c.input.drop i = a :: rest) :
    c.input.drop (i + 1) = rest := by
  rw [← List.tail_drop, h, List.tail_cons]

theorem getElem?_of_drop {i : ℕ} {a : Char} {rest : List Char} (h : c.input.drop i = a :: rest) :
    c.input[i]? = some a := by
  have hhead := List.head?_drop (l := c.input) (i := i)
  rw [← hhead, h, List.head?_cons]

theorem at_char_of_drop {i : ℕ} {a : Char} {rest : List Char} (h : c.input.drop i = a :: rest) (b : Char) :
    c.at_char i b = (a == b) := by
  rw [at_char, getElem?_of_drop h]
  simp only [Option.some.injEq]
  rfl

theorem read_of_drop {i : ℕ} {a : Char} {rest : List Char} (h : c.input.drop i = a :: rest) (s : State) :
    c.read i s = .ok a s := by
  obtain ⟨hlt, hget⟩ := List.getElem?_eq_some_iff.mp (getElem?_of_drop h)
  rw [read, dif_pos hlt, hget]
  rfl

theorem skip_of_drop {p : Char → Bool} {i : ℕ} {mid rest : List Char} {a : Char} (h : c.input.drop i = mid ++ a :: rest)
    (hmid : ∀ b ∈ mid, p b = true) (ha : p a = false) : c.skip p i = i + mid.length := by
  rw [skip, h, List.takeWhile_append_of_pos hmid, List.takeWhile_cons_of_neg (by simp [ha]), List.append_nil]

theorem slice_of_drop {i : ℕ} {mid rest : List Char} (h : c.input.drop i = mid ++ rest) :
    c.slice i (i + mid.length) = mid := by
  rw [slice, h, Nat.add_sub_cancel_left, List.take_left]

/-! ### One argument -/

/-- Where an argument without quotes ends. -/
def is_stop (a : Char) : Bool := a = ',' || a = '\x7d' || isspace a

theorem argument_text_plain {start : ℕ} {text rest : List Char} {a : Char}
    (h : c.input.drop start = text ++ a :: rest) (htext : ∀ b ∈ text, is_stop b = false) (ha : is_stop a = true)
    (hfirst : ∀ b, (text ++ [a]).head? = some b → b ≠ ',' ∧ b ≠ '"') (s : State) :
    c.argument_text name start s = .ok ([⟨text, (start, start + text.length)⟩], start + text.length) s := by
  have hstop : c.skip (fun b => b ≠ ',' && b ≠ '\x7d' && !isspace b) start = start + text.length := by
    refine skip_of_drop h (fun b hb => ?_) ?_
    · simpa [is_stop, and_assoc] using htext b hb
    · simpa [is_stop, or_assoc, imp_iff_not_or] using ha
  obtain ⟨b, w, hw⟩ : ∃ b w, text ++ a :: rest = b :: w := List.exists_cons_of_ne_nil (by simp)
  have hb : (text ++ [a]).head? = some b := by
    cases text <;> simp_all
  obtain ⟨hcomma, hquote⟩ := hfirst b hb
  rw [argument_text]
  simp only [bind, EStateM.bind, read_of_drop (h.trans hw)]
  rw [if_neg hcomma, if_neg hquote, hstop, slice_of_drop h]
  rfl

/-- Text in quotes ends at the first quotation mark. -/
theorem argument_text_quoted {start : ℕ} {text rest : List Char} (h : c.input.drop start = '"' :: text ++ '"' :: rest)
    (htext : '"' ∉ text) (s : State) :
    c.argument_text name start s =
      .ok ([⟨text, (start, start + text.length + 2)⟩], start + text.length + 2) s := by
  have hopen : c.input.drop (start + 1) = text ++ '"' :: rest := drop_succ_of_drop h
  have hclose : c.skip (· ≠ '"') (start + 1) = start + 1 + text.length := by
    refine skip_of_drop hopen (fun b hb => ?_) (by simp)
    rw [decide_eq_true_eq]
    rintro rfl
    exact htext hb
  have hat : c.at_char (start + 1 + text.length) '"' = true := by
    rw [at_char_of_drop (drop_of_append hopen)]
    rfl
  rw [argument_text]
  simp only [bind, EStateM.bind, read_of_drop h]
  rw [if_neg (by decide), if_pos trivial, hclose, if_pos hat, slice_of_drop hopen,
    show start + 1 + text.length + 1 = start + text.length + 2 by omega]
  rfl

/-- There is no argument before a comma. -/
theorem argument_text_comma {start : ℕ} {rest : List Char} (h : c.input.drop start = ',' :: rest) (s : State) :
    ∃ s', c.argument_text name start s = .ok ([], start) s' := by
  rw [argument_text]
  simp only [bind, EStateM.bind, read_of_drop h]
  exact ⟨_, rfl⟩

theorem separator_comma {current : ℕ} {rest : List Char} (h : c.input.drop current = ',' :: rest) (s : State) :
    c.separator name current s = .ok (current + 1) s := by
  rw [separator]
  simp only [bind, EStateM.bind, read_of_drop h]
  rfl

theorem separator_close {current : ℕ} {rest : List Char} (h : c.input.drop current = '\x7d' :: rest) (s : State) :
    c.separator name current s = .ok current s := by
  rw [separator]
  simp only [bind, EStateM.bind, read_of_drop h]
  rfl

/-- The position behind what follows an argument. -/
def next (d : Char) (current : ℕ) : ℕ := if d = ',' then current + 1 else current

theorem separator_eq {current : ℕ} {rest : List Char} {d : Char} (h : c.input.drop current = d :: rest)
    (hd : d = ',' ∨ d = '\x7d') (s : State) : c.separator name current s = .ok (next d current) s := by
  obtain rfl | rfl := hd
  · exact separator_comma name h s
  · exact separator_close name h s

theorem not_isspace_of_delimiter {d : Char} (hd : d = ',' ∨ d = '\x7d') : isspace d = false := by
  obtain rfl | rfl := hd <;> decide

/-- What follows an argument without quotes. -/
theorem is_stop_head (p : Printed) (rest : List Char) {d : Char} (hd : d = ',' ∨ d = '\x7d') :
    ∃ a w, p.after ++ d :: rest = a :: w ∧ is_stop a = true := by
  cases hafter : p.after with
  | nil =>
    refine ⟨d, rest, rfl, ?_⟩
    obtain rfl | rfl := hd <;> decide
  | cons a w =>
    refine ⟨a, w ++ d :: rest, rfl, ?_⟩
    simp [is_stop, p.space_after a (by simp [hafter])]

/-- The text of an argument, from where it begins. -/
theorem argument_text_kept {start : ℕ} {p : Printed} {last : Bool} {rest : List Char} {d : Char} (hp : p.Kept last)
    (hbody : p.body ≠ []) (hd : d = ',' ∨ d = '\x7d') (h : c.input.drop start = p.body ++ (p.after ++ d :: rest))
    (s : State) :
    ∃ span, c.argument_text name start s = .ok ([⟨p.text, span⟩], start + p.body.length) s := by
  rw [Printed.Kept] at hp
  rw [Printed.body] at hbody h ⊢
  cases hquoted : p.quoted with
  | true =>
    simp only [hquoted, if_true] at hp h ⊢
    refine ⟨(start, start + p.text.length + 2), ?_⟩
    rw [argument_text_quoted name (by simpa using h) hp]
    simp [Nat.add_assoc]
  | false =>
    simp only [hquoted, Bool.false_eq_true, if_false] at hp h hbody ⊢
    obtain ⟨a, w, haw, ha⟩ := is_stop_head p rest hd
    have hplain := p.plain hquoted
    refine ⟨_, argument_text_plain name (by rw [h, haw]) (fun b hb => ?_) ha (fun b hb => ?_) s⟩
    · obtain ⟨hcomma, -, hclose, hspace⟩ := hplain b hb
      simp [is_stop, hcomma, hclose, hspace]
    · rw [List.head?_append_of_ne_nil _ hbody] at hb
      refine ⟨(hplain b (List.mem_of_mem_head? hb)).1, ?_⟩
      rintro rfl
      exact hp.1 hb

theorem skip_isspace {position : ℕ} {space rest : List Char} {a : Char} (h : c.input.drop position = space ++ a :: rest)
    (hspace : ∀ b ∈ space, isspace b = true) (ha : isspace a = false) :
    c.skip isspace position = position + space.length := skip_of_drop h hspace ha

theorem body_eq_nil {p : Printed} : p.body = [] ↔ p.quoted = false ∧ p.text = [] := by
  rw [Printed.body]
  cases p.quoted <;> simp

/-- The first character of an argument is not white space. -/
theorem body_eq_cons {p : Printed} (hbody : p.body ≠ []) : ∃ a w, p.body = a :: w ∧ isspace a = false := by
  obtain ⟨a, w, haw⟩ := List.exists_cons_of_ne_nil hbody
  refine ⟨a, w, haw, ?_⟩
  rw [Printed.body] at haw
  cases hquoted : p.quoted with
  | true =>
    simp only [hquoted, if_true, List.cons_append, List.cons.injEq] at haw
    rw [← haw.1]
    decide
  | false =>
    simp only [hquoted, Bool.false_eq_true, if_false] at haw
    exact (p.plain hquoted a (by simp [haw])).2.2.2

/-- One round of the loop, when what it reads in place of the argument is known. -/
theorem argument_eq {position : ℕ} {p : Printed} {rest : List Char} {d : Char} {args : List macro_argument}
    {s s' : State}
    (hbody : p.body ≠ []) (hd : d = ',' ∨ d = '\x7d') (h : c.input.drop position = p.print ++ d :: rest)
    (htext : c.argument_text name (position + p.before.length) s =
      .ok (args, position + p.before.length + p.body.length) s') :
    c.argument name position s = .ok (args, next d (position + p.print.length)) s' := by
  simp only [Printed.print, List.append_assoc] at h
  obtain ⟨a, w, haw, ha⟩ := body_eq_cons hbody
  have hstart : c.skip isspace position = position + p.before.length := by
    rw [haw] at h
    exact skip_isspace h p.space_before ha
  have hafter : c.input.drop (position + p.before.length + p.body.length) = p.after ++ d :: rest :=
    drop_of_append (drop_of_append h)
  have hskip := skip_isspace hafter p.space_after (not_isspace_of_delimiter hd)
  rw [argument]
  simp only [bind, EStateM.bind, hstart, htext, hskip, separator_eq name (drop_of_append hafter) hd]
  simp [Printed.print, Nat.add_assoc]
  rfl

/-- White space before the closing brace is an empty argument. -/
theorem argument_blank {position : ℕ} {space rest : List Char} (h : c.input.drop position = space ++ '\x7d' :: rest)
    (hspace : ∀ b ∈ space, isspace b = true) (s : State) :
    ∃ span, c.argument name position s = .ok ([⟨[], span⟩], position + space.length) s := by
  have hclose : c.input.drop (position + space.length) = [] ++ '\x7d' :: rest := drop_of_append h
  have hskip := skip_isspace hclose (by simp) (by decide)
  have htext : c.argument_text name (position + space.length) s = _ :=
    argument_text_plain name hclose (by simp) (by decide) (by simp) s
  simp only [List.length_nil, Nat.add_zero] at hskip htext
  refine ⟨(position + space.length, position + space.length), ?_⟩
  rw [argument]
  simp only [bind, EStateM.bind, skip_isspace h hspace (by decide), htext, hskip, separator_close name hclose]
  rfl

/-- An argument that is kept. -/
theorem argument_kept {position : ℕ} {p : Printed} {rest : List Char} {d : Char}
    (hp : p.Kept (d == '\x7d')) (hd : d = ',' ∨ d = '\x7d') (h : c.input.drop position = p.print ++ d :: rest)
    (s : State) :
    ∃ span, c.argument name position s = .ok ([⟨p.text, span⟩], next d (position + p.print.length)) s := by
  by_cases hbody : p.body = []
  · -- the argument is the last one, and is only white space
    obtain ⟨hquoted, htext⟩ := body_eq_nil.mp hbody
    simp only [Printed.Kept, hquoted, Bool.false_eq_true, if_false] at hp
    obtain rfl : d = '\x7d' := by simpa using (hp.2 htext).1
    have hprint : p.print = p.before ++ p.after := by simp [Printed.print, hbody]
    rw [hprint] at h ⊢
    rw [htext]
    refine argument_blank name h (fun b hb => ?_) s
    exact (List.mem_append.mp hb).elim (p.space_before b) (p.space_after b)
  · have hstart : c.input.drop (position + p.before.length) = p.body ++ (p.after ++ d :: rest) := by
      refine drop_of_append ?_
      simpa [Printed.print] using h
    obtain ⟨span, htext⟩ := argument_text_kept name hp hbody hd hstart s
    exact ⟨span, argument_eq name hbody hd h htext⟩

/-! ### The loop -/

theorem arguments_close {position : ℕ} {rest : List Char} (h : c.input.drop position = '\x7d' :: rest) (fuel : ℕ)
    (s : State) : c.arguments name (fuel + 1) position s = .ok ([], position) s := by
  rw [arguments, if_neg (by simp [at_char_of_drop h])]
  rfl

/-- A round of the loop, and the rounds after it. -/
theorem arguments_round {position : ℕ} {a : Char} {rest : List Char} (h : c.input.drop position = a :: rest)
    (ha : a ≠ '\x7d') (fuel : ℕ) {r : List macro_argument × ℕ} {s s' : State}
    (hround : c.argument name position s = .ok r s') :
    c.arguments name (fuel + 1) position s =
      (do let (more, last) ← c.arguments name fuel r.2; return (r.1 ++ more, last) : M _) s' := by
  have hlt := lt_of_getElem? (getElem?_of_drop h)
  rw [arguments, if_pos ⟨hlt, by simp [at_char_of_drop h, ha]⟩]
  simp only [bind, EStateM.bind, hround]

/-- An argument that is printed does not begin with the closing brace. -/
theorem print_eq_cons {p : Printed} (h : p.print ≠ []) : ∃ a w, p.print = a :: w ∧ a ≠ '\x7d' := by
  obtain ⟨a, w, haw⟩ := List.exists_cons_of_ne_nil h
  refine ⟨a, w, haw, ?_⟩
  rintro rfl
  rw [Printed.print, List.append_assoc] at haw
  cases hbefore : p.before with
  | cons b w' =>
    rw [hbefore, List.cons_append, List.cons.injEq] at haw
    exact absurd (p.space_before b (by simp [hbefore])) (by rw [haw.1]; decide)
  | nil =>
    rw [hbefore, List.nil_append] at haw
    by_cases hbody : p.body = []
    · rw [hbody, List.nil_append] at haw
      exact absurd (p.space_after '\x7d' (by simp [haw])) (by decide)
    · rw [Printed.body] at hbody haw
      cases hquoted : p.quoted with
      | true => simp [hquoted] at haw
      | false =>
        simp only [hquoted, Bool.false_eq_true, if_false] at haw hbody
        rw [List.append_eq_cons_iff] at haw
        obtain ⟨hnil, -⟩ | ⟨w', htext, -⟩ := haw
        · exact hbody hnil
        · exact (p.plain hquoted '\x7d' (by simp [htext])).2.2.1 rfl

theorem print_ne_nil {p : Printed} {last : Bool} (hp : p.Kept last) : p.print ≠ [] := by
  by_cases hbody : p.body = []
  · obtain ⟨hquoted, htext⟩ := body_eq_nil.mp hbody
    simp only [Printed.Kept, hquoted, Bool.false_eq_true, if_false] at hp
    simpa [Printed.print, hbody] using (hp.2 htext).2
  · simp [Printed.print, hbody]

/-- A round of the loop for an argument that is kept, and the rounds after it. -/
theorem arguments_kept_round {position : ℕ} {p : Printed} {rest : List Char} {d : Char} (hp : p.Kept (d == '\x7d'))
    (hd : d = ',' ∨ d = '\x7d') (h : c.input.drop position = p.print ++ d :: rest) (fuel : ℕ) (s : State) :
    ∃ span, c.arguments name (fuel + 1) position s =
      (do
        let (more, last) ← c.arguments name fuel (next d (position + p.print.length))
        return (⟨p.text, span⟩ :: more, last) : M _) s := by
  obtain ⟨span, hround⟩ := argument_kept name hp hd h s
  obtain ⟨a, w, haw, ha⟩ := print_eq_cons (print_ne_nil hp)
  exact ⟨span, arguments_round name (by rw [h, haw]; rfl) ha fuel hround⟩

/-- **Arguments that are kept** come back, and reading goes on at the closing brace. -/
theorem arguments_kept {items : List Printed} (hne : items ≠ []) (hkept : AllKept items) {position fuel : ℕ}
    {post : List Char} (h : c.input.drop position = print_tail items ++ post) (hfuel : items.length < fuel)
    (s : State) :
    ∃ args last, c.arguments name fuel position s = .ok (args, last) s ∧ args.map (·.arg) = items.map (·.text) ∧
      last + 1 = position + (print_tail items).length := by
  induction items generalizing position fuel with
  | nil => exact absurd rfl hne
  | cons p items ih =>
    obtain ⟨hp, hitems⟩ := hkept
    obtain ⟨fuel, rfl⟩ : ∃ n, fuel = n + 1 := ⟨fuel - 1, by omega⟩
    cases items with
    | nil =>
      rw [print_tail, List.append_assoc, List.singleton_append] at h
      obtain ⟨span, hround⟩ := arguments_kept_round name (d := '\x7d') hp (.inr rfl) h fuel s
      obtain ⟨fuel, rfl⟩ : ∃ n, fuel = n + 1 := ⟨fuel - 1, by simp at hfuel; omega⟩
      have hclose := arguments_close name (drop_of_append h) fuel s
      refine ⟨[⟨p.text, span⟩], position + p.print.length, ?_, rfl, by simp [print_tail, Nat.add_assoc]⟩
      rw [hround]
      simp only [next, bind, EStateM.bind, show ('\x7d' = ',') = False by decide, if_false, hclose]
      rfl
    | cons q items =>
      rw [print_tail, List.append_assoc, List.cons_append] at h
      obtain ⟨span, hround⟩ := arguments_kept_round name (d := ',') hp (.inl rfl) h fuel s
      have hnext : c.input.drop (position + p.print.length + 1) = print_tail (q :: items) ++ post := by
        exact drop_succ_of_drop (drop_of_append h)
      obtain ⟨args, last, hargs, htexts, hlast⟩ := ih (by simp) hitems hnext (by simpa using hfuel)
      refine ⟨⟨p.text, span⟩ :: args, last, ?_, by simp [htexts], ?_⟩
      · rw [hround]
        simp only [next, if_true, bind, EStateM.bind, hargs]
        rfl
      · simp only [hlast, print_tail, List.length_append, List.length_cons]
        omega

/-! ### Arguments that do not come back -/

section Lost

variable {name}

theorem slice_skip (p : Char → Bool) (i : ℕ) : c.slice i (c.skip p i) = (c.input.drop i).takeWhile p := by
  rw [slice, skip, Nat.add_sub_cancel_left]
  exact List.prefix_iff_eq_take.mp (List.takeWhile_prefix p) |>.symm

/-- An argument never begins with a quotation mark. -/
theorem argument_text_head {start : ℕ} {r : List macro_argument × ℕ} {s s' : State}
    (h : c.argument_text name start s = .ok r s') : ∀ x ∈ r.1, x.arg.head? ≠ some '"' := by
  have hquoted (text : List Char) : (text.takeWhile (· ≠ '"')).head? ≠ some '"' := by
    intro hhead
    simpa using List.mem_takeWhile_imp (List.mem_of_mem_head? hhead)
  simp only [argument_text, bind, EStateM.bind] at h
  cases hread : c.read start s with
  | error e s₁ =>
    rw [hread] at h
    cases h
  | ok a s₁ =>
    rw [hread] at h
    simp only at h
    split at h
    · cases h
      simp
    · split at h
      · rw [slice_skip] at h
        split at h
        · cases h
          simpa using hquoted _
        · cases h
          simpa using hquoted _
      · rename_i hquote
        cases h
        simp only [List.mem_singleton, forall_eq, slice_skip]
        intro hhead
        obtain ⟨w, hw⟩ := List.head?_eq_some_iff.mp hhead
        obtain ⟨w', hw'⟩ :=
          List.takeWhile_prefix (l := c.input.drop start) (fun b => b ≠ ',' && b ≠ '\x7d' && !isspace b)
        rw [hw, List.cons_append] at hw'
        rw [read_of_drop hw'.symm] at hread
        cases hread
        exact hquote rfl

/-- A round of a loop that returns. -/
theorem round_of_arguments {position fuel : ℕ} {a : Char} {rest : List Char} (h : c.input.drop position = a :: rest)
    (ha : a ≠ '\x7d') {r : List macro_argument × ℕ} {s' : State} (hrun : c.arguments name fuel position s = .ok r s') :
    ∃ n r₁ s₁ r₂, fuel = n + 1 ∧ c.argument name position s = .ok r₁ s₁ ∧
      c.arguments name n r₁.2 s₁ = .ok r₂ s' ∧ r.1 = r₁.1 ++ r₂.1 := by
  cases fuel with
  | zero => cases hrun
  | succ n =>
    have hlt := lt_of_getElem? (getElem?_of_drop h)
    rw [arguments, if_pos ⟨hlt, by simp [at_char_of_drop h, ha]⟩] at hrun
    obtain ⟨r₁, s₁, hround, hrun⟩ := bind_returns_iff.mp hrun
    obtain ⟨r₂, s₂, hrest, hrun⟩ := bind_returns_iff.mp hrun
    cases hrun
    exact ⟨n, r₁, s₁, r₂, rfl, hround, hrest, rfl⟩

/-- What a round of the loop reads in place of the argument. -/
theorem text_of_argument {position : ℕ} {r : List macro_argument × ℕ} {s' : State}
    (h : c.argument name position s = .ok r s') :
    ∃ r₁ s₁, c.argument_text name (c.skip isspace position) s = .ok r₁ s₁ ∧ r.1 = r₁.1 := by
  rw [argument] at h
  obtain ⟨r₁, s₁, htext, h⟩ := bind_returns_iff.mp h
  obtain ⟨current, s₂, -, h⟩ := bind_returns_iff.mp h
  cases h
  exact ⟨r₁, s₁, htext, rfl⟩

theorem arguments_head {position fuel : ℕ} {r : List macro_argument × ℕ} {s s' : State}
    (h : c.arguments name fuel position s = .ok r s') : ∀ x ∈ r.1, x.arg.head? ≠ some '"' := by
  induction fuel generalizing position r s with
  | zero => cases h
  | succ fuel ih =>
    rw [arguments] at h
    split at h
    · obtain ⟨r₁, s₁, hround, h⟩ := bind_returns_iff.mp h
      obtain ⟨r₂, s₂, hrest, h⟩ := bind_returns_iff.mp h
      cases h
      obtain ⟨r₀, s₀, htext, heq⟩ := text_of_argument hround
      intro x hx
      rcases List.mem_append.mp hx with hx | hx
      · exact argument_text_head htext x (heq ▸ hx)
      · exact ih hrest x hx
    · cases h
      simp

/-- Quotation marks inside the quotes: the argument ends at the first of them. -/
theorem argument_cut {position : ℕ} {p : Printed} {rest : List Char} (hquoted : p.quoted = true) (hmem : '"' ∈ p.text)
    (h : c.input.drop position = p.print ++ rest) {r : List macro_argument × ℕ} {s' : State}
    (hround : c.argument name position s = .ok r s') :
    ∃ cut span, cut ≠ p.text ∧ (cut = [] → p.text.head? = some '"') ∧ r.1 = [⟨cut, span⟩] := by
  obtain ⟨r₁, s₁, htext, heq⟩ := text_of_argument hround
  obtain ⟨u, v, huv, hu⟩ := List.eq_append_cons_of_mem hmem
  have hstart : c.input.drop (c.skip isspace position) = '"' :: u ++ '"' :: (v ++ '"' :: p.after ++ rest) := by
    have hprint : c.input.drop position = p.before ++ '"' :: (u ++ '"' :: (v ++ '"' :: p.after ++ rest)) := by
      simpa [Printed.print, Printed.body, hquoted, huv] using h
    rw [skip_isspace hprint p.space_before (by decide), drop_of_append hprint]
    rfl
  rw [argument_text_quoted name hstart hu] at htext
  cases htext
  refine ⟨u, _, ?_, ?_, heq⟩
  · rw [huv]
    simp
  · rintro rfl
    rw [huv]
    rfl

/-- Nothing is read in place of an argument that is empty, without quotes, and not the last one. -/
theorem argument_lost {position : ℕ} {p : Printed} {rest : List Char} (hbody : p.body = [])
    (h : c.input.drop position = p.print ++ ',' :: rest) (s : State) :
    ∃ s', c.argument name position s = .ok ([], position + p.print.length + 1) s' := by
  have hspace : ∀ b ∈ p.print, isspace b = true := by
    intro b hb
    simp only [Printed.print, hbody, List.append_nil, List.mem_append] at hb
    exact hb.elim (p.space_before b) (p.space_after b)
  have hcomma : c.input.drop (position + p.print.length) = [] ++ ',' :: rest := drop_of_append h
  obtain ⟨s', htext⟩ := argument_text_comma name hcomma s
  have hstay := skip_isspace hcomma (by simp) (by decide)
  rw [List.length_nil, Nat.add_zero] at hstay
  refine ⟨s', ?_⟩
  rw [argument]
  simp only [bind, EStateM.bind, skip_isspace h hspace (by decide), htext, hstay, separator_comma name hcomma]
  rfl

/-- Of a quoted argument with a quote in it only a part is read. -/
theorem not_read_of_quote {position fuel missing : ℕ} {p : Printed} {rest : List Char} {texts : List (List Char)}
    (hquoted : p.quoted = true) (hmem : '"' ∈ p.text) (hfirst : p.text.head? ≠ some '"')
    (h : c.input.drop position = p.print ++ rest) {r : List macro_argument × ℕ} {s s' : State}
    (hrun : c.arguments name fuel position s = .ok r s') :
    r.1.map (·.arg) ≠ List.replicate missing [] ++ p.text :: texts := by
  intro htexts
  have hne : p.print ≠ [] := by simp [Printed.print, Printed.body, hquoted]
  obtain ⟨a, w, haw, ha⟩ := print_eq_cons hne
  obtain ⟨n, r₁, s₁, r₂, rfl, hround, -, hr⟩ := round_of_arguments (by rw [h, haw]; rfl) ha hrun
  obtain ⟨cut, span, hcut, hnil, hr₁⟩ := argument_cut hquoted hmem h hround
  rw [hr, hr₁] at htexts
  cases missing with
  | zero =>
    simp only [List.replicate_zero, List.cons_append, List.map_cons, List.nil_append, List.cons.injEq] at htexts
    exact hcut htexts.1
  | succ k =>
    simp only [List.replicate_succ, List.cons_append, List.map_cons, List.cons.injEq] at htexts
    exact hfirst (hnil htexts.1)

/-- Empty texts in front of a text may as well stand behind it, if they are followed by others. -/
theorem eq_replicate_append {texts : List (List Char)} {text : List Char} {missing : ℕ} {l : List (List Char)}
    (h : text :: l = List.replicate missing [] ++ text :: texts) : l = List.replicate missing [] ++ texts := by
  cases missing with
  | zero => simpa using h
  | succ k =>
    simp only [List.replicate_succ, List.cons_append, List.cons.injEq] at h
    rw [h.2, h.1, List.replicate_succ', List.append_assoc, List.singleton_append]

/-- An argument that is lost leaves an empty one too many to be found in the rest. -/
theorem kept_of_arguments {items : List Printed} (hne : items ≠ []) (hhead : ∀ p ∈ items, p.text.head? ≠ some '"')
    {position fuel missing : ℕ} {post : List Char} (h : c.input.drop position = print_tail items ++ post)
    {r : List macro_argument × ℕ} {s s' : State} (hrun : c.arguments name fuel position s = .ok r s')
    (htexts : r.1.map (·.arg) = List.replicate missing [] ++ items.map (·.text)) : missing = 0 ∧ AllKept items := by
  induction items generalizing position fuel missing r s with
  | nil => exact absurd rfl hne
  | cons p items ih =>
    -- what follows the argument
    obtain ⟨d, rest, hd, hlast, hdrop, hrest⟩ : ∃ d rest, (d = ',' ∨ d = '\x7d') ∧ (d == '\x7d') = items.isEmpty ∧
        c.input.drop position = p.print ++ d :: rest ∧ (items ≠ [] → d = ',' ∧ rest = print_tail items ++ post) := by
      cases items with
      | nil => exact ⟨'\x7d', post, .inr rfl, rfl, by simpa [print_tail] using h, fun hnil => absurd rfl hnil⟩
      | cons q items =>
        exact ⟨',', print_tail (q :: items) ++ post, .inl rfl, rfl, by simpa [print_tail] using h, fun _ => ⟨rfl, rfl⟩⟩
    have hnext (hitems : items ≠ []) : c.input.drop (position + p.print.length + 1) = print_tail items ++ post := by
      obtain ⟨rfl, rfl⟩ := hrest hitems
      exact drop_succ_of_drop (drop_of_append hdrop)
    by_cases hp : p.Kept items.isEmpty
    · rw [← hlast] at hp
      obtain ⟨a, w, haw, ha⟩ := print_eq_cons (print_ne_nil hp)
      obtain ⟨n, r₁, s₁, r₂, rfl, hround, hmore, hr⟩ := round_of_arguments (by rw [hdrop, haw]; rfl) ha hrun
      obtain ⟨span, hcome⟩ := argument_kept name hp hd hdrop s
      rw [hcome] at hround
      cases hround
      have hmissing : r₂.1.map (·.arg) = List.replicate missing [] ++ items.map (·.text) := by
        rw [hr] at htexts
        exact eq_replicate_append htexts
      by_cases hitems : items = []
      · subst hitems
        obtain rfl : d = '\x7d' := by simpa using hlast
        cases n with
        | zero => cases hmore
        | succ n =>
          rw [next, if_neg (by decide), arguments_close name (drop_of_append hdrop)] at hmore
          cases hmore
          exact ⟨by simpa using hmissing, hlast ▸ hp, trivial⟩
      · obtain ⟨rfl, -⟩ := hrest hitems
        obtain ⟨hzero, hkept⟩ := ih hitems (fun q hq => hhead q (List.mem_cons_of_mem _ hq)) (hnext hitems) hmore hmissing
        exact ⟨hzero, hlast ▸ hp, hkept⟩
    · exfalso
      have hfirst := hhead p List.mem_cons_self
      rw [Printed.Kept] at hp
      cases hquoted : p.quoted with
      | true =>
        rw [if_pos hquoted, not_not] at hp
        exact not_read_of_quote hquoted hp hfirst hdrop hrun htexts
      | false =>
        simp only [hquoted, Bool.false_eq_true, if_false, not_and, Classical.not_imp] at hp
        obtain ⟨htext, hblank⟩ := hp hfirst
        have hbody : p.body = [] := body_eq_nil.mpr ⟨hquoted, htext⟩
        have hprint : p.print = p.before ++ p.after := by simp [Printed.print, hbody]
        by_cases hitems : items = []
        · -- there is nothing before the closing brace
          subst hitems
          obtain rfl : d = '\x7d' := by simpa using hlast
          have hnone : p.print = [] := by
            rw [hprint]
            simpa using hblank
          rw [hnone, List.nil_append] at hdrop
          cases fuel with
          | zero => cases hrun
          | succ n =>
            rw [arguments_close name hdrop] at hrun
            cases hrun
            simp at htexts
        · obtain ⟨rfl, -⟩ := hrest hitems
          obtain ⟨a, w, haw, ha⟩ : ∃ a w, p.print ++ ',' :: rest = a :: w ∧ a ≠ '\x7d' := by
            by_cases hempty : p.print = []
            · exact ⟨',', rest, by simp [hempty], by decide⟩
            · obtain ⟨a, w, haw, ha⟩ := print_eq_cons hempty
              exact ⟨a, w ++ ',' :: rest, by simp [haw], ha⟩
          obtain ⟨n, r₁, s₁, r₂, rfl, hround, hmore, hr⟩ := round_of_arguments (by rw [hdrop, haw]) ha hrun
          obtain ⟨s₂, hlost⟩ := argument_lost hbody hdrop s
          rw [hlost] at hround
          cases hround
          have hmissing : r₂.1.map (·.arg) = List.replicate (missing + 1) [] ++ items.map (·.text) := by
            rw [hr, List.map_cons, htext] at htexts
            rw [List.replicate_succ', List.append_assoc, List.singleton_append]
            simpa using htexts
          obtain ⟨hzero, -⟩ := ih hitems (fun q hq => hhead q (List.mem_cons_of_mem _ hq)) (hnext hitems) hmore hmissing
          exact Nat.succ_ne_zero _ hzero

/-- White space between the braces is taken for an argument. -/
theorem blank_of_arguments {blank post : List Char} (hblank : ∀ a ∈ blank, isspace a = true) {position fuel : ℕ}
    (h : c.input.drop position = blank ++ '\x7d' :: post) {r : List macro_argument × ℕ} {s s' : State}
    (hrun : c.arguments name fuel position s = .ok r s') (htexts : r.1 = []) : blank = [] := by
  by_contra hne
  obtain ⟨a, w, rfl⟩ := List.exists_cons_of_ne_nil hne
  have ha : a ≠ '\x7d' := by
    rintro rfl
    exact absurd (hblank '\x7d' List.mem_cons_self) (by decide)
  obtain ⟨n, r₁, s₁, r₂, -, hround, -, hr⟩ := round_of_arguments h ha hrun
  obtain ⟨span, hread⟩ := argument_blank name h hblank s
  rw [hread] at hround
  cases hround
  rw [hr] at htexts
  cases htexts

end Lost

/-! ### The list -/

section List

variable {pre lead blank post : List Char} {items : List Printed}

/-- The opening brace is found. -/
theorem get_argument_list_eq (inside : List Char) (hlead : ∀ a ∈ lead, isspace a = true)
    (h : c.input = pre ++ lead ++ '\x7b' :: inside) (error_if_absent : Bool) :
    c.get_argument_list name pre.length error_if_absent = (do
      let (args, current) ← c.arguments name (c.input.length + 1) ((pre ++ lead).length + 1)
      if c.at_char current '\x7d' then return (args, current + 1)
      else
        error (about ERROR_EXPECTED_CLOSE_ARGUMENT_LIST name) current (current + 1)
        return (args, current)) := by
  have hdrop : c.input.drop pre.length = lead ++ '\x7b' :: inside := by
    rw [h, List.append_assoc, List.drop_left]
  have hstart := skip_isspace hdrop hlead (by decide)
  rw [get_argument_list, hstart, ← List.length_append]
  have hopen : c.at_char (pre ++ lead).length '\x7b' = true := by
    have hat := at_char_of_drop (drop_of_append hdrop) '\x7b'
    rwa [← List.length_append, beq_self_eq_true] at hat
  simp only [hopen, if_true]

theorem print_eq (blank : List Char) (items : List Printed) :
    print blank items = '\x7b' :: if items = [] then blank ++ ['\x7d'] else print_tail items := by
  cases items <;> rfl

theorem length_le_print_tail (items : List Printed) : items.length ≤ (print_tail items).length := by
  induction items with
  | nil => exact Nat.zero_le _
  | cons p items ih =>
    cases items with
    | nil => simp [print_tail]
    | cons q items =>
      simp only [print_tail, List.length_append, List.length_cons] at ih ⊢
      omega

/-- The last character that is printed is the closing brace. -/
theorem print_tail_eq (items : List Printed) : ∃ w, print_tail items = w ++ ['\x7d'] := by
  induction items with
  | nil => exact ⟨[], rfl⟩
  | cons p items ih =>
    cases items with
    | nil => exact ⟨p.print, rfl⟩
    | cons q items =>
      obtain ⟨w, hw⟩ := ih
      exact ⟨p.print ++ ',' :: w, by simp [print_tail, hw]⟩

/-- What stands behind the opening brace. -/
theorem drop_print (h : c.input = pre ++ lead ++ print blank items ++ post) :
    c.input.drop ((pre ++ lead).length + 1) = (if items = [] then blank ++ ['\x7d'] else print_tail items) ++ post := by
  rw [print_eq] at h
  have hopen : c.input.drop (pre ++ lead).length =
      '\x7b' :: ((if items = [] then blank ++ ['\x7d'] else print_tail items) ++ post) := by
    rw [h, List.append_assoc, List.cons_append, List.drop_left]
  exact drop_succ_of_drop hopen

theorem get_argument_list_of_print (hlead : ∀ a ∈ lead, isspace a = true)
    (h : c.input = pre ++ lead ++ print blank items ++ post) (error_if_absent : Bool) :
    c.get_argument_list name pre.length error_if_absent = (do
      let (args, current) ← c.arguments name (c.input.length + 1) ((pre ++ lead).length + 1)
      if c.at_char current '\x7d' then return (args, current + 1)
      else
        error (about ERROR_EXPECTED_CLOSE_ARGUMENT_LIST name) current (current + 1)
        return (args, current)) := by
  refine get_argument_list_eq name ((if items = [] then blank ++ ['\x7d'] else print_tail items) ++ post) hlead ?_ _
  rw [h, print_eq, List.append_assoc, List.cons_append]

/-- Reading a list whose arguments are kept. No error is reported. -/
theorem get_argument_list_print (hlead : ∀ a ∈ lead, isspace a = true)
    (h : c.input = pre ++ lead ++ print blank items ++ post) (error_if_absent : Bool) (hkept : AllKept items)
    (hblank : items = [] → blank = []) (s : State) :
    ∃ args, c.get_argument_list name pre.length error_if_absent s =
        .ok (args, (pre ++ lead ++ print blank items).length) s ∧ args.map (·.arg) = items.map (·.text) := by
  have hdrop := drop_print h
  obtain ⟨args, last, hargs, htexts, hlast, hclose⟩ : ∃ args last,
      c.arguments name (c.input.length + 1) ((pre ++ lead).length + 1) s = .ok (args, last) s ∧
      args.map (·.arg) = items.map (·.text) ∧ last + 1 = (pre ++ lead ++ print blank items).length ∧
      c.input.drop last = '\x7d' :: post := by
    by_cases hnil : items = []
    · obtain rfl := hblank hnil
      subst hnil
      exact ⟨[], _, arguments_close name hdrop _ s, rfl, by simp [print, Nat.add_assoc], hdrop⟩
    · rw [if_neg hnil] at hdrop
      have hfuel : items.length < c.input.length + 1 := by
        have hle := length_le_print_tail items
        have hlength := congrArg List.length h
        rw [print_eq, if_neg hnil] at hlength
        simp only [List.length_append, List.length_cons] at hlength
        omega
      obtain ⟨args, last, hargs, htexts, hlast⟩ := arguments_kept name hnil hkept hdrop hfuel s
      refine ⟨args, last, hargs, htexts, ?_, ?_⟩
      · rw [hlast, print_eq, if_neg hnil]
        simp only [List.length_append, List.length_cons]
        omega
      · obtain ⟨w, hw⟩ := print_tail_eq items
        simp only [hw, List.length_append, List.length_cons, List.length_nil] at hlast
        rw [hw, List.append_assoc] at hdrop
        rw [show last = (pre ++ lead).length + 1 + w.length by rw [List.length_append]; omega]
        exact drop_of_append hdrop
  refine ⟨args, ?_, htexts⟩
  rw [get_argument_list_of_print name hlead h, ← hlast]
  simp only [bind, EStateM.bind, hargs, at_char_of_drop hclose, beq_self_eq_true, if_true]
  rfl

/-- **A list of arguments** comes back as it was printed if and only if no argument is taken for another one and
nothing stands between empty braces. -/
theorem reads_back_iff (hlead : ∀ a ∈ lead, isspace a = true) (hspace : ∀ a ∈ blank, isspace a = true)
    (h : c.input = pre ++ lead ++ print blank items ++ post) (error_if_absent : Bool) (s : State) :
    (∃ args s', c.get_argument_list name pre.length error_if_absent s =
        .ok (args, (pre ++ lead ++ print blank items).length) s' ∧ args.map (·.arg) = items.map (·.text)) ↔
      AllKept items ∧ (items = [] → blank = []) := by
  constructor
  · rintro ⟨args, s', hread, htexts⟩
    rw [get_argument_list_of_print name hlead h] at hread
    obtain ⟨r, s₁, hrun, hread⟩ := bind_returns_iff.mp hread
    have hr : r.1 = args := by
      simp only at hread
      split at hread
      · exact congrArg Prod.fst (EStateM.Result.ok.inj hread).1
      · obtain ⟨-, s₂, -, hread⟩ := bind_returns_iff.mp hread
        exact congrArg Prod.fst (EStateM.Result.ok.inj hread).1
    have hdrop := drop_print h
    by_cases hnil : items = []
    · subst hnil
      rw [if_pos rfl, List.append_assoc] at hdrop
      have hargs : args = [] := by simpa using htexts
      exact ⟨trivial, fun _ => blank_of_arguments hspace hdrop hrun (hr.trans hargs)⟩
    · rw [if_neg hnil] at hdrop
      have hhead : ∀ p ∈ items, p.text.head? ≠ some '"' := by
        intro p hp
        have hmem : p.text ∈ args.map (·.arg) := htexts ▸ List.mem_map_of_mem hp
        obtain ⟨x, hx, hxp⟩ := List.mem_map.mp hmem
        rw [← hxp]
        exact arguments_head hrun x (hr ▸ hx)
      have hwhole : r.1.map (·.arg) = List.replicate 0 [] ++ items.map (·.text) := by rw [hr, htexts]; rfl
      obtain ⟨-, hkept⟩ := kept_of_arguments hnil hhead hdrop hrun hwhole
      exact ⟨hkept, fun hitems => absurd hitems hnil⟩
  · rintro ⟨hkept, hblank⟩
    obtain ⟨args, hread, htexts⟩ := get_argument_list_print name hlead h error_if_absent hkept hblank s
    exact ⟨args, s, hread, htexts⟩

end List

/-- An argument without quotes and one with a comma in it. -/
def two_arguments : List Printed :=
  [⟨['a'], false, [], [], by simp, by simp, fun _ => List.forall_iff_forall_mem.mp (by decide)⟩,
    ⟨['b', ',', 'c'], true, [' '], [' '], List.forall_iff_forall_mem.mp (by decide),
      List.forall_iff_forall_mem.mp (by decide), by simp⟩]

theorem two_arguments_read_back :
    ∃ args s', ({ input := print [] two_arguments, pfx := ['$'] } : Config).get_argument_list [] 0 true
        { local_rules := [] } = .ok (args, 11) s' ∧ args.map (·.arg) = [['a'], ['b', ',', 'c']] := by
  have h := @reads_back_iff { input := print [] two_arguments, pfx := ['$'] } [] [] [] [] [] two_arguments (by simp)
    (by simp) (by simp) true { local_rules := [] }
  exact h.mpr ⟨by simp [AllKept, Printed.Kept, two_arguments], by simp⟩

/-- White space between empty braces is read as an empty argument. -/
theorem blank_list_not_read_back :
    ¬ ∃ args s', ({ input := print [' '] [], pfx := ['$'] } : Config).get_argument_list [] 0 true
        { local_rules := [] } = .ok (args, 3) s' ∧ args.map (·.arg) = [] := by
  rintro ⟨args, s', hread, htexts⟩
  have hargs : args = [⟨[], (2, 2)⟩] := (congrArg Prod.fst (EStateM.Result.ok.inj hread).1).symm
  rw [hargs] at htexts
  cases htexts

end Config

end CppTransport.Translator.Tokenizer
