import CppTransport.Library.RelatedLists
import CppTransport.Translator.CommonSubexpressions
import Mathlib.Algebra.BigOperators.Group.List.Basic
import Mathlib.Data.Rat.Cast.Defs

/-!
# The texts of common subexpressions

The text of a compound expression has its value, if its operands have been entered into the
table and their temporaries have their values. An exponent must be a number, since for other
exponents nothing is printed.
-/

namespace CppTransport.Translator

open Library Library.Infix

namespace Cse

/-! ### Values -/

/-- The functions of C++. -/
structure Functions (K : Type) [Field K] where
  apply : String → List K → K
  /-- `std::pow` is exact for integers. -/
  pow_int : ∀ x (n : ℤ), apply "std::pow" [x, n] = x ^ n

section Value

variable {K : Type} [Field K] (F : Functions K)

/-- The value of a compound expression. -/
def Operation.value : Operation → List K → K
  | .add, vs => vs.sum
  | .mul, vs => vs.prod
  | .power, vs => F.apply "std::pow" vs
  | .function name, vs => F.apply ("std::" ++ name) vs

variable (val : String → K)

mutual

/-- The value of an expression. -/
def value : ex → K
  | .numeric q => q
  | .symbol name => val name
  | .node op ops => op.value F (values ops)

/-- The values of some expressions. -/
def values : List ex → List K
  | [] => []
  | e :: es => value e :: values es

end

theorem values_eq_map (es : List ex) : values F val es = es.map (value F val) := by
  induction es with
  | nil => rfl
  | cons e es ih => rw [values, ih, List.map_cons]

theorem value_node (op : Operation) (ops : List ex) :
    value F val (.node op ops) = op.value F (ops.map (value F val)) := by
  rw [value, values_eq_map]

end Value

namespace ex

def operands : ex → List ex
  | node _ ops => ops
  | _ => []

theorem postorder_eq (e : ex) : e.postorder = e.operands.flatMap postorder ++ [e] := by
  cases e with
  | node op ops => rw [postorder, postorders_eq_flatMap, operands]
  | _ => rfl

theorem mem_postorder {e t : ex} : t ∈ e.postorder ↔ (∃ x ∈ e.operands, t ∈ x.postorder) ∨ t = e := by
  rw [postorder_eq, List.mem_append, List.mem_flatMap, List.mem_singleton]

/-- **Induction** over expressions, from the operands. -/
theorem induct_operands {P : ex → Prop} (h : ∀ e, (∀ x ∈ e.operands, P x) → P e) (e : ex) : P e := by
  induction e using ex.induct with
  | numeric q => exact h _ fun x hx => absurd hx List.not_mem_nil
  | symbol name => exact h _ fun x hx => absurd hx List.not_mem_nil
  | node op ops ih => exact h _ ih

theorem postorder_trans {e t x u : ex} (ht : t ∈ e.postorder) (hx : x ∈ t.operands) (hu : u ∈ x.postorder) :
    u ∈ e.postorder := by
  induction e using induct_operands with
  | h e ih =>
    rcases mem_postorder.mp ht with ⟨y, hy, ht⟩ | rfl
    · exact mem_postorder.mpr (.inl ⟨y, hy, ih y hy ht⟩)
    · exact mem_postorder.mpr (.inl ⟨x, hx, hu⟩)

theorem postorder_mono {e t u : ex} (ht : t ∈ e.postorder) (hu : u ∈ t.postorder) : u ∈ e.postorder := by
  rcases mem_postorder.mp hu with ⟨x, hx, hu⟩ | rfl
  · exact postorder_trans ht hx hu
  · exact ht

/-- A property of all subexpressions. -/
def Every (P : ex → Prop) (e : ex) : Prop := ∀ t ∈ e.postorder, P t

theorem every_iff {P : ex → Prop} {e : ex} : e.Every P ↔ (∀ x ∈ e.operands, x.Every P) ∧ P e := by
  constructor
  · exact fun h => ⟨fun x hx t ht => h t (mem_postorder.mpr (.inl ⟨x, hx, ht⟩)), h e (mem_postorder.mpr (.inr rfl))⟩
  · rintro ⟨hops, he⟩ t ht
    rcases mem_postorder.mp ht with ⟨x, hx, ht⟩ | rfl
    · exact hops x hx t ht
    · exact he

instance {P : ex → Prop} [DecidablePred P] (e : ex) : Decidable (e.Every P) :=
  inferInstanceAs (Decidable (∀ t ∈ _, P t))

/-- The operands that an operation takes, among those that are supported. -/
def Takes : ex → Prop
  | node .power ops => ops.length = 2
  | node (.function name) ops => (func_convert.lookup name).isSome ∧ ops ≠ []
  | node _ ops => ops ≠ []
  | _ => True

/-- An exponent is a number, and an `int` if it is an integer. -/
def has_numeric_exponent : ex → Prop
  | node .power [_, numeric q] => q.den = 1 → Fits q.num
  | node .power _ => False
  | _ => True

/-- The symbols are among these. -/
def Over (known : List String) : ex → Prop
  | symbol name => name ∈ known
  | _ => True

theorem over_mono {known known' : List String} (h : ∀ x ∈ known, x ∈ known') {e : ex} (he : e.Over known) :
    e.Over known' := by
  cases e with
  | symbol name => exact h name he
  | _ => trivial

instance : DecidablePred Takes
  | numeric _ => isTrue trivial
  | symbol _ => isTrue trivial
  | node .add ops => inferInstanceAs (Decidable (ops ≠ []))
  | node .mul ops => inferInstanceAs (Decidable (ops ≠ []))
  | node .power ops => inferInstanceAs (Decidable (ops.length = 2))
  | node (.function name) ops => inferInstanceAs (Decidable ((func_convert.lookup name).isSome ∧ ops ≠ []))

instance : DecidablePred has_numeric_exponent
  | numeric _ => isTrue trivial
  | symbol _ => isTrue trivial
  | node .add _ => isTrue trivial
  | node .mul _ => isTrue trivial
  | node (.function _) _ => isTrue trivial
  | node .power [_, numeric q] => inferInstanceAs (Decidable (q.den = 1 → Fits q.num))
  | node .power [_, symbol _] => isFalse id
  | node .power [_, node _ _] => isFalse id
  | node .power [] => isFalse id
  | node .power [_] => isFalse id
  | node .power (_ :: _ :: _ :: _) => isFalse fun h => by simp [has_numeric_exponent] at h

instance (known : List String) : DecidablePred (Over known)
  | numeric _ => isTrue trivial
  | symbol name => inferInstanceAs (Decidable (name ∈ known))
  | node _ _ => isTrue trivial

end ex

theorem value_congr {K : Type} [Field K] {F : Functions K} {val val' : String → K} {known : List String} {e : ex}
    (h : ∀ x ∈ known, val x = val' x) (he : e.Every (ex.Over known)) : value F val e = value F val' e := by
  induction e using ex.induct with
  | numeric q => rfl
  | symbol name => exact h name (ex.every_iff.mp he).2
  | node op ops ih =>
    rw [value_node, value_node,
      List.map_congr_left fun e he' => ih e he' ((ex.every_iff.mp he).1 e he')]

/-! ### What is printed -/

section Printed

variable {K : Type} [Field K] {F : Functions K} {σ : String → Option K} {val : String → K}

theorem lookup_func_convert {name f : String} (h : func_convert.lookup name = some f) : f = "std::" ++ name := by
  have all : ∀ p ∈ func_convert, p.2 = "std::" ++ p.1 := by decide
  obtain ⟨l, l', heq, -⟩ := List.lookup_eq_some_iff.mp h
  exact all (name, f) (by rw [heq]; simp)

theorem reads_factor {base : Text} {v : K} (b : ex) (hb : Reads F.apply σ base v) :
    Reads F.apply σ (if b.simple then base else [.opening] ++ base ++ [.closing]) v := by
  split_ifs
  · exact hb
  · exact hb.evaluates.bracket

theorem unwrap_power_one {base : Text} {v : K} (b : ex) (hb : Reads F.apply σ base v) :
    Reads F.apply σ (unwrap_power base b 1) v := by
  simpa [unwrap_power] using reads_factor b hb

theorem unwrap_power_evaluates {base : Text} {v : K} (b : ex) (hb : Reads F.apply σ base v) (n : ℕ) :
    Evaluates F.apply σ (unwrap_power base b (n + 1)) (v ^ (n + 1)) := by
  have factors : List.Forall₂ (Reads F.apply σ)
      (List.replicate (n + 1) (if b.simple then base else [.opening] ++ base ++ [.closing]))
      (List.replicate (n + 1) v) :=
    List.forall₂_iff_get.mpr ⟨by simp, fun i hi _ => by simpa using reads_factor b hb⟩
  rw [List.replicate_succ, List.replicate_succ] at factors
  have product := evaluates_prod factors
  rwa [← List.replicate_succ, ← List.replicate_succ, List.prod_replicate] at product

/-- An integer power, for every exponent. -/
theorem print_integer_power_evaluates {base : Text} {v : K} (b : ex) (hb : Reads F.apply σ base v) (n : ℤ) :
    Evaluates F.apply σ (print_integer_power base b n) (v ^ n) := by
  have one : Reads F.apply σ [.lit 1] (1 : K) := by
    simpa using (reads_lit 1 : Reads F.apply σ [.lit 1] ((1 : ℚ) : K))
  have unrolled : ∀ n, Reads F.apply σ ([.opening] ++ unwrap_power base b (n + 1) ++ [.closing]) (v ^ (n + 1)) :=
    fun n => (unwrap_power_evaluates b hb n).bracket
  have inverse : ∀ n, Evaluates F.apply σ
      ([.lit 1, .divide] ++ ([.opening] ++ unwrap_power base b (n + 1) ++ [.closing]))
      (1 / v ^ (n + 1)) := fun n => evaluates_div one (unrolled n)
  unfold print_integer_power
  split
  · simpa using one.evaluates
  · simpa using (unwrap_power_one b hb).evaluates
  · exact_mod_cast (unrolled 1).evaluates
  · exact_mod_cast (unrolled 2).evaluates
  · exact_mod_cast (unrolled 3).evaluates
  · simpa using evaluates_div one (unwrap_power_one b hb)
  · simpa [zpow_neg] using inverse 1
  · simpa [zpow_neg] using inverse 2
  · simpa [zpow_neg] using inverse 3
  · have exponent : Reads F.apply σ [.lit n] (n : K) := by
      simpa using (reads_lit n : Reads F.apply σ [.lit n] ((n : ℚ) : K))
    have call := reads_call (f := "std::pow") (.cons hb.evaluates (.cons exponent.evaluates .nil))
    rw [F.pow_int] at call
    simpa using call.evaluates

theorem reads_bracketed {op : Token} {es : List ex} {texts : List Text}
    (h : List.Forall₂ (fun e text => Reads F.apply σ text (value F val e)) es texts) :
    List.Forall₂ (Reads F.apply σ) (List.zipWith (bracketed op) es texts) (es.map (value F val)) := by
  induction h with
  | nil => exact .nil
  | cons h _ ih =>
    refine .cons ?_ ih
    rw [bracketed]
    split_ifs
    · exact h.evaluates.bracket
    · exact h

/-- **Layout**: the text of a compound expression has its value, if those of the operands have theirs. -/
theorem layout_evaluates {op : Operation} {ops : List ex} {texts : List Text} (takes : (ex.node op ops).Takes)
    (numeric : (ex.node op ops).has_numeric_exponent)
    (h : List.Forall₂ (fun e text => Reads F.apply σ text (value F val e)) (visited op ops) texts) :
    ∃ text, layout op ops texts = some text ∧ Evaluates F.apply σ text (value F val (.node op ops)) := by
  rw [value_node]
  cases op with
  | add =>
    obtain ⟨e, es, rfl⟩ := List.exists_cons_of_ne_nil takes
    obtain ⟨text, texts', -, -, rfl⟩ := List.forall₂_cons_left_iff.mp h
    exact ⟨_, rfl, evaluates_sum (reads_bracketed h)⟩
  | mul =>
    obtain ⟨e, es, rfl⟩ := List.exists_cons_of_ne_nil takes
    obtain ⟨text, texts', -, -, rfl⟩ := List.forall₂_cons_left_iff.mp h
    exact ⟨_, rfl, evaluates_prod (reads_bracketed h)⟩
  | power =>
    obtain ⟨b, x, rfl⟩ := List.length_eq_two.mp takes
    cases x with
    | numeric q =>
      obtain ⟨exponent, _, hq, hrest₁, rfl⟩ := List.forall₂_cons_left_iff.mp h
      obtain ⟨base, _, hb, hrest₂, rfl⟩ := List.forall₂_cons_left_iff.mp hrest₁
      obtain rfl := List.forall₂_nil_left_iff.mp hrest₂
      by_cases hden : q.den = 1
      · refine ⟨print_integer_power base b q.num, by simp [layout, hden, numeric hden], ?_⟩
        have hpow : F.apply "std::pow" [value F val b, q] = value F val b ^ q.num := by
          rw [← F.pow_int, ← Rat.cast_intCast, Rat.coe_int_num_of_den_eq_one hden]
        change Evaluates _ _ _ (F.apply "std::pow" [value F val b, q])
        rw [hpow]
        exact print_integer_power_evaluates b hb q.num
      · refine ⟨[.call "std::pow"] ++ base ++ [.comma] ++ exponent ++ [.closing],
          by simp only [layout, hden, if_false], ?_⟩
        have call := reads_call (f := "std::pow") (.cons hb.evaluates (.cons hq.evaluates .nil))
        simpa [Operation.value] using call.evaluates
    | symbol name => exact numeric.elim
    | node op ops => exact numeric.elim
  | function name =>
    obtain ⟨supported, hne⟩ := takes
    obtain ⟨f, hf⟩ := Option.isSome_iff_exists.mp supported
    obtain ⟨e, es, rfl⟩ := List.exists_cons_of_ne_nil hne
    rw [visited, if_pos supported] at h
    obtain ⟨text, texts', -, -, rfl⟩ := List.forall₂_cons_left_iff.mp h
    refine ⟨[.call f] ++ List.intercalate [.comma] (text :: texts') ++ [.closing], by simp only [layout, hf], ?_⟩
    obtain rfl := lookup_func_convert hf
    have args : List.Forall₂ (Evaluates F.apply σ) (text :: texts') ((e :: es).map (value F val)) :=
      List.forall₂_map_right_iff.mpr (h.imp fun _ _ h => h.evaluates).flip
    exact (reads_call args).evaluates

end Printed

/-! ### The variables of a text -/

theorem mem_intercalate {α : Type} {sep : List α} {xss : List (List α)} {a : α} (h : a ∈ List.intercalate sep xss) :
    a ∈ sep ∨ ∃ xs ∈ xss, a ∈ xs := by
  induction xss with
  | nil => cases h
  | cons xs xss ih =>
    cases xss with
    | nil => exact .inr ⟨xs, List.mem_cons_self, by simpa using h⟩
    | cons ys xss =>
      rw [List.intercalate_cons_cons, List.append_assoc, List.mem_append, List.mem_append] at h
      rcases h with h | h | h
      · exact .inr ⟨xs, List.mem_cons_self, h⟩
      · exact .inl h
      · exact (ih h).imp_right fun ⟨ys, hys, h⟩ => ⟨ys, List.mem_cons_of_mem _ hys, h⟩

theorem mem_bracketed {op : Token} {e : ex} {text : Text} {x : String} (h : .var x ∈ bracketed op e text) :
    .var x ∈ text := by
  rw [bracketed] at h
  split_ifs at h
  · simpa using h
  · exact h

theorem mem_zipWith_bracketed {op sep : Token} {ops : List ex} {texts : List Text} {x : String}
    (hsep : sep ≠ .var x)
    (h : .var x ∈ List.intercalate [sep] (List.zipWith (bracketed op) ops texts)) :
    ∃ text ∈ texts, .var x ∈ text := by
  rcases mem_intercalate h with h | ⟨text, ht, h⟩
  · exact absurd (List.mem_singleton.mp h).symm hsep
  · rw [← List.map_uncurry_zip_eq_zipWith] at ht
    obtain ⟨⟨e, text'⟩, hzip, rfl⟩ := List.mem_map.mp ht
    exact ⟨text', (List.of_mem_zip hzip).2, mem_bracketed h⟩

theorem mem_unwrap_power {base : Text} {b : ex} {n : ℕ} {x : String} (h : .var x ∈ unwrap_power base b n) :
    .var x ∈ base := by
  rcases mem_intercalate h with h | ⟨text, ht, h⟩
  · cases List.mem_singleton.mp h
  · rw [List.eq_of_mem_replicate ht] at h
    split_ifs at h
    · exact h
    · simpa using h

theorem mem_print_integer_power {base : Text} {b : ex} {n : ℤ} {x : String}
    (h : .var x ∈ print_integer_power base b n) :
    .var x ∈ base := by
  unfold print_integer_power at h
  split at h
  · cases List.mem_singleton.mp h
  · exact mem_unwrap_power h
  · exact mem_unwrap_power (by simpa using h)
  · exact mem_unwrap_power (by simpa using h)
  · exact mem_unwrap_power (by simpa using h)
  · exact mem_unwrap_power (by simpa using h)
  · exact mem_unwrap_power (by simpa using h)
  · exact mem_unwrap_power (by simpa using h)
  · exact mem_unwrap_power (by simpa using h)
  · simpa using h

/-- The variables come from the operands. -/
theorem mem_layout {op : Operation} {ops : List ex} {texts : List Text} {text : Text} {x : String}
    (h : layout op ops texts = some text) (hx : .var x ∈ text) : ∃ text ∈ texts, .var x ∈ text := by
  unfold layout at h
  split at h
  · cases h
    exact mem_zipWith_bracketed Token.noConfusion hx
  · cases h
    exact mem_zipWith_bracketed Token.noConfusion hx
  · split at h
    · split_ifs at h
      · cases h
        exact ⟨_, by simp, mem_print_integer_power hx⟩
      · cases h
        rename_i exponent base _
        have hx : .var x ∈ base ∨ .var x ∈ exponent := by simpa using hx
        rcases hx with hx | hx
        · exact ⟨base, by simp, hx⟩
        · exact ⟨exponent, by simp, hx⟩
    · cases h
      cases hx
  · cases h
    cases hx
  · split at h
    · cases h
      have hx : .var x ∈ List.intercalate [.comma] texts := by simpa using hx
      rcases mem_intercalate hx with hx | hx
      · cases List.mem_singleton.mp hx
      · exact hx
    · cases h
      cases hx

/-! ### Tables that contain the subexpressions -/

section Entered

variable {look look' : Text → Option String} {P P' : ex → String → Prop} {e : ex}

/-- The table contains an expression, with a symbol of which `P` holds. -/
def Entered (look : Text → Option String) (P : ex → String → Prop) (t : ex) : Prop :=
  ∃ text ds s, printed look t = some (text, ds) ∧ look text = some s ∧ P t s

theorem Entered.shown (h : Entered look P e) : ∃ s ds, shown look e = some ([.var s], ds) ∧ P e s := by
  obtain ⟨text, ds, s, hprint, hlook, hP⟩ := h
  exact ⟨s, ds ++ [text], by simp [Cse.shown, hprint, finish, hlook], hP⟩

theorem mapM_shown {es : List ex} (h : ∀ e ∈ es, Entered look P e) :
    ∃ rs, es.mapM (shown look) = some rs ∧
      List.Forall₂ (fun e text => ∃ s, text = [.var s] ∧ P e s) es (rs.map Prod.fst) := by
  induction es with
  | nil => exact ⟨[], rfl, .nil⟩
  | cons e es ih =>
    obtain ⟨s, ds, hshown, hP⟩ := (h e List.mem_cons_self).shown
    obtain ⟨rs, hrs, hall⟩ := ih fun e he => h e (List.mem_cons_of_mem _ he)
    exact ⟨([.var s], ds) :: rs, by simp [hshown, hrs], .cons ⟨s, rfl, hP⟩ hall⟩

theorem mapM_shown_congr {es : List ex} (h : ∀ e ∈ es, shown look' e = shown look e) :
    es.mapM (shown look') = es.mapM (shown look) := by
  induction es with
  | nil => rfl
  | cons e es ih =>
    rw [List.mapM_cons, List.mapM_cons, h e List.mem_cons_self, ih fun e he => h e (List.mem_cons_of_mem _ he)]

/-- What is printed stays the same when texts are added. -/
theorem printed_congr (hlook : ∀ text s, look text = some s → look' text = some s)
    (h : ∀ x ∈ e.operands, x.Every (Entered look P)) : printed look' e = printed look e := by
  induction e using ex.induct with
  | numeric q => rw [printed_numeric, printed_numeric]
  | symbol name => rw [printed_symbol, printed_symbol]
  | node op ops ih =>
    have same : ∀ x ∈ ops, shown look' x = shown look x := by
      intro x hx
      obtain ⟨hops, text, ds, s, hprint, htext, -⟩ := ex.every_iff.mp (h x hx)
      rw [shown, shown, ih x hx hops, hprint, Option.map_some, Option.map_some, finish, finish, htext,
        hlook _ _ htext]
    rw [printed_node, printed_node, mapM_shown_congr fun x hx => same x (mem_visited hx)]

theorem every_entered_mono (hlook : ∀ text s, look text = some s → look' text = some s)
    (hP : ∀ t s, P t s → P' t s) (h : e.Every (Entered look P)) : e.Every (Entered look' P') := by
  intro t ht
  obtain ⟨text, ds, s, hprint, htext, hs⟩ := h t ht
  refine ⟨text, ds, s, ?_, hlook _ _ htext, hP _ _ hs⟩
  rw [printed_congr hlook fun x hx u hu => h u (ex.postorder_trans ht hx hu), hprint]

variable {K : Type} [Field K] {F : Functions K} {σ : String → Option K} {val : String → K}

/-- **The text of an expression** has its value, if the operands have been entered. -/
theorem printed_evaluates (takes : e.Takes) (numeric : e.has_numeric_exponent)
    (symbol : ∀ x, e = .symbol x → σ x = some (val x)) (h : ∀ x ∈ e.operands, Entered look P x)
    (hP : ∀ t s, P t s → σ s = some (value F val t)) :
    ∃ text ds, printed look e = some (text, ds) ∧ Evaluates F.apply σ text (value F val e) := by
  cases e with
  | numeric q => exact ⟨_, _, printed_numeric look q, (reads_lit q).evaluates⟩
  | symbol name => exact ⟨_, _, printed_symbol look name, (reads_var (symbol name rfl)).evaluates⟩
  | node op ops =>
    have entered : ∀ x ∈ visited op ops, Entered look P x := fun x hx => h x (mem_visited hx)
    obtain ⟨rs, hrs, hall⟩ := mapM_shown entered
    have reads : List.Forall₂ (fun e text => Reads F.apply σ text (value F val e)) (visited op ops)
        (rs.map Prod.fst) := by
      refine hall.imp ?_
      rintro e _ ⟨s, rfl, hs⟩
      exact reads_var (hP e s hs)
    obtain ⟨text, hlayout, hv⟩ := layout_evaluates takes numeric reads
    exact ⟨text, rs.flatMap Prod.snd, by simp [printed_node, hrs, hlayout], hv⟩

/-- The variables of its text are its own, or the symbols of the operands. -/
theorem mem_printed {text : Text} {ds : List Text} {x : String} (hprint : printed look e = some (text, ds))
    (h : ∀ x ∈ e.operands, Entered look P x) (hx : .var x ∈ text) : e = .symbol x ∨ ∃ t, P t x := by
  cases e with
  | numeric q =>
    rw [printed_numeric] at hprint
    cases hprint
    cases List.mem_singleton.mp hx
  | symbol name =>
    rw [printed_symbol] at hprint
    cases hprint
    cases List.mem_singleton.mp hx
    exact .inl rfl
  | node op ops =>
    have entered : ∀ x ∈ visited op ops, Entered look P x := fun x hx => h x (mem_visited hx)
    obtain ⟨rs, hrs, hall⟩ := mapM_shown entered
    rw [printed_node, hrs, Option.bind_eq_bind, Option.bind_some] at hprint
    obtain ⟨text', hlayout, htext⟩ := Option.bind_eq_some_iff.mp hprint
    cases htext
    obtain ⟨t, ht, hx⟩ := mem_layout hlayout hx
    obtain ⟨e, -, s, rfl, hs⟩ := mem_right_of_forall₂ hall ht
    cases List.mem_singleton.mp hx
    exact .inr ⟨e, hs⟩

end Entered

end Cse

end CppTransport.Translator
