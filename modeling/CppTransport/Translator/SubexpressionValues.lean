import CppTransport.Translator.SubexpressionTable
import Mathlib.Logic.Relation

/-!
# What common subexpressions evaluate to

When an expression has been parsed, its text, with the declarations of the worker, has the
value of the expression, whatever the values of the symbols are: if and only if every power
has a numeric exponent. For a power with any other exponent nothing is written, so its
temporary is declared to be nothing.
-/

namespace CppTransport.Translator

open Library Library.Infix
open Relation (ReflTransGen)

namespace Cse

/-! ### `parse` -/

section Parse

variable {K : Type} [Field K] {F : Functions K} {names known : List String} {val : String → K} {c c' : cse}
  {σ σ' : String → Option K} {r : symbol_record} {s : String} {text : Text} {name : Option String} {last : Bool}
  {t : ex}

/-- An expression that is supported, whose powers have numeric exponents. -/
def Good (known : List String) (e : ex) : Prop :=
  e.Every fun t => t.Takes ∧ t.has_numeric_exponent ∧ t.Over known

/-- The subexpressions have been entered. -/
def Covered (names : List String) (F : Functions K) (val : String → K) (name : Option String) (c : cse)
    (σ : String → Option K) (e : ex) : Prop := e.Every (Entered c.look (Settled names F val name c σ))

theorem Covered.mono {e : ex} (h : Covered names F val name c σ e) (hext : Extends names c c')
    (hσ : ∀ x v, σ x = some v → σ' x = some v) : Covered names F val name c' σ' e :=
  every_entered_mono hext.look (fun _ _ hs => hs.mono hext hσ) h

/-- A subexpression is entered after its operands. -/
theorem Sound.visit (h : Sound names known F val c σ) {ts : List ex}
    (ht : t.Takes ∧ t.has_numeric_exponent ∧ t.Over known) (hops : ∀ x ∈ t.operands, Covered names F val name c σ x)
    (hname : ∀ n, name = some n → ts.isEmpty = true → c.IsNew names n) :
    ∃ c' σ', parse_loop name (t :: ts) c = parse_loop name ts c' ∧ Sound names known F val c' σ' ∧
      Extends names c c' ∧ (∀ x v, σ x = some v → σ' x = some v) ∧ Covered names F val name c' σ' t ∧
      (∀ x, c'.Used names x →
        c.Used names x ∨ Reserved c.temporary_name_kernel x ∨ ts.isEmpty = true ∧ name = some x) ∧
      ∀ n, name = some n → ts.isEmpty = true → c'.Declared names n → σ' n = some (value F val t) := by
  obtain ⟨takes, numeric, inScope⟩ := ht
  have entered : ∀ x ∈ t.operands, Entered c.look (Settled names F val name c σ) x := fun x hx =>
    (ex.every_iff.mp (hops x hx)).2
  have symbol : ∀ x, t = .symbol x → c.Declared names x ∧ σ x = some (val x) := by
    rintro x rfl
    exact h.known x inScope
  obtain ⟨text, ds, hprint, hv⟩ := printed_evaluates takes numeric (fun x hx => (symbol x hx).2) entered
    fun _ _ hs => hs.1
  have hvars : name.isSome → ∀ y ∈ vars text, c.Declared names y := by
    intro hn y hy
    rcases mem_printed hprint entered (mem_vars.mp hy) with hsymbol | ⟨u, hu⟩
    · exact (symbol y hsymbol).1
    · exact hu.2 hn
  obtain ⟨σ', h', hσ, ⟨s, hlook, hs⟩, hused, hnamed⟩ := h.enter hv.eval hvars hname
  have hext : Extends names c (Cse.enter name ts.isEmpty text c) := extends_enter
  refine ⟨_, σ', by rw [parse_loop_cons, hprint, Option.bind_some], h', hext, hσ, ?_, hused, hnamed⟩
  refine ex.every_iff.mpr ⟨fun x hx => (hops x hx).mono hext hσ, text, ds, s, ?_, hlook, hs⟩
  rw [printed_congr hext.look hops, hprint]

/-- The loop of `parse` passes through some expressions, and others come after them. -/
def Passes (names known : List String) (F : Functions K) (val : String → K) (name : Option String) (es : List ex) :
    Prop :=
  ∀ ts ≠ [], ∀ c σ, Sound names known F val c σ → ∃ c' σ',
    parse_loop name (es.flatMap ex.postorder ++ ts) c = parse_loop name ts c' ∧ Sound names known F val c' σ' ∧
      Extends names c c' ∧ (∀ x v, σ x = some v → σ' x = some v) ∧ (∀ e ∈ es, Covered names F val name c' σ' e) ∧
      ∀ x, c'.Used names x → c.Used names x ∨ Reserved c.temporary_name_kernel x

theorem passes_nil : Passes names known F val name [] := fun _ _ c σ h =>
  ⟨c, σ, rfl, h, .refl, fun _ _ h => h, fun _ he => absurd he List.not_mem_nil, fun _ => .inl⟩

theorem Passes.cons {e : ex} {es : List ex} (he : Passes names known F val name [e])
    (hes : Passes names known F val name es) : Passes names known F val name (e :: es) := by
  intro ts hts c σ h
  have hts' : es.flatMap ex.postorder ++ ts ≠ [] := List.append_ne_nil_of_right_ne_nil _ hts
  obtain ⟨c₁, σ₁, run₁, h₁, hext₁, hσ₁, hcov₁, hused₁⟩ := he _ hts' c σ h
  obtain ⟨c₂, σ₂, run₂, h₂, hext₂, hσ₂, hcov₂, hused₂⟩ := hes ts hts c₁ σ₁ h₁
  refine ⟨c₂, σ₂, ?_, h₂, hext₁.trans hext₂, fun x v hx => hσ₂ x v (hσ₁ x v hx), fun x hx => ?_, fun x hx => ?_⟩
  · rw [List.flatMap_singleton] at run₁
    rw [List.flatMap_cons, List.append_assoc, run₁, run₂]
  · rcases List.mem_cons.mp hx with rfl | hx
    · exact (hcov₁ x (List.mem_singleton_self x)).mono hext₂ hσ₂
    · exact hcov₂ x hx
  · rcases hused₂ x hx with hx | hx
    · exact hused₁ x hx
    · exact .inr (hext₁.kernel ▸ hx)

theorem Passes.of_forall {es : List ex} (h : ∀ e ∈ es, Passes names known F val name [e]) :
    Passes names known F val name es := by
  induction es with
  | nil => exact passes_nil
  | cons e es ih => exact (h e List.mem_cons_self).cons (ih fun e he => h e (List.mem_cons_of_mem _ he))

/-- The induction over an expression: its operands come first. -/
theorem passes {e : ex} (he : Good known e) : Passes names known F val name [e] := by
  induction e using ex.induct_operands with
  | h e ih =>
    obtain ⟨hops, ht⟩ := ex.every_iff.mp he
    intro ts hts c σ h
    have hlast : ts.isEmpty = false := by simpa using hts
    obtain ⟨c₁, σ₁, run₁, h₁, hext₁, hσ₁, hcov₁, hused₁⟩ :=
      Passes.of_forall (fun x hx => ih x hx (hops x hx)) (e :: ts) (List.cons_ne_nil e ts) c σ h
    have hname : ∀ n, name = some n → ts.isEmpty = true → c₁.IsNew names n := fun n _ hempty =>
      absurd (hlast.symm.trans hempty) Bool.false_ne_true
    obtain ⟨c₂, σ₂, run₂, h₂, hext₂, hσ₂, hcov₂, hused₂, -⟩ := h₁.visit ht hcov₁ hname
    refine ⟨c₂, σ₂, ?_, h₂, hext₁.trans hext₂, fun x v hx => hσ₂ x v (hσ₁ x v hx),
      fun x hx => List.mem_singleton.mp hx ▸ hcov₂, fun x hx => ?_⟩
    · rw [List.flatMap_singleton, ex.postorder_eq, List.append_assoc, List.singleton_append, run₁, run₂]
    · rcases hused₂ x hx with hx | hx | ⟨hempty, -⟩
      · exact hused₁ x hx
      · exact .inr (hext₁.kernel ▸ hx)
      · rw [hlast] at hempty
        cases hempty

/-- **`parse`** enters the subexpressions, and gives the name to the expression. -/
theorem Sound.parse (h : Sound names known F val c σ) (ht : Good known t)
    (hname : ∀ n, name = some n → c.IsNew names n) :
    ∃ c' σ', Cse.parse t name c = some c' ∧ Sound names known F val c' σ' ∧ Extends names c c' ∧
      (∀ x v, σ x = some v → σ' x = some v) ∧ Covered names F val name c' σ' t ∧
      ∀ n, name = some n → c'.Declared names n → σ' n = some (value F val t) := by
  obtain ⟨hops, hthis⟩ := ex.every_iff.mp ht
  have pass : Passes names known F val name t.operands := .of_forall fun x hx => passes (hops x hx)
  obtain ⟨c₁, σ₁, run₁, h₁, hext₁, hσ₁, hcov₁, hused₁⟩ := pass [t] (List.cons_ne_nil t []) c σ h
  have hname₁ : ∀ n, name = some n → ([] : List ex).isEmpty = true → c₁.IsNew names n := by
    intro n hn _
    obtain ⟨hused, hres⟩ := hname n hn
    exact ⟨fun hu => (hused₁ n hu).elim hused hres, hext₁.kernel ▸ hres⟩
  obtain ⟨c₂, σ₂, run₂, h₂, hext₂, hσ₂, hcov₂, -, hnamed⟩ := h₁.visit hthis hcov₁ hname₁
  refine ⟨c₂, σ₂, ?_, h₂, hext₁.trans hext₂, fun x v hx => hσ₂ x v (hσ₁ x v hx), hcov₂, fun n hn => hnamed n hn rfl⟩
  rw [Cse.parse, ex.postorder_eq, run₁, run₂, parse_loop]

/-! ### `get_symbol_with_use_count` -/

/-- A text is resolved. -/
theorem Sound.resolve (h : Sound names known F val c σ) (hvars : ∀ y ∈ vars text, c.Declared names y) :
    Sound names known F val (c.count true [text]) σ ∧
      ∀ y ∈ vars ((c.look text).elim text fun symbol => [.var symbol]), (c.count true [text]).Declared names y := by
  cases hfind : c.find text with
  | none =>
    have heq : c.count true [text] = c := by simp [cse.count, cse.deposits, hfind]
    have hlook : c.look text = none := by rw [cse.look, hfind, Option.map_none]
    rw [heq, hlook]
    exact ⟨h, hvars⟩
  | some r =>
    have heq : c.count true [text] = c.deposit r := by simp [cse.count, cse.deposits, hfind]
    rw [heq, cse.look_of_find hfind]
    refine ⟨h.deposit hfind hvars, fun y hy => ?_⟩
    rcases mem_vars_cons.mp hy with hy | hy
    · cases hy
      exact h.declared_deposit (cse.mem_of_find hfind).1
    · cases hy

/-- Declarations are deposited for the texts that are resolved on the way to a text, and it can be used then. -/
def Deposits (names known : List String) (F : Functions K) (val : String → K) (look : Text → Option String)
    (texts : List Text) (ds : List Text) : Prop :=
  ∀ c σ, c.look = look → Sound names known F val c σ → Sound names known F val (c.count true ds) σ ∧
    ∀ text ∈ texts, ∀ y ∈ vars text, (c.count true ds).Declared names y

theorem Deposits.finish {look : Text → Option String} {r : Text × List Text}
    (h : Deposits names known F val look [r.1] r.2) :
    Deposits names known F val look [(finish look r).1] (finish look r).2 := by
  rintro c σ rfl hc
  obtain ⟨hds, hvars⟩ := h c σ rfl hc
  obtain ⟨hall, hvars⟩ := hds.resolve (hvars r.1 (List.mem_singleton_self _))
  rw [cse.look_count] at hvars
  rw [Cse.finish, cse.count_append]
  exact ⟨hall, fun text ht => List.mem_singleton.mp ht ▸ hvars⟩

theorem Deposits.operands {look : Text → Option String} {es : List ex} {rs : List (Text × List Text)}
    (h : List.Forall₂ (fun e r => shown look e = some r) es rs)
    (hes : ∀ e ∈ es, ∀ r, shown look e = some r → Deposits names known F val look [r.1] r.2) :
    Deposits names known F val look (rs.map Prod.fst) (rs.flatMap Prod.snd) := by
  induction h with
  | nil => exact fun c σ _ hc => ⟨hc, fun text ht => absurd ht List.not_mem_nil⟩
  | @cons e r es rs hr _ ih =>
    intro c σ hlook hc
    obtain ⟨h₁, hvars₁⟩ := hes e List.mem_cons_self r hr c σ hlook hc
    obtain ⟨h₂, hvars₂⟩ := ih (fun e he => hes e (List.mem_cons_of_mem _ he)) _ σ
      ((c.look_count true r.2).trans hlook) h₁
    rw [List.flatMap_cons, cse.count_append]
    refine ⟨h₂, fun text ht => ?_⟩
    rcases List.mem_cons.mp ht with rfl | ht
    · exact fun y hy => extends_count.declared y (hvars₁ _ (List.mem_singleton_self _) y hy)
    · exact hvars₂ text ht

theorem deposits_shown {look : Text → Option String} {e : ex} (inScope : e.Every (ex.Over known))
    {r : Text × List Text}
    (hr : shown look e = some r) : Deposits names known F val look [r.1] r.2 := by
  induction e using ex.induct generalizing r with
  | numeric q =>
    rw [shown, printed_numeric] at hr
    cases hr
    exact Deposits.finish fun c σ _ hc => ⟨hc, fun text ht y hy => by cases List.mem_singleton.mp ht; cases hy⟩
  | symbol name =>
    rw [shown, printed_symbol] at hr
    cases hr
    refine Deposits.finish fun c σ _ hc => ⟨hc, fun text ht y hy => ?_⟩
    cases List.mem_singleton.mp ht
    rcases mem_vars_cons.mp hy with hy | hy
    · cases hy
      exact (hc.known name (ex.every_iff.mp inScope).2).1
    · cases hy
  | node op ops ih =>
    obtain ⟨⟨text, ds⟩, hprint, rfl⟩ := Option.map_eq_some_iff.mp hr
    refine Deposits.finish ?_
    rw [printed_node] at hprint
    obtain ⟨rs, hrs, hprint⟩ := Option.bind_eq_some_iff.mp hprint
    obtain ⟨text', hlayout, heq⟩ := Option.bind_eq_some_iff.mp hprint
    cases heq
    have operands : Deposits names known F val look (rs.map Prod.fst) (rs.flatMap Prod.snd) :=
      .operands (forall₂_of_mapM hrs) fun e he r hr =>
        ih e (mem_visited he) ((ex.every_iff.mp inScope).1 e (mem_visited he)) hr
    intro c σ hlook hc
    obtain ⟨hds, hvars⟩ := operands c σ hlook hc
    refine ⟨hds, fun text ht y hy => ?_⟩
    cases List.mem_singleton.mp ht
    obtain ⟨text', ht', hy⟩ := mem_layout hlayout (mem_vars.mp hy)
    exact hvars text' ht' y (mem_vars.mpr hy)

/-- **`get_symbol_with_use_count`** deposits the declarations that its text needs. -/
theorem Sound.get_symbol (h : Sound names known F val c σ) {e : ex} (inScope : e.Every (ex.Over known))
    (hget : Cse.get_symbol true e c = some (text, c')) :
    Sound names known F val c' σ ∧ Extends names c c' ∧ ∀ y ∈ vars text, c'.Declared names y := by
  rw [get_symbol_eq_shown e rfl] at hget
  obtain ⟨r, hr, heq⟩ := Option.map_eq_some_iff.mp hget
  cases heq
  obtain ⟨hc, hvars⟩ := deposits_shown inScope hr c σ rfl h
  exact ⟨hc, extends_count, hvars _ (List.mem_singleton_self _)⟩

/-- The text of an expression that has been parsed has its value, after the declarations. -/
theorem Sound.evaluates (h : Sound names known F val c σ) {e : ex} (inScope : e.Every (ex.Over known))
    (hcov : Covered names F val name c σ e) :
    ∃ text c', Cse.get_symbol true e c = some (text, c') ∧ ∃ ρ,
      Infix.declare F.apply c'.decls (env names val) = some ρ ∧ eval F.apply ρ text = some (value F val e) := by
  obtain ⟨s, ds, hshown, hs, -⟩ := (ex.every_iff.mp hcov).2.shown
  have hget : Cse.get_symbol true e c = some ([.var s], c.count true ds) := by
    rw [get_symbol_eq_shown e rfl, hshown, Option.map_some]
  obtain ⟨h', -, hvars⟩ := h.get_symbol inScope hget
  obtain ⟨ρ, hρ, hle⟩ := h'.decls
  refine ⟨_, _, hget, ρ, hρ, ?_⟩
  obtain ⟨v, hv⟩ := Option.isSome_iff_exists.mp ((isSome_declare hρ).mpr (hvars s (mem_vars.mpr (by simp))))
  rw [← hs, hle s v hv]
  exact (reads_var hv).evaluates.eval

end Parse

/-! ### Texts that are empty -/

section Empty

variable {look : Text → Option String} {e t : ex} {r : Text × List Text} {ts : List ex} {c c' : cse}
  {name : Option String} {last : Bool} {text : Text}

theorem eq_power_of_not_numeric (takes : t.Takes) (h : ¬ t.has_numeric_exponent) :
    ∃ b x, t = .node .power [b, x] := by
  cases t with
  | numeric q => exact absurd trivial h
  | symbol name => exact absurd trivial h
  | node op ops =>
    cases op with
    | power =>
      obtain ⟨b, x, rfl⟩ := List.length_eq_two.mp takes
      exact ⟨b, x, rfl⟩
    | add => exact absurd trivial h
    | mul => exact absurd trivial h
    | function name => exact absurd trivial h

/-- A power whose exponent is not a number is printed as nothing, if it is printed. -/
theorem printed_of_not_numeric (takes : t.Takes) (h : ¬ t.has_numeric_exponent) (hr : printed look t = some r) :
    r.1 = [] := by
  obtain ⟨b, x, rfl⟩ := eq_power_of_not_numeric takes h
  rw [printed_node] at hr
  obtain ⟨rs, hrs, hr⟩ := Option.bind_eq_some_iff.mp hr
  obtain ⟨text, hlayout, heq⟩ := Option.bind_eq_some_iff.mp hr
  cases heq
  cases x with
  | numeric q =>
    obtain ⟨hden, hfits⟩ := Classical.not_imp.mp h
    simp only [visited, List.mapM_cons, List.mapM_nil, Option.bind_eq_bind, Option.pure_def,
      Option.bind_eq_some_iff, Option.some.injEq] at hrs
    obtain ⟨exponent, -, _, ⟨base, -, _, rfl, rfl⟩, rfl⟩ := hrs
    simp [layout, hden, hfits] at hlayout
  | symbol name => exact (Option.some.inj hlayout).symm
  | node op ops => exact (Option.some.inj hlayout).symm

theorem mem_visited_of_numeric {op : Operation} {ops : List ex} {x : ex} (takes : (ex.node op ops).Takes)
    (numeric : (ex.node op ops).has_numeric_exponent) (hx : x ∈ ops) : x ∈ visited op ops := by
  cases op with
  | add => exact hx
  | mul => exact hx
  | power =>
    obtain ⟨b, y, rfl⟩ := List.length_eq_two.mp takes
    cases y with
    | numeric q => simpa [visited, or_comm] using hx
    | symbol name => exact numeric.elim
    | node op ops => exact numeric.elim
  | function name => rwa [visited, if_pos takes.1]

/-- It is resolved when an expression that contains it is printed. -/
theorem nil_mem_shown (takes : e.Every ex.Takes) (h : ¬ e.Every ex.has_numeric_exponent)
    (hr : shown look e = some r) :
    [] ∈ r.2 := by
  induction e using ex.induct generalizing r with
  | numeric q => exact absurd (fun t ht => by cases List.mem_singleton.mp ht; trivial) h
  | symbol name => exact absurd (fun t ht => by cases List.mem_singleton.mp ht; trivial) h
  | node op ops ih =>
    obtain ⟨r', hprint, rfl⟩ := Option.map_eq_some_iff.mp hr
    obtain ⟨htakes, hthis⟩ := ex.every_iff.mp takes
    rw [finish, List.mem_append, List.mem_singleton]
    by_cases hnumeric : (ex.node op ops).has_numeric_exponent
    · left
      obtain ⟨x, hx, hbad⟩ : ∃ x ∈ ops, ¬ x.Every ex.has_numeric_exponent := by
        by_contra hall
        push Not at hall
        exact h (ex.every_iff.mpr ⟨hall, hnumeric⟩)
      rw [printed_node] at hprint
      obtain ⟨rs, hrs, hprint⟩ := Option.bind_eq_some_iff.mp hprint
      obtain ⟨text, -, heq⟩ := Option.bind_eq_some_iff.mp hprint
      cases heq
      obtain ⟨r, hr, hx'⟩ := mem_left_of_forall₂ (forall₂_of_mapM hrs) (mem_visited_of_numeric hthis hnumeric hx)
      exact List.mem_flatMap.mpr ⟨r, hr, ih x hx (htakes x hx) hbad hx'⟩
    · exact .inr (printed_of_not_numeric hthis hnumeric hprint).symm

theorem extends_parse_loop (h : parse_loop name ts c = some c') : Extends [] c c' := by
  induction ts generalizing c with
  | nil =>
    cases h
    exact .refl
  | cons t ts ih =>
    rw [parse_loop_cons] at h
    obtain ⟨r, -, h⟩ := Option.bind_eq_some_iff.mp h
    exact extends_enter.trans (ih h)

/-- A text is in the table after it has been entered. -/
theorem look_enter : ∃ s, (enter name last text c).look text = some s := by
  cases hfind : c.find text with
  | none =>
    have hnew : (c.symbol_name name last).2.find text = none := by
      rw [cse.find, cse.symbols_symbol_name]
      exact hfind
    have hlook := cse.look_of_find (cse.find_emplace_self (r := ⟨text, (c.symbol_name name last).1, false⟩) hnew)
    simp only [enter, hfind]
    split_ifs
    · exact ⟨_, by rw [cse.look_deposit, hlook]⟩
    · exact ⟨_, hlook⟩
  | some r =>
    have hext : Extends [] c (enter name last text c) := extends_enter
    exact ⟨r.symbol, hext.look _ _ (cse.look_of_find hfind)⟩

/-- The table has the empty text, after such a power has been parsed. -/
theorem look_nil_of_parse (h : parse_loop name ts c = some c') (ht : t ∈ ts) (takes : t.Takes)
    (hbad : ¬ t.has_numeric_exponent) : ∃ s, c'.look [] = some s := by
  induction ts generalizing c with
  | nil => cases ht
  | cons u ts ih =>
    rw [parse_loop_cons] at h
    obtain ⟨⟨text, ds⟩, hr, hrest⟩ := Option.bind_eq_some_iff.mp h
    rcases List.mem_cons.mp ht with rfl | ht
    · obtain rfl : text = [] := printed_of_not_numeric takes hbad hr
      obtain ⟨s, hs⟩ : ∃ s, (enter name ts.isEmpty [] c).look [] = some s := look_enter
      exact ⟨s, (extends_parse_loop hrest).look _ _ hs⟩
    · exact ih hrest ht

/-- If the empty text has been declared, this can be seen. -/
def Spelled (c : cse) : Prop := ∀ r ∈ c.symbols, r.target = [] → r.written = true → ∃ x, (x, []) ∈ c.decls

theorem Spelled.deposit {r : symbol_record} (h : Spelled c) : Spelled (c.deposit r) := by
  intro r' hr' htarget hwritten
  obtain ⟨r₀, hr₀, htarget₀, -, hwritten₀⟩ := c.mem_symbols_deposit r hr'
  rcases hwritten₀.mp hwritten with hw | ⟨heq, hw⟩
  · obtain ⟨x, hx⟩ := h r₀ hr₀ (htarget₀ ▸ htarget) hw
    exact ⟨x, cse.mem_decls_deposit hx⟩
  · refine ⟨r.symbol, ?_⟩
    rw [cse.deposit, if_neg (by simp [hw]), ← heq, ← htarget₀, htarget]
    simp

theorem Spelled.enter (h : Spelled c) : Spelled (enter none last text c) := by
  have hdecls : (c.symbol_name none last).2.decls = c.decls := rfl
  rw [Cse.enter]
  cases c.find text with
  | none =>
    intro r hr htarget hwritten
    rcases List.mem_append.mp hr with hr | hr
    · exact h r (c.symbols_symbol_name none last ▸ hr) htarget hwritten
    · cases List.mem_singleton.mp hr
      cases hwritten
  | some r => exact h

theorem Spelled.parse_loop (h : Spelled c) (hrun : parse_loop none ts c = some c') : Spelled c' := by
  induction ts generalizing c with
  | nil =>
    cases hrun
    exact h
  | cons t ts ih =>
    rw [parse_loop_cons] at hrun
    obtain ⟨r, -, hrun⟩ := Option.bind_eq_some_iff.mp hrun
    exact ih h.enter hrun

/-- The empty text is declared when it has been resolved. -/
theorem Spelled.deposits {ds : List Text} {s : String} (h : Spelled c) (hlook : c.look [] = some s)
    (hds : [] ∈ ds) :
    ∃ x, (x, []) ∈ (c.deposits ds).decls := by
  induction ds generalizing c with
  | nil => cases hds
  | cons text ds ih =>
    rw [cse.deposits, List.foldl_cons, ← cse.deposits]
    rcases List.mem_cons.mp hds with rfl | hds
    · obtain ⟨r, hfind, -⟩ := cse.find_of_look hlook
      obtain ⟨hr, htarget⟩ := cse.mem_of_find hfind
      rw [hfind]
      obtain ⟨x, hx⟩ : ∃ x, (x, []) ∈ (c.deposit r).decls := by
        by_cases hw : r.written = true
        · exact (h r hr htarget hw).imp fun x hx => cse.mem_decls_deposit hx
        · exact ⟨r.symbol, by rw [cse.deposit, if_neg hw, htarget]; simp⟩
      exact ⟨x, cse.mem_decls_deposits hx⟩
    · cases hfind : c.find text with
      | none => exact ih h hlook hds
      | some r => exact ih h.deposit (by rwa [cse.look_deposit]) hds

end Empty

/-! ### Runs -/

/-- A worker, with the names that have been given to expressions and declared in its pool. -/
structure State where
  worker : cse
  /-- The last one first. -/
  defs : List (String × ex)

/-- The values of the symbols of the model, and of the names of expressions. -/
def extend {K : Type} [Field K] (F : Functions K) (val : String → K) : List (String × ex) → String → K
  | [] => val
  | (n, e) :: defs => Function.update (extend F val defs) n (value F (extend F val defs) e)

/-- The symbols that expressions may contain. -/
def State.known (names : List String) (s : State) : List String := names ++ s.defs.map Prod.fst

/-- What is done with a worker, while a pool is filled. -/
inductive Step (names : List String) : State → State → Prop where
  | parse {s : State} {e : ex} {c : cse} (good : Good (s.known names) e) (run : parse e none s.worker = some c) :
    Step names s ⟨c, s.defs⟩
  /-- A name that is not in use is given to an expression; it can be used if it has been declared. -/
  | define {s : State} {e : ex} {n : String} {c : cse} (good : Good (s.known names) e) (new : s.worker.IsNew names n)
    (run : parse e (some n) s.worker = some c) :
    Step names s ⟨c, if n ∈ c.decls.map Prod.fst then (n, e) :: s.defs else s.defs⟩
  | get_symbol {s : State} {e : ex} {text : Text} {c : cse} (inScope : e.Every (ex.Over (s.known names)))
    (run : get_symbol true e s.worker = some (text, c)) : Step names s ⟨c, s.defs⟩

/-- The symbols of a model; none of them is a temporary. -/
structure Symbols (kernel : String) where
  names : List String
  unreserved : ∀ x ∈ names, ¬ Reserved kernel x

/-- The states of a worker, whose pools may be cleared. -/
inductive Reachable {kernel : String} (S : Symbols kernel) : State → Prop where
  | initial (serial_number : ℕ) : Reachable S ⟨.initial kernel serial_number, []⟩
  | step {s s' : State} (h : Reachable S s) (step : Step S.names s s') : Reachable S s'
  | clear {s : State} (h : Reachable S s) : Reachable S ⟨s.worker.clear, []⟩

section Runs

variable {K : Type} [Field K] {F : Functions K} {val val' : String → K} {kernel : String} {S : Symbols kernel}
  {names known known' : List String} {c : cse} {σ : String → Option K} {s s' : State}

/-- Nothing has been parsed. -/
theorem sound_empty (hsymbols : c.symbols = []) (hdecls : c.decls = [])
    (unreserved : ∀ x ∈ names, ¬ Reserved c.temporary_name_kernel x) :
    Sound names names F val c (env names val) := by
  have used_iff : ∀ x, c.Used names x ↔ x ∈ names := by
    intro x
    simp [cse.Used, cse.Declared, hsymbols, hdecls]
  refine ⟨by simp [hsymbols], by simp [hsymbols], fun k _ hu => ?_, fun x hx => ?_, by simp [hsymbols],
    by simp [hsymbols], fun x hx => ⟨.inl hx, if_pos hx⟩, ?_⟩
  · exact unreserved _ ((used_iff _).mp hu) ⟨_, k, rfl⟩
  · rw [used_iff]
    by_contra hmem
    rw [env, if_neg hmem] at hx
    cases hx
  · rw [hdecls]
    exact ⟨env names val, rfl, fun _ _ h => h⟩

/-- Other symbols may be used in expressions. -/
theorem Sound.of_known (h : Sound names known F val c σ) (hval : ∀ x ∈ names, val' x = val x)
    (hknown : ∀ x ∈ known', c.Declared names x ∧ σ x = some (val' x)) : Sound names known' F val' c σ := by
  exact ⟨h.keys, h.distinct, h.fresh, h.used, h.written, h.record, hknown, env_congr hval ▸ h.decls⟩

/-- The worker of a state is sound. -/
def State.Sound (names : List String) (F : Functions K) (val : String → K) (s : State) (σ : String → Option K) :
    Prop :=
  Cse.Sound names (s.known names) F (extend F val s.defs) s.worker σ

/-- Symbols keep their values. -/
def Keeps (names : List String) (F : Functions K) (val : String → K) (s s' : State) : Prop :=
  ∀ x ∈ s.known names, x ∈ s'.known names ∧ extend F val s'.defs x = extend F val s.defs x

theorem Step.sound (h : Step names s s') (hs : State.Sound names F val s σ) :
    ∃ σ', State.Sound names F val s' σ' ∧ Extends names s.worker s'.worker ∧ (∀ x v, σ x = some v → σ' x = some v) ∧
      Keeps names F val s s' := by
  have keeps_refl : Keeps names F val s s := fun x hx => ⟨hx, rfl⟩
  cases h with
  | parse good run =>
    have hname : ∀ m, none = some m → s.worker.IsNew names m := by
      rintro _ ⟨⟩
    obtain ⟨c', σ', run', h', hext, hσ, -, -⟩ := Cse.Sound.parse hs good hname
    cases run.symm.trans run'
    exact ⟨σ', h', hext, hσ, keeps_refl⟩
  | @define e n c good new run =>
    have hname : ∀ m, some n = some m → s.worker.IsNew names m := by
      rintro _ ⟨⟩
      exact new
    obtain ⟨c', σ', run', h', hext, hσ, -, hnamed⟩ := Cse.Sound.parse hs good hname
    cases run.symm.trans run'
    split_ifs with hn
    · have keeps : Keeps names F val s ⟨c, (n, e) :: s.defs⟩ := by
        intro x hx
        refine ⟨?_, Function.update_of_ne ?_ ..⟩
        · rcases List.mem_append.mp hx with hx | hx
          · exact List.mem_append_left _ hx
          · exact List.mem_append_right _ (List.mem_cons_of_mem _ hx)
        · rintro rfl
          exact new.1 (.inl (hs.known x hx).1)
      refine ⟨σ', h'.of_known (fun x hx => (keeps x (List.mem_append_left _ hx)).2) fun x hx => ?_, hext, hσ, keeps⟩
      by_cases hxn : x = n
      · rw [hxn]
        refine ⟨.inr hn, (hnamed n rfl (.inr hn)).trans ?_⟩
        rw [extend, Function.update_self]
      · have hx : x ∈ s.known names := by
          rcases List.mem_append.mp hx with hx | hx
          · exact List.mem_append_left _ hx
          · exact List.mem_append_right _ (List.mem_of_ne_of_mem hxn hx)
        rw [(keeps x hx).2]
        exact h'.known x hx
    · exact ⟨σ', h', hext, hσ, keeps_refl⟩
  | get_symbol inScope run =>
    obtain ⟨h', hext, -⟩ := Cse.Sound.get_symbol hs inScope run
    exact ⟨σ, h', hext, fun _ _ h => h, keeps_refl⟩

/-- Every state that is reached is sound. -/
theorem Reachable.sound (h : Reachable S s) (F : Functions K) (val : String → K) :
    (∃ σ, State.Sound S.names F val s σ) ∧ s.worker.temporary_name_kernel = kernel ∧
      ∀ x ∈ S.names, extend F val s.defs x = val x := by
  induction h with
  | initial serial_number =>
    refine ⟨⟨env S.names val, ?_⟩, rfl, fun _ _ => rfl⟩
    rw [State.Sound, State.known, List.map_nil, List.append_nil]
    exact sound_empty rfl rfl S.unreserved
  | step _ step ih =>
    obtain ⟨⟨σ, hs⟩, hkernel, hval⟩ := ih
    obtain ⟨σ', hs', hext, -, keeps⟩ := step.sound hs
    exact ⟨⟨σ', hs'⟩, hext.kernel.trans hkernel,
      fun x hx => (keeps x (List.mem_append_left _ hx)).2.trans (hval x hx)⟩
  | clear _ ih =>
    obtain ⟨-, hkernel, -⟩ := ih
    refine ⟨⟨env S.names val, ?_⟩, hkernel, fun _ _ => rfl⟩
    rw [State.Sound, State.known, List.map_nil, List.append_nil]
    exact sound_empty rfl rfl (hkernel ▸ S.unreserved)

/-- What has been parsed stays, whatever is parsed and printed afterwards. -/
theorem Covered.steps {e : ex} (he : e.Every (ex.Over (s.known names))) (hs : State.Sound names F val s σ)
    (hcov : Covered names F (extend F val s.defs) none s.worker σ e) (h : ReflTransGen (Step names) s s') :
    ∃ σ', State.Sound names F val s' σ' ∧ Keeps names F val s s' ∧
      Covered names F (extend F val s'.defs) none s'.worker σ' e := by
  induction h with
  | refl => exact ⟨σ, hs, fun x hx => ⟨hx, rfl⟩, hcov⟩
  | @tail s₁ s₂ _ step ih =>
    obtain ⟨σ₁, hs₁, keeps₁, hcov₁⟩ := ih
    obtain ⟨σ₂, hs₂, hext, hσ, keeps⟩ := step.sound hs₁
    refine ⟨σ₂, hs₂, fun x hx => ?_, fun t ht => ?_⟩
    · obtain ⟨hx₁, heq₁⟩ := keeps₁ x hx
      exact ⟨(keeps x hx₁).1, (keeps x hx₁).2.trans heq₁⟩
    · obtain ⟨text, ds, r, hprint, hlook, hr, hdeclared⟩ := hcov₁.mono hext hσ t ht
      have same : value F (extend F val s₂.defs) t = value F (extend F val s₁.defs) t :=
        value_congr (fun x hx => (keeps x (keeps₁ x hx).1).2) fun u hu => he u (ex.postorder_mono ht hu)
      exact ⟨text, ds, r, hprint, hlook, hr.trans (congrArg some same.symm), hdeclared⟩

variable (S) in
/-- **Meaning is preserved**: when an expression has been parsed, then at any time afterwards its text, with the
declarations, has the value of the expression. -/
def Preserves (s : State) (e : ex) : Prop :=
  ∃ c, parse e none s.worker = some c ∧ ∀ s', ReflTransGen (Step S.names) ⟨c, s.defs⟩ s' →
    ∃ text c', get_symbol true e s'.worker = some (text, c') ∧
      ∀ (K : Type) [Field K] (F : Functions K) (val : String → K), ∃ ρ,
        declare F.apply c'.decls (env S.names val) = some ρ ∧
          eval F.apply ρ text = some (value F (extend F val s.defs) e)

/-- Functions of rational numbers. -/
def Functions.rational : Functions ℚ where
  apply name xs := match name, xs with
    | "std::pow", [x, y] => x ^ y.num
    | _, _ => 0
  pow_int x n := by simp

theorem Reachable.preserves (h : Reachable S s) {e : ex} (he : Good (s.known S.names) e) : Preserves S s e := by
  have at_values : ∀ (K : Type) [Field K] (F : Functions K) (val : String → K), ∃ c,
      parse e none s.worker = some c ∧
      ∀ s', ReflTransGen (Step S.names) ⟨c, s.defs⟩ s' → ∃ text c', get_symbol true e s'.worker = some (text, c') ∧
        ∃ ρ, declare F.apply c'.decls (env S.names val) = some ρ ∧
          eval F.apply ρ text = some (value F (extend F val s.defs) e) := by
    intro K _ F val
    obtain ⟨⟨σ, hs⟩, -, hval⟩ := h.sound F val
    have hname : ∀ m, none = some m → s.worker.IsNew S.names m := by
      rintro _ ⟨⟩
    obtain ⟨c, σ', hparse, hc, -, -, hcov, -⟩ := Cse.Sound.parse hs he hname
    have inScope : e.Every (ex.Over (s.known S.names)) := fun t ht => (he t ht).2.2
    refine ⟨c, hparse, fun s' hs' => ?_⟩
    obtain ⟨σ'', hs'', keeps, hcov'⟩ := Covered.steps (s := ⟨c, s.defs⟩) inScope hc hcov hs'
    have inScope' : e.Every (ex.Over (s'.known S.names)) := fun t ht =>
      ex.over_mono (fun x hx => (keeps x hx).1) (inScope t ht)
    obtain ⟨text, c', hget, ρ, hρ, hv⟩ := Sound.evaluates hs'' inScope' hcov'
    refine ⟨text, c', hget, ρ, ?_, ?_⟩
    · rwa [env_congr fun x hx => (keeps x (List.mem_append_left _ hx)).2.trans (hval x hx)] at hρ
    · rwa [value_congr (fun x hx => (keeps x hx).2) inScope] at hv
  obtain ⟨c, hparse, hrat⟩ := at_values ℚ .rational fun _ => 0
  refine ⟨c, hparse, fun s' hs' => ?_⟩
  obtain ⟨text, c', hget, -⟩ := hrat s' hs'
  refine ⟨text, c', hget, fun K _ F val => ?_⟩
  obtain ⟨c₁, hparse₁, hall⟩ := at_values K F val
  cases hparse.symm.trans hparse₁
  obtain ⟨text₁, c₁', hget₁, hv⟩ := hall s' hs'
  cases hget.symm.trans hget₁
  exact hv

theorem Reachable.not_preserves (h : Reachable S s) {e : ex} (takes : e.Every ex.Takes)
    (hbad : ¬ e.Every ex.has_numeric_exponent) : ¬ Preserves S s e := by
  rintro ⟨c, hparse, hall⟩
  obtain ⟨text, c', hget, hval⟩ := hall _ .refl
  obtain ⟨ρ, hρ, -⟩ := hval ℚ .rational fun _ => 0
  obtain ⟨⟨σ, hs⟩, -, -⟩ := h.sound Functions.rational fun _ => 0
  have spelled : Spelled s.worker := by
    intro r hr htarget _
    obtain ⟨v, hv, -⟩ := hs.record r hr
    rw [htarget] at hv
    cases hv
  obtain ⟨t, ht, hbad'⟩ : ∃ t ∈ e.postorder, ¬ t.has_numeric_exponent := by
    by_contra hno
    push Not at hno
    exact hbad hno
  obtain ⟨symbol, hlook⟩ := look_nil_of_parse hparse ht (takes t ht) hbad'
  rw [get_symbol_eq_shown e rfl] at hget
  obtain ⟨r, hr, heq⟩ := Option.map_eq_some_iff.mp hget
  cases heq
  obtain ⟨x, hx⟩ := (spelled.parse_loop hparse).deposits hlook (nil_mem_shown takes hbad hr)
  exact ne_nil_of_declare hρ hx rfl

/-- **Common subexpressions**: meaning is preserved if and only if every power has a numeric exponent (which is an
`int` if it is an integer). -/
theorem preserves_iff (h : Reachable S s) {e : ex} (takes : e.Every ex.Takes)
    (inScope : e.Every (ex.Over (s.known S.names))) : Preserves S s e ↔ e.Every ex.has_numeric_exponent := by
  constructor
  · exact fun hp => by_contra fun hbad => h.not_preserves takes hbad hp
  · exact fun numeric => h.preserves fun t ht => ⟨takes t ht, numeric t ht, inScope t ht⟩

/-- A temporary is longer than its kernel. -/
theorem Reserved.length {x : String} (h : Reserved kernel x) : kernel.length + 2 ≤ x.length := by
  obtain ⟨serial_number, symbol_counter, rfl⟩ := h
  simp only [temporary, String.length_append]
  have : "_".length = 1 := by decide
  omega

/-- A model with the symbols `x` and `n`. -/
def power_symbols : Symbols "_t" where
  names := ["x", "n"]
  unreserved x hx h := by
    have hlength := h.length
    rcases List.mem_cons.mp hx with rfl | hx
    · exact absurd hlength (by decide)
    · rw [List.mem_singleton.mp hx] at hlength
      exact absurd hlength (by decide)

theorem preserves_iff_cube : Preserves power_symbols ⟨.initial "_t" 0, []⟩
    (.node .add [.node .power [.symbol "x", .numeric 3], .node (.function "sin") [.symbol "n"]]) :=
  (preserves_iff (.initial 0) (by decide) (by decide)).mpr (by decide)

/-- The power `x ^ n` is parsed, and it is declared to be nothing. -/
theorem symbolic_exponent_lost : Reachable power_symbols ⟨.initial "_t" 0, []⟩ ∧
    (ex.node .power [.symbol "x", .symbol "n"]).Every ex.Takes ∧
    (ex.node .power [.symbol "x", .symbol "n"]).Every (ex.Over power_symbols.names) ∧
    ¬ Preserves power_symbols ⟨.initial "_t" 0, []⟩ (.node .power [.symbol "x", .symbol "n"]) :=
  ⟨.initial 0, by decide, by decide, Reachable.not_preserves (.initial 0) (by decide) (by decide)⟩

end Runs

end Cse

end CppTransport.Translator
