import CppTransport.Translator.SubexpressionPools

/-!
# Names given to common subexpressions

A name may be given to an expression when it is parsed (`parse` in `language_concepts/cse.cpp`). If the
expression is new to the table, the name becomes its symbol there. Otherwise the name is declared to be the
symbol that the expression has, and `named_symbols` keeps the name, so that this is done once.

`clear` empties the table and the declarations, and leaves `named_symbols` as it is. Nothing looks at whether
a name is in use for another expression.

## What is proved

`names_stand_iff`: along every run in which no name is given to two expressions of one pool, and none is given
as an alias that an earlier pool has left in `named_symbols`, each name is declared once in its pool and
stands for its expression; and a call of `parse` does what it should exactly if it is of this kind. The
calls that are not of this kind are accepted all the same (`not_honours`).
-/

namespace CppTransport.Translator

open Library Library.Infix

namespace Cse

/-! ### Expressions that can be printed -/

section Print

variable {look : Text → Option String} {e : ex} {ts : List ex} {name : Option String}

theorem isSome_layout {op : Operation} {ops : List ex} {texts : List Text} (takes : (ex.node op ops).Takes)
    (numeric : (ex.node op ops).has_numeric_exponent) (h : texts.length = (visited op ops).length) :
    (layout op ops texts).isSome := by
  match op, ops, texts with
  | .add, _, _ | .mul, _, _ => rfl
  | .function name, _, _ =>
    obtain ⟨f, hf⟩ := Option.isSome_iff_exists.mp takes.1
    simp [layout, hf]
  | .power, [b, .numeric q], [exponent, base] =>
    by_cases hden : q.den = 1
    · simp [layout, hden, numeric hden]
    · simp [layout, hden]
  | .power, [b, .numeric q], [] | .power, [b, .numeric q], [_] | .power, [b, .numeric q], _ :: _ :: _ :: _ =>
    simp [visited] at h
  | .power, [_, .symbol _], _ | .power, [_, .node _ _], _ => exact numeric.elim
  | .power, [], _ | .power, [_], _ | .power, _ :: _ :: _ :: _, _ => simp [ex.Takes] at takes

/-- An expression that is supported can be printed, whatever is in the table. -/
theorem isSome_printed (h : e.Every fun t => t.Takes ∧ t.has_numeric_exponent) : (printed look e).isSome := by
  induction e using ex.induct with
  | numeric q => simp [printed_numeric]
  | symbol name => simp [printed_symbol]
  | node op ops ih =>
    obtain ⟨hops, takes, numeric⟩ := ex.every_iff.mp h
    have hshown : ∀ es : List ex, (∀ x ∈ es, x ∈ ops) →
        ∃ rs, es.mapM (shown look) = some rs ∧ rs.length = es.length := by
      intro es hes
      induction es with
      | nil => exact ⟨[], rfl, rfl⟩
      | cons x es ihes =>
        have hx := hes x List.mem_cons_self
        obtain ⟨r, hr⟩ := Option.isSome_iff_exists.mp (ih x hx (hops x hx))
        obtain ⟨rs, hrs, hlength⟩ := ihes fun y hy => hes y (List.mem_cons_of_mem _ hy)
        exact ⟨finish look r :: rs, by simp [shown, hr, hrs], by simp [hlength]⟩
    obtain ⟨rs, hrs, hlength⟩ := hshown (visited op ops) fun _ => mem_visited
    have hlayout : (layout op ops (rs.map Prod.fst)).isSome :=
      isSome_layout takes numeric (by rw [List.length_map, hlength])
    obtain ⟨text, htext⟩ := Option.isSome_iff_exists.mp hlayout
    simp [printed_node, hrs, htext]

theorem isSome_parse_loop (h : ∀ t ∈ ts, t.Every fun t => t.Takes ∧ t.has_numeric_exponent) (c : cse) :
    (parse_loop name ts c).isSome := by
  induction ts generalizing c with
  | nil => rfl
  | cons t ts ih =>
    have hprinted : (printed c.look t).isSome := isSome_printed (h t List.mem_cons_self)
    obtain ⟨r, hr⟩ := Option.isSome_iff_exists.mp hprinted
    rw [parse_loop_cons, hr]
    exact ih (fun u hu => h u (List.mem_cons_of_mem _ hu)) _

theorem isSome_parse {known : List String} (h : Good known e) (name : Option String) (c : cse) :
    (parse e name c).isSome :=
  isSome_parse_loop (fun _ ht _ hu => (h _ (ex.postorder_mono ht hu)).imp_right And.left) c

end Print

/-! ### Names that are in use -/

section Used

variable {names : List String} {c c' : cse} {r : symbol_record} {text : Text} {name : Option String} {last : Bool}
  {e t : ex} {ts : List ex} {x n : String}

theorem named_symbols_deposit (c : cse) (r : symbol_record) : (c.deposit r).named_symbols = c.named_symbols := by
  rw [cse.deposit]
  split_ifs <;> rfl

theorem named_symbols_deposits (c : cse) (ds : List Text) : (c.deposits ds).named_symbols = c.named_symbols := by
  induction ds generalizing c with
  | nil => rfl
  | cons text ds ih =>
    rw [cse.deposits, List.foldl_cons, ← cse.deposits, ih]
    cases c.find text with
    | none => rfl
    | some r => exact named_symbols_deposit c r

theorem used_deposits (c : cse) (ds : List Text) : (c.deposits ds).Used names x ↔ c.Used names x := by
  induction ds generalizing c with
  | nil => rfl
  | cons text ds ih =>
    rw [cse.deposits, List.foldl_cons, ← cse.deposits, ih]
    cases hfind : c.find text with
    | none => rfl
    | some r => exact cse.used_deposit (cse.mem_of_find hfind).1

/-- The symbol of a new record is a temporary, or the name of the whole expression. -/
theorem symbol_name_eq (c : cse) (name : Option String) (last : Bool) :
    Reserved c.temporary_name_kernel (c.symbol_name name last).1 ∨
      last = true ∧ name = some (c.symbol_name name last).1 := by
  unfold cse.symbol_name
  split
  · exact .inr ⟨rfl, rfl⟩
  · exact .inl ⟨_, _, rfl⟩

theorem used_symbol_name : (c.symbol_name name last).2.Used names x ↔ c.Used names x := by
  unfold cse.symbol_name
  split <;> rfl

theorem named_symbols_symbol_name (c : cse) (name : Option String) (last : Bool) :
    (c.symbol_name name last).2.named_symbols = c.named_symbols := by
  unfold cse.symbol_name
  split <;> rfl

/-- A new text is entered. -/
theorem enter_of_find_none (h : c.find text = none) : enter name last text c =
    if name.isSome then
      ((c.symbol_name name last).2.emplace ⟨text, (c.symbol_name name last).1, false⟩).deposit
        ⟨text, (c.symbol_name name last).1, false⟩
    else (c.symbol_name name last).2.emplace ⟨text, (c.symbol_name name last).1, false⟩ := by
  simp only [enter, h]

/-- A text of the table is entered again. -/
theorem enter_of_find_some (h : c.find text = some r) : enter (some n) last text c =
    if last = true ∧ r.symbol ≠ n ∧ n ∉ c.named_symbols then (c.deposit r).assign n r.symbol else c.deposit r := by
  simp only [enter, h, named_symbols_deposit]

theorem enter_none_of_find_some (h : c.find text = some r) : enter none last text c = c := by
  simp only [enter, h]

/-- A text is entered: the names that come to be used are a temporary, or the name of the whole expression. -/
theorem used_enter (h : (enter name last text c).Used names x) :
    c.Used names x ∨ Reserved c.temporary_name_kernel x ∨ last = true ∧ name = some x := by
  cases hfind : c.find text with
  | none =>
    have hemplace : ((c.symbol_name name last).2.emplace ⟨text, (c.symbol_name name last).1, false⟩).Used names x := by
      rw [enter_of_find_none hfind] at h
      split_ifs at h
      · exact (cse.used_deposit (by simp [cse.emplace])).mp h
      · exact h
    obtain hused | rfl := cse.used_emplace.mp hemplace
    · exact .inl (used_symbol_name.mp hused)
    · exact .inr (symbol_name_eq c name last)
  | some r =>
    have hr := (cse.mem_of_find hfind).1
    cases name with
    | none =>
      rw [enter_none_of_find_some hfind] at h
      exact .inl h
    | some n =>
      rw [enter_of_find_some hfind] at h
      split_ifs at h with hassign
      · obtain hused | rfl := cse.used_assign.mp h
        · exact .inl ((cse.used_deposit hr).mp hused)
        · exact .inr (.inr ⟨hassign.1, rfl⟩)
      · exact .inl ((cse.used_deposit hr).mp h)

theorem mem_named_symbols_enter {m : String} (hm : m ∈ c.named_symbols) :
    m ∈ (enter name last text c).named_symbols := by
  cases hfind : c.find text with
  | none =>
    rw [enter_of_find_none hfind]
    split_ifs
    · rwa [named_symbols_deposit, cse.emplace, named_symbols_symbol_name]
    · rwa [cse.emplace, named_symbols_symbol_name]
  | some r =>
    cases name with
    | none => rwa [enter_none_of_find_some hfind]
    | some n =>
      rw [enter_of_find_some hfind]
      split_ifs
      · exact List.mem_cons_of_mem _ (by rwa [named_symbols_deposit])
      · rwa [named_symbols_deposit]

/-- **The name** is declared for a whole expression, unless it is stale. -/
theorem declared_enter_iff (hnew : ¬ c.Used [] n) :
    (enter (some n) true text c).Declared [] n ↔ ¬ Stale n text c := by
  have hdeclared : ¬ c.Declared [] n := fun h => hnew (.inl h)
  cases hfind : c.find text with
  | none =>
    refine iff_of_true ?_ fun ⟨r, hr, _⟩ => by rw [hfind] at hr; cases hr
    rw [enter_of_find_none hfind, Option.isSome_some, if_pos rfl]
    exact (cse.declared_deposit (by simp)).mpr (.inr rfl)
  | some r =>
    have hsymbol : r.symbol ≠ n := by
      rintro rfl
      exact hnew (.inr (List.mem_map_of_mem (cse.mem_of_find hfind).1))
    rw [enter_of_find_some hfind]
    by_cases hnamed : n ∈ c.named_symbols
    · rw [if_neg fun h => h.2.2 hnamed]
      refine iff_of_false (fun h => ?_) fun h => h ⟨r, hfind, hsymbol, hnamed, hdeclared⟩
      have hr := (cse.mem_of_find hfind).1
      obtain hd | hs := (cse.used_deposit hr).mp (.inl h)
      · exact hdeclared hd
      · exact hnew (.inr hs)
    · rw [if_pos ⟨rfl, hsymbol, hnamed⟩]
      refine iff_of_true (cse.declared_assign.mpr (.inr rfl)) ?_
      rintro ⟨_, _, _, hmem, _⟩
      exact hnamed hmem

theorem mem_named_symbols_parse_loop {m : String} (h : parse_loop name ts c = some c') (hm : m ∈ c.named_symbols) :
    m ∈ c'.named_symbols := by
  induction ts generalizing c with
  | nil =>
    cases h
    exact hm
  | cons t ts ih =>
    rw [parse_loop_cons] at h
    obtain ⟨r, -, h⟩ := Option.bind_eq_some_iff.mp h
    exact ih h (mem_named_symbols_enter hm)

/-- What comes of entering the operands. -/
theorem used_foldlM_visit (h : ts.foldlM (visit name) c = some c') (hx : c'.Used names x) :
    c.Used names x ∨ Reserved c.temporary_name_kernel x := by
  induction ts generalizing c with
  | nil =>
    cases h
    exact .inl hx
  | cons t ts ih =>
    rw [List.foldlM_cons] at h
    obtain ⟨c₁, hvisit, hrest⟩ := Option.bind_eq_some_iff.mp h
    obtain ⟨r, -, rfl⟩ := Option.map_eq_some_iff.mp hvisit
    have hext : Extends [] c (enter name false r.1 c) := extends_enter
    obtain hused | hres := ih hrest
    · exact (used_enter hused).imp_right fun h => h.resolve_right (by simp)
    · exact .inr (hext.kernel ▸ hres)

theorem used_parse_loop (h : parse_loop name ts c = some c') (hx : c'.Used names x) :
    c.Used names x ∨ Reserved c.temporary_name_kernel x ∨ name = some x := by
  induction ts generalizing c with
  | nil =>
    cases h
    exact .inl hx
  | cons t ts ih =>
    rw [parse_loop_cons] at h
    obtain ⟨r, -, h⟩ := Option.bind_eq_some_iff.mp h
    have hext : Extends [] c (enter name ts.isEmpty r.1 c) := extends_enter
    obtain hused | hres | hname := ih h
    · exact (used_enter hused).imp_right fun h => h.imp_right And.right
    · exact .inr (.inl (hext.kernel ▸ hres))
    · exact .inr (.inr hname)

/-- **A new name** is declared by `parse`, unless that is skipped. -/
theorem declared_parse_iff (hnew : c.IsNew [] n) (h : parse e (some n) c = some c') :
    c'.Declared [] n ↔ ¬ Skips e n c := by
  rw [parse_eq] at h
  obtain ⟨c₁, hoperands, h⟩ := Option.bind_eq_some_iff.mp h
  obtain ⟨r, hr, rfl⟩ := Option.map_eq_some_iff.mp h
  have hnew₁ : ¬ c₁.Used [] n := fun hu => (used_foldlM_visit hoperands hu).elim hnew.1 hnew.2
  rw [declared_enter_iff hnew₁]
  refine not_congr ⟨fun hstale => ⟨c₁, r, hoperands, hr, hstale⟩, ?_⟩
  rintro ⟨c₂, r₂, hoperands₂, hr₂, hstale⟩
  cases hoperands.symm.trans hoperands₂
  cases hr.symm.trans hr₂
  exact hstale

theorem extends_foldlM_visit (h : ts.foldlM (visit name) c = some c') : Extends [] c c' := by
  induction ts generalizing c with
  | nil =>
    cases h
    exact .refl
  | cons t ts ih =>
    rw [List.foldlM_cons] at h
    obtain ⟨c₁, hvisit, hrest⟩ := Option.bind_eq_some_iff.mp h
    obtain ⟨r, -, rfl⟩ := Option.map_eq_some_iff.mp hvisit
    exact extends_enter.trans (ih hrest)

/-- A name that is declared is not skipped. -/
theorem not_skips_of_declared (h : c.Declared [] n) : ¬ Skips e n c := by
  rintro ⟨c₁, r, hoperands, -, -, -, -, -, hdeclared⟩
  exact hdeclared ((extends_foldlM_visit hoperands).declared n h)

/-- After a whole expression has been entered, the name is its symbol, or it is among `named_symbols`. -/
theorem look_enter_or_mem (n : String) (text : Text) (c : cse) :
    ∃ s, (enter (some n) true text c).look text = some s ∧
      (s = n ∨ n ∈ (enter (some n) true text c).named_symbols) := by
  cases hfind : c.find text with
  | none =>
    refine ⟨n, ?_, .inl rfl⟩
    have hfind' : (c.symbol_name (some n) true).2.find text = none := by rwa [cse.find, cse.symbols_symbol_name]
    rw [enter_of_find_none hfind, Option.isSome_some, if_pos rfl, cse.look_deposit]
    exact cse.look_of_find (cse.find_emplace_self (r := ⟨text, n, false⟩) hfind')
  | some r =>
    have hext : Extends [] c (enter (some n) true text c) := extends_enter
    refine ⟨r.symbol, hext.look _ _ (cse.look_of_find hfind), ?_⟩
    by_cases hsymbol : r.symbol = n
    · exact .inl hsymbol
    · by_cases hnamed : n ∈ c.named_symbols
      · exact .inr (mem_named_symbols_enter hnamed)
      · rw [enter_of_find_some hfind, if_pos ⟨rfl, hsymbol, hnamed⟩]
        exact .inr List.mem_cons_self

/-- The text of a subexpression has been declared. -/
def Written (c : cse) (t : ex) : Prop :=
  ∃ text ds r, printed c.look t = some (text, ds) ∧ c.find text = some r ∧ r.written = true

/-- A name is the symbol of an expression, or it is among `named_symbols`. -/
def Titled (n : String) (c : cse) : ex → Prop := Entered c.look fun _ s => s = n ∨ n ∈ c.named_symbols

/-- **An expression is parsed again** under its name: nothing changes. -/
theorem parse_loop_again (hwritten : ∀ t ∈ ts, Written c t) (hlast : ∀ t, ts.getLast? = some t → Titled n c t) :
    parse_loop (some n) ts c = some c := by
  induction ts with
  | nil => rfl
  | cons t ts ih =>
    obtain ⟨text, ds, r, hprint, hfind, hw⟩ := hwritten t List.mem_cons_self
    have henter : enter (some n) ts.isEmpty text c = c := by
      have hdeposit : c.deposit r = c := by rw [cse.deposit, if_pos hw]
      rw [enter_of_find_some hfind, hdeposit, if_neg]
      rintro ⟨hempty, hsymbol, hnamed⟩
      obtain rfl := List.isEmpty_iff.mp hempty
      obtain ⟨text', ds', s, hprint', hlook, hs⟩ := hlast t rfl
      cases hprint.symm.trans hprint'
      cases (cse.look_of_find hfind).symm.trans hlook
      exact hs.elim hsymbol hnamed
    rw [parse_loop_cons, hprint, Option.bind_some, henter]
    refine ih (fun u hu => hwritten u (List.mem_cons_of_mem _ hu)) fun u hu => hlast u ?_
    cases ts with
    | nil => cases hu
    | cons v ts => exact hu

end Used

/-- **A new name** is the symbol of its expression, or among `named_symbols`. -/
theorem Sound.titled {K : Type} [Field K] {F : Functions K} {names known : List String} {val : String → K}
    {c c' : cse} {σ : String → Option K} {e : ex} {n : String} (h : Sound names known F val c σ) (he : Good known e)
    (hparse : Cse.parse e (some n) c = some c') : Titled n c' e := by
  have pass : Passes names known F val (some n) e.operands :=
    .of_forall fun x hx => passes ((ex.every_iff.mp he).1 x hx)
  obtain ⟨c₁, σ₁, hrun, -, -, -, hcov, -⟩ := pass [e] (List.cons_ne_nil e []) c σ h
  rw [Cse.parse, ex.postorder_eq, hrun, parse_loop_cons] at hparse
  obtain ⟨⟨text, ds⟩, hprint, hparse⟩ := Option.bind_eq_some_iff.mp hparse
  obtain rfl : Cse.enter (some n) true text c₁ = c' := Option.some.inj hparse
  have hext : Extends names c₁ (Cse.enter (some n) true text c₁) := extends_enter
  obtain ⟨s, hlook, hs⟩ := look_enter_or_mem n text c₁
  exact ⟨text, ds, s, by rw [printed_congr hext.look hcov, hprint], hlook, hs⟩

theorem Titled.mono {names : List String} {c c' : cse} {e : ex} {n : String} {P : ex → String → Prop}
    (h : Titled n c e) (hentered : e.Every (Entered c.look P)) (hext : Extends names c c')
    (hnamed : ∀ m ∈ c.named_symbols, m ∈ c'.named_symbols) : Titled n c' e := by
  obtain ⟨text, ds, s, hprint, hlook, hs⟩ := h
  refine ⟨text, ds, s, ?_, hext.look _ _ hlook, hs.imp_right (hnamed n)⟩
  rw [printed_congr hext.look (ex.every_iff.mp hentered).1, hprint]

/-! ### Runs -/

/-- A call of the worker; `none` is an exception. In a pool a name stands for the expression that it has been given
to first. -/
def State.next (s : State) : Call → Option State
  | .parse expr none => (parse expr none s.worker).map fun c => ⟨c, s.defs⟩
  | .parse expr (some n) => (parse expr (some n) s.worker).map fun c =>
      ⟨c, if n ∈ s.defs.map Prod.fst then s.defs else (n, expr) :: s.defs⟩
  | .get_symbol_with_use_count expr => (get_symbol true expr s.worker).map fun r => ⟨r.2, s.defs⟩
  | .clear => some ⟨s.worker.clear, []⟩

/-- Runs of a worker. -/
def State.system (kernel : String) : System State Call :=
  System.ofNext (fun s => ∃ serial_number, s = ⟨.initial kernel serial_number, []⟩) State.next

/-- **A name stands for an expression**: it is declared once, and what it is declared to be has the value of the
expression, whatever the values of the symbols are. -/
structure Stands (names : List String) (s : State) (n : String) (e : ex) : Prop where
  once : (s.worker.decls.map Prod.fst).count n = 1
  denotes : ∀ (K : Type) [Field K] (F : Functions K) (val : String → K), ∃ ρ text,
    declare F.apply s.worker.decls (env names val) = some ρ ∧ (n, text) ∈ s.worker.decls ∧
      eval F.apply ρ text = some (value F (extend F val s.defs) e)

/-- **What a call of `parse` with a name is to do**: afterwards the name stands for the expression. When it is in use
for another expression there is an exception. -/
def Honours (names : List String) (s : State) (e : ex) (n : String) : Prop :=
  match s.next (.parse e (some n)) with
  | some s' => (∀ e', (n, e') ∈ s.defs → e' = e) ∧ Stands names s' n e
  | none => ∃ e', (n, e') ∈ s.defs ∧ e' ≠ e

/-- In the pool the name is not in use for another expression, and its declaration is not skipped. -/
def Free (s : State) (e : ex) (n : String) : Prop := (∀ e', (n, e') ∈ s.defs → e' = e) ∧ ¬ Skips e n s.worker

section Runs

variable {kernel : String} (S : Symbols kernel)

/-- A name that is no symbol of the model, and no temporary. -/
def Nameable (n : String) : Prop := n ∉ S.names ∧ ¬ Reserved kernel n

/-- Expressions are supported, over symbols that are in scope, and names are free. -/
def Allowed (s : State) : Call → Prop
  | .parse expr none => Good (s.known S.names) expr
  | .parse expr (some n) => Good (s.known S.names) expr ∧ Nameable S n ∧ Free s expr n
  | .get_symbol_with_use_count expr => expr.Every (ex.Over (s.known S.names))
  | .clear => True

/-- What holds between two calls. -/
structure Kept (s : State) : Prop where
  same_kernel : s.worker.temporary_name_kernel = kernel
  used : ∀ x, s.worker.Used S.names x → x ∈ S.names ∨ Reserved kernel x ∨ x ∈ s.defs.map Prod.fst
  nameable : ∀ d ∈ s.defs, Nameable S d.1
  scope : ∀ d ∈ s.defs, d.2.Every (ex.Over (s.known S.names))
  unique : (s.defs.map Prod.fst).Nodup
  /-- The expressions have been entered, and declared. -/
  entered : ∀ d ∈ s.defs, d.2.Every (Entered s.worker.look fun _ symbol => s.worker.Declared S.names symbol)
  titled : ∀ d ∈ s.defs, Titled d.1 s.worker d.2
  sound : ∀ (K : Type) [Field K] (F : Functions K) (val : String → K), ∃ σ, State.Sound S.names F val s σ ∧
    (∀ x ∈ S.names, extend F val s.defs x = val x) ∧
      ∀ d ∈ s.defs, extend F val s.defs d.1 = value F (extend F val s.defs) d.2

variable {S} {s s' : State} {c : cse} {e : ex} {n : String}

/-- The pool is filled, but no name is given. -/
theorem Kept.fill (h : Kept S s) (hext : Extends S.names s.worker c)
    (hused : ∀ x, c.Used S.names x → s.worker.Used S.names x ∨ Reserved kernel x)
    (hnamed : ∀ m ∈ s.worker.named_symbols, m ∈ c.named_symbols)
    (hsound : ∀ (K : Type) [Field K] (F : Functions K) (val : String → K) (σ : String → Option K),
      State.Sound S.names F val s σ → ∃ σ', State.Sound S.names F val ⟨c, s.defs⟩ σ') : Kept S ⟨c, s.defs⟩ where
  same_kernel := hext.kernel.trans h.same_kernel
  used x hx := (hused x hx).elim (h.used x) fun hres => .inr (.inl hres)
  nameable := h.nameable
  scope := h.scope
  unique := h.unique
  entered d hd := every_entered_mono hext.look (fun _ _ => hext.declared _) (h.entered d hd)
  titled d hd := (h.titled d hd).mono (h.entered d hd) hext hnamed
  sound K _ F val := by
    obtain ⟨σ, hσ, hvalues⟩ := h.sound K F val
    obtain ⟨σ', hσ'⟩ := hsound K F val σ hσ
    exact ⟨σ', hσ', hvalues⟩

/-- Nothing has been parsed. -/
theorem Kept.empty (hkernel : c.temporary_name_kernel = kernel) (hsymbols : c.symbols = []) (hdecls : c.decls = []) :
    Kept S ⟨c, []⟩ where
  same_kernel := hkernel
  used x hx := .inl (by simpa [cse.Used, cse.Declared, hsymbols, hdecls] using hx)
  nameable d hd := by cases hd
  scope d hd := by cases hd
  unique := List.nodup_nil
  entered d hd := by cases hd
  titled d hd := by cases hd
  sound K _ F val := by
    refine ⟨env S.names val, ?_, fun _ _ => rfl, fun d hd => by cases hd⟩
    rw [State.Sound, State.known, List.map_nil, List.append_nil]
    exact sound_empty hsymbols hdecls (hkernel ▸ S.unreserved)

theorem Kept.isNew (h : Kept S s) (hn : Nameable S n) (hnew : n ∉ s.defs.map Prod.fst) :
    s.worker.IsNew S.names n := by
  refine ⟨fun hu => ?_, h.same_kernel ▸ hn.2⟩
  obtain hmem | hres | hdef := h.used n hu
  · exact hn.1 hmem
  · exact hn.2 hres
  · exact hnew hdef

theorem isNew_nil (h : c.IsNew S.names n) : c.IsNew [] n :=
  ⟨fun hu => h.1 (hu.imp_left fun hd => hd.imp_left fun hmem => absurd hmem List.not_mem_nil), h.2⟩

/-- A name that has been given is declared. -/
theorem Kept.declared (h : Kept S s) {d : String × ex} (hd : d ∈ s.defs) : s.worker.Declared [] d.1 := by
  obtain ⟨σ, hσ, -⟩ := h.sound ℚ .rational fun _ => 0
  have hknown : d.1 ∈ s.known S.names := List.mem_append_right _ (List.mem_map_of_mem hd)
  exact (hσ.known d.1 hknown).1.imp_left fun hmem => absurd hmem (h.nameable d hd).1

theorem Kept.written (h : Kept S s) {d : String × ex} (hd : d ∈ s.defs) {t : ex} (ht : t ∈ d.2.postorder) :
    Written s.worker t := by
  obtain ⟨σ, hσ, -⟩ := h.sound ℚ .rational fun _ => 0
  obtain ⟨text, ds, symbol, hprint, hlook, hdeclared⟩ := h.entered d hd t ht
  obtain ⟨r, hfind, rfl⟩ := cse.find_of_look hlook
  exact ⟨text, ds, r, hprint, hfind, (hσ.written r (cse.mem_of_find hfind).1).mpr hdeclared⟩

/-- An expression is given its name again. -/
theorem Kept.again (h : Kept S s) {d : String × ex} (hd : d ∈ s.defs) :
    parse d.2 (some d.1) s.worker = some s.worker := by
  refine parse_loop_again (fun t ht => h.written hd ht) fun t ht => ?_
  rw [ex.postorder_eq, List.getLast?_concat] at ht
  obtain rfl := Option.some.inj ht
  exact h.titled d hd

/-- **A new name** is given. -/
theorem Kept.name (h : Kept S s) (he : Good (s.known S.names) e) (hn : Nameable S n) (hnew : n ∉ s.defs.map Prod.fst)
    (hskips : ¬ Skips e n s.worker) (hparse : parse e (some n) s.worker = some c) : Kept S ⟨c, (n, e) :: s.defs⟩ := by
  have hisNew := h.isNew hn hnew
  have hdeclared : n ∈ c.decls.map Prod.fst :=
    declared_nil_iff.mp ((declared_parse_iff (isNew_nil hisNew) hparse).mpr hskips)
  have hname : ∀ m, some n = some m → s.worker.IsNew S.names m := by
    rintro _ ⟨⟩
    exact hisNew
  have hknown : n ∉ s.known S.names := fun hmem => (List.mem_append.mp hmem).elim hn.1 hnew
  have inScope : e.Every (ex.Over (s.known S.names)) := fun t ht => (he t ht).2.2
  have hscope : ∀ x ∈ s.known S.names, x ∈ State.known S.names ⟨c, (n, e) :: s.defs⟩ := fun x hx =>
    (List.mem_append.mp hx).elim (List.mem_append_left _) fun hx =>
      List.mem_append_right _ (List.mem_cons_of_mem _ hx)
  -- what does not depend on the values of the symbols
  obtain ⟨σ, hσ, -⟩ := h.sound ℚ .rational fun _ => 0
  obtain ⟨c', σ', hparse', -, hext, -, hcov, -⟩ := Sound.parse hσ he hname
  cases hparse.symm.trans hparse'
  have hentered : ∀ d ∈ s.defs, d.2.Every (Entered c.look fun _ symbol => c.Declared S.names symbol) := fun d hd =>
    every_entered_mono hext.look (fun _ _ => hext.declared _) (h.entered d hd)
  refine ⟨hext.kernel.trans h.same_kernel, fun x hx => ?_, ?_, ?_, List.nodup_cons.mpr ⟨hnew, h.unique⟩, ?_, ?_, ?_⟩
  · obtain hused | hres | hx := used_parse_loop hparse hx
    · exact (h.used x hused).imp_right fun h => h.imp_right (List.mem_cons_of_mem _)
    · exact .inr (.inl (h.same_kernel ▸ hres))
    · exact .inr (.inr (by simp [Option.some.inj hx]))
  · exact List.forall_mem_cons.mpr ⟨hn, h.nameable⟩
  · refine List.forall_mem_cons.mpr ⟨fun t ht => ex.over_mono hscope (inScope t ht), fun d hd t ht => ?_⟩
    exact ex.over_mono hscope (h.scope d hd t ht)
  · exact List.forall_mem_cons.mpr ⟨every_entered_mono (fun _ _ => id) (fun _ _ hs => hs.2 rfl) hcov, hentered⟩
  · refine List.forall_mem_cons.mpr ⟨hσ.titled he hparse, fun d hd => (h.titled d hd).mono (h.entered d hd) hext ?_⟩
    exact fun m => mem_named_symbols_parse_loop hparse
  · intro K _ F val
    obtain ⟨σ, hσ, hval, hdefs⟩ := h.sound K F val
    have hstep : Step S.names s ⟨c, if n ∈ c.decls.map Prod.fst then (n, e) :: s.defs else s.defs⟩ :=
      .define he hisNew hparse
    rw [if_pos hdeclared] at hstep
    obtain ⟨σ', hσ', -, -, keeps⟩ := hstep.sound hσ
    have hvalue : ∀ {t : ex}, t.Every (ex.Over (s.known S.names)) →
        value F (extend F val ((n, e) :: s.defs)) t = value F (extend F val s.defs) t :=
      value_congr fun x hx => (keeps x hx).2
    refine ⟨σ', hσ', fun x hx => ?_, List.forall_mem_cons.mpr ⟨?_, fun d hd => ?_⟩⟩
    · rw [(keeps x (List.mem_append_left _ hx)).2, hval x hx]
    · rw [hvalue inScope, extend, Function.update_self]
    · rw [(keeps d.1 (List.mem_append_right _ (List.mem_map_of_mem hd))).2, hvalue (h.scope d hd), hdefs d hd]

/-- **A call** keeps what holds. -/
theorem Kept.next (h : Kept S s) {a : Call} (hallowed : Allowed S s a) (hrun : s.next a = some s') : Kept S s' := by
  cases a with
  | parse expr name =>
    cases name with
    | none =>
      obtain ⟨c, hparse, rfl⟩ := Option.map_eq_some_iff.mp hrun
      have hname : ∀ m, none = some m → s.worker.IsNew S.names m := by
        rintro _ ⟨⟩
      obtain ⟨σ, hσ, -⟩ := h.sound ℚ .rational fun _ => 0
      obtain ⟨c', -, hparse', -, hext, -⟩ := Sound.parse hσ hallowed hname
      cases hparse.symm.trans hparse'
      refine h.fill hext (fun x hx => ?_) (fun m => mem_named_symbols_parse_loop hparse) fun K _ F val σ hσ => ?_
      · obtain hused | hres | hx := used_parse_loop hparse hx
        · exact .inl hused
        · exact .inr (h.same_kernel ▸ hres)
        · cases hx
      · obtain ⟨σ', hσ', -⟩ := (Step.parse hallowed hparse).sound hσ
        exact ⟨σ', hσ'⟩
    | some n =>
      obtain ⟨he, hn, hfree, hskips⟩ := hallowed
      obtain ⟨c, hparse, rfl⟩ := Option.map_eq_some_iff.mp hrun
      by_cases hdef : n ∈ s.defs.map Prod.fst
      · obtain ⟨⟨n, e'⟩, hd, rfl⟩ := List.mem_map.mp hdef
        obtain rfl := hfree e' hd
        cases hparse.symm.trans (h.again hd)
        rw [if_pos hdef]
        exact h
      · rw [if_neg hdef]
        exact h.name he hn hdef hskips hparse
  | get_symbol_with_use_count expr =>
    obtain ⟨⟨text, c⟩, hget, rfl⟩ := Option.map_eq_some_iff.mp hrun
    obtain ⟨σ, hσ, -⟩ := h.sound ℚ .rational fun _ => 0
    obtain ⟨-, hext, -⟩ := Sound.get_symbol hσ hallowed hget
    have hcount : ∃ ds, c = s.worker.count true ds := by
      rw [get_symbol_eq_shown expr rfl] at hget
      obtain ⟨r, -, heq⟩ := Option.map_eq_some_iff.mp hget
      cases heq
      exact ⟨_, rfl⟩
    obtain ⟨ds, rfl⟩ := hcount
    refine h.fill hext (fun x hx => .inl ((used_deposits s.worker ds).mp hx)) (fun m hm => ?_) fun K _ F val σ hσ => ?_
    · exact (named_symbols_deposits s.worker ds).symm ▸ hm
    · obtain ⟨σ', hσ', -⟩ := (Step.get_symbol hallowed hget).sound hσ
      exact ⟨σ', hσ'⟩
  | clear =>
    obtain rfl := Option.some.inj hrun
    exact .empty h.same_kernel rfl rfl

/-- A name that has been given stands for its expression. -/
theorem Kept.stands (h : Kept S s) {d : String × ex} (hd : d ∈ s.defs) : Stands S.names s d.1 d.2 := by
  have hmem : d.1 ∈ s.worker.decls.map Prod.fst := declared_nil_iff.mp (h.declared hd)
  have hvalues : ∀ (K : Type) [Field K] (F : Functions K) (val : String → K), ∃ ρ,
      declare F.apply s.worker.decls (env S.names val) = some ρ ∧ ρ d.1 = some (value F (extend F val s.defs) d.2) := by
    intro K _ F val
    obtain ⟨σ, hσ, hval, hdefs⟩ := h.sound K F val
    obtain ⟨ρ, hρ, hle⟩ := hσ.decls
    rw [env_congr hval] at hρ
    obtain ⟨v, hv⟩ := Option.isSome_iff_exists.mp ((isSome_of_declare hρ).mpr (.inr hmem))
    have hknown := (hσ.known d.1 (List.mem_append_right _ (List.mem_map_of_mem hd))).2
    exact ⟨ρ, hρ, by rw [hv, ← hle _ _ hv, hknown, hdefs d hd]⟩
  obtain ⟨ρ, hρ, -⟩ := hvalues ℚ .rational fun _ => 0
  refine ⟨List.count_eq_one_of_mem (nodup_of_declare hρ) hmem, fun K _ F val => ?_⟩
  obtain ⟨ρ, hρ, hv⟩ := hvalues K F val
  obtain ⟨⟨x, text⟩, htext, hx⟩ := List.mem_map.mp hmem
  obtain rfl : x = d.1 := hx
  exact ⟨ρ, text, hρ, htext, by rw [eval_of_mem_declare hρ htext, hv]⟩

theorem Kept.honours_iff (h : Kept S s) (he : Good (s.known S.names) e) (hn : Nameable S n) :
    Honours S.names s e n ↔ Free s e n := by
  obtain ⟨c, hparse⟩ := Option.isSome_iff_exists.mp (isSome_parse he (some n) s.worker)
  have hrun : s.next (.parse e (some n)) =
      some ⟨c, if n ∈ s.defs.map Prod.fst then s.defs else (n, e) :: s.defs⟩ := by
    rw [State.next, hparse, Option.map_some]
  simp only [Honours, hrun, Free]
  refine and_congr_right fun hsame => ?_
  by_cases hdef : n ∈ s.defs.map Prod.fst
  · obtain ⟨⟨n, e'⟩, hd, rfl⟩ := List.mem_map.mp hdef
    obtain rfl := hsame e' hd
    refine iff_of_true ?_ (not_skips_of_declared (h.declared hd))
    cases hparse.symm.trans (h.again hd)
    rw [if_pos hdef]
    exact h.stands hd
  · rw [if_neg hdef]
    refine ⟨fun hstands => ?_, fun hskips => (h.name he hn hdef hskips hparse).stands List.mem_cons_self⟩
    rw [← declared_parse_iff (isNew_nil (h.isNew hn hdef)) hparse, declared_nil_iff]
    exact List.count_pos_iff.mp (hstands.once ▸ Nat.one_pos)

/-- **Named expressions**: in every pool of every such run each name stands for its expression, and a call of `parse`
does what it is to do if and only if the name is free. -/
theorem names_stand_iff (h : ((State.system kernel).restrict (Allowed S)).Reachable s) :
    (∀ d ∈ s.defs, Stands S.names s d.1 d.2) ∧
      ∀ e n, Good (s.known S.names) e → Nameable S n → (Honours S.names s e n ↔ Free s e n) := by
  have hkept : Kept S s := by
    refine System.Invariant.reachable (I := Kept S) ⟨?_, ?_⟩ h
    · rintro s ⟨serial_number, rfl⟩
      exact .empty rfl rfl rfl
    · rintro s a s' hs ⟨hallowed, hrun⟩
      exact hs.next hallowed hrun
  exact ⟨fun d hd => hkept.stands hd, fun e n he hn => hkept.honours_iff he hn⟩

theorem power_symbols_nameable {n : String} (hmem : n ∉ power_symbols.names) (hlength : n.length < 4) :
    Nameable power_symbols n := by
  refine ⟨hmem, fun h => ?_⟩
  have hreserved := h.length
  have hkernel : "_t".length = 2 := by decide
  omega

theorem good_symbol {known : List String} {x : String} (h : x ∈ known) : Good known (.symbol x) := by
  intro t ht
  obtain rfl := List.mem_singleton.mp ht
  exact ⟨trivial, trivial, h⟩

/-- An expression that is in the table is given a name. -/
theorem named_alias : ∃ s : State, s.worker.decls = [("_t_0_0", [.var "x"]), ("V", [.var "_t_0_0"])] ∧
    Stands power_symbols.names s "V" (.symbol "x") := by
  obtain ⟨s₁, h₁⟩ : ∃ s₁, State.next ⟨.initial "_t" 0, []⟩ (.parse (.symbol "x") none) = some s₁ := ⟨_, rfl⟩
  obtain ⟨s₂, h₂, hdecls, hdefs⟩ : ∃ s₂, s₁.next (.parse (.symbol "x") (some "V")) = some s₂ ∧
      s₂.worker.decls = [("_t_0_0", [.var "x"]), ("V", [.var "_t_0_0"])] ∧ s₂.defs = [("V", .symbol "x")] := by
    obtain rfl := Option.some.inj h₁
    exact ⟨_, rfl, by decide, rfl⟩
  have hfree : Free s₁ (.symbol "x") "V" := by
    obtain rfl := Option.some.inj h₁
    refine ⟨fun e' he' => absurd he' List.not_mem_nil, ?_⟩
    rintro ⟨c₁, r, hrun, -, _, -, -, hmem, -⟩
    obtain rfl := Option.some.inj hrun
    cases hmem
  have hgood : ∀ s : State, Good (s.known power_symbols.names) (.symbol "x") := fun s =>
    good_symbol (List.mem_append_left _ List.mem_cons_self)
  have hallowed₁ : Allowed power_symbols ⟨.initial "_t" 0, []⟩ (.parse (.symbol "x") none) := hgood _
  have hallowed₂ : Allowed power_symbols s₁ (.parse (.symbol "x") (some "V")) :=
    ⟨hgood _, power_symbols_nameable (by decide) (by decide), hfree⟩
  have hreach : ((State.system "_t").restrict (Allowed power_symbols)).Reachable s₂ :=
    ⟨_, _, ⟨0, rfl⟩, .snoc (.snoc .nil ⟨hallowed₁, h₁⟩) ⟨hallowed₂, h₂⟩⟩
  exact ⟨s₂, hdecls, (names_stand_iff hreach).1 ("V", .symbol "x") (by rw [hdefs]; exact List.mem_singleton_self _)⟩

/-- In the second pool the name is not declared, and in one pool it is declared to be two expressions. -/
theorem not_honours :
    (∃ s, (State.system "_t").Reachable s ∧ Good (s.known power_symbols.names) (.symbol "x") ∧
      Nameable power_symbols "V" ∧ ¬ Honours power_symbols.names s (.symbol "x") "V") ∧
    ∃ s, (State.system "_t").Reachable s ∧ Good (s.known power_symbols.names) (.symbol "n") ∧
      Nameable power_symbols "V" ∧ ¬ Honours power_symbols.names s (.symbol "n") "V" := by
  have hnameable : Nameable power_symbols "V" := power_symbols_nameable (by decide) (by decide)
  constructor
  · obtain ⟨s, hs, hnext⟩ : ∃ s, [Call.parse (.symbol "x") none, .parse (.symbol "x") (some "V"), .clear,
        .parse (.symbol "x") none].foldlM State.next ⟨.initial "_t" 0, []⟩ = some s ∧
          ∃ s', s.next (.parse (.symbol "x") (some "V")) = some s' ∧
            s'.worker.decls = [("_t_1_0", [.var "x"])] := ⟨_, rfl, _, rfl, by decide⟩
    refine ⟨s, ⟨_, _, ⟨0, rfl⟩, System.run_ofNext_of_foldlM hs⟩,
      good_symbol (List.mem_append_left _ List.mem_cons_self), hnameable, fun h => ?_⟩
    obtain ⟨s', hrun, hdecls⟩ := hnext
    rw [Honours, hrun] at h
    have honce := h.2.once
    rw [hdecls] at honce
    revert honce
    decide
  · obtain ⟨s, hs, hnext⟩ : ∃ s, [Call.parse (.symbol "x") (some "V")].foldlM State.next ⟨.initial "_t" 0, []⟩ = some s ∧
        ("V", ex.symbol "x") ∈ s.defs ∧ ∃ s', s.next (.parse (.symbol "n") (some "V")) = some s' :=
      ⟨_, rfl, List.mem_singleton_self _, _, rfl⟩
    refine ⟨s, ⟨_, _, ⟨0, rfl⟩, System.run_ofNext_of_foldlM hs⟩,
      good_symbol (List.mem_append_left _ (by decide)), hnameable, fun h => ?_⟩
    obtain ⟨hdef, s', hrun⟩ := hnext
    rw [Honours, hrun] at h
    exact absurd (ex.symbol.inj (h.1 _ hdef)) (by decide)

end Runs

end Cse

end CppTransport.Translator
