import CppTransport.Translator.SubexpressionTable
import CppTransport.Library.Transition

/-!
# The order of declarations

The declarations of a pool are written in the order in which they are deposited, so that a
temporary has to be deposited before anything that mentions it. Here nothing is assumed of the
expressions but that their symbols do not look like temporaries: powers may have any exponents,
and functions may be unknown.

The temporaries are those that a worker makes, and the names that were given to expressions in
the pool. `Follows` says that some declarations can come after others, `Tidy` is what holds of the
table between two calls, and `Advances` what a call does: it deposits declarations in order.
`Skips` is the exception, a call of `parse` that does not declare the name it is given.
-/

namespace CppTransport.Translator

open Library Library.Infix

namespace Cse

/-! ### Temporaries -/

theorem isDigit_of_mem_toString {n : ℕ} {ch : Char} (h : ch ∈ (toString n).toList) : ch.isDigit = true := by
  rw [show (toString n).toList = Nat.toDigits 10 n from Nat.toList_repr] at h
  exact Nat.isDigit_of_mem_toDigits (by decide) (by decide) h

/-- Texts without a separator, and what comes after it. -/
theorem append_cons_inj {α : Type} {sep : α} {l l' r r' : List α} (hl : sep ∉ l) (hl' : sep ∉ l')
    (h : l ++ sep :: r = l' ++ sep :: r') : l = l' ∧ r = r' := by
  induction l generalizing l' with
  | nil =>
    cases l' with
    | nil => simpa using h
    | cons a l' =>
      obtain ⟨rfl, -⟩ : sep = a ∧ _ := by simpa using h
      exact absurd List.mem_cons_self hl'
  | cons a l ih =>
    cases l' with
    | nil =>
      obtain ⟨rfl, -⟩ : a = sep ∧ _ := by simpa using h
      exact absurd List.mem_cons_self hl
    | cons b l' =>
      obtain ⟨rfl, htail⟩ : a = b ∧ l ++ sep :: r = l' ++ sep :: r' := by simpa using h
      obtain ⟨rfl, rfl⟩ := ih (fun hm => hl (List.mem_cons_of_mem _ hm)) (fun hm => hl' (List.mem_cons_of_mem _ hm))
        htail
      exact ⟨rfl, rfl⟩

/-- A temporary has one serial number and one counter. -/
theorem temporary_inj {kernel : String} {i j m n : ℕ} (h : temporary kernel i m = temporary kernel j n) :
    i = j ∧ m = n := by
  have hchars :
      (toString i).toList ++ '_' :: (toString m).toList = (toString j).toList ++ '_' :: (toString n).toList := by
    have h := congrArg String.toList h
    simp only [temporary, String.toList_append, List.append_assoc] at h
    simpa using h
  have hsep (n : ℕ) : '_' ∉ (toString n).toList := fun hm => absurd (isDigit_of_mem_toString hm) (by decide)
  obtain ⟨hi, -⟩ := append_cons_inj (hsep i) (hsep j) hchars
  have hij : i = j := by
    have hi : Nat.toDigits 10 i = Nat.toDigits 10 j := by rwa [← Nat.toList_repr, ← Nat.toList_repr]
    rw [← Nat.ofDigitChars_ten_toDigits (n := i), hi, Nat.ofDigitChars_ten_toDigits]
  subst hij
  exact ⟨rfl, temporary_injective h⟩

/-- What a worker makes, or was given in the pool. -/
def IsTemporary (kernel : String) (given : List String) (x : String) : Prop := Reserved kernel x ∨ x ∈ given

/-- Some declarations can come after symbols have been declared. -/
def Follows (kernel : String) (given : List String) : List String → List (String × Text) → Prop
  | _, [] => True
  | declared, (x, text) :: ds =>
    (∀ y ∈ vars text, IsTemporary kernel given y → y ∈ declared) ∧ Follows kernel given (declared ++ [x]) ds

section Follows

variable {kernel : String} {given declared : List String} {ds ds' : List (String × Text)}

theorem follows_append : Follows kernel given declared (ds ++ ds') ↔
    Follows kernel given declared ds ∧ Follows kernel given (declared ++ ds.map Prod.fst) ds' := by
  induction ds generalizing declared with
  | nil => simp [Follows]
  | cons d ds ih => simp [Follows, ih, and_assoc]

/-- What is deposited is in order. -/
def Grows (kernel : String) (given : List String) (c c' : cse) : Prop :=
  ∃ ds, c'.decls = c.decls ++ ds ∧ Follows kernel given (c.decls.map Prod.fst) ds

variable {c c' c'' : cse} {r : symbol_record} {x s : String}

theorem Grows.of_decls_eq (h : c'.decls = c.decls) : Grows kernel given c c' := ⟨[], by simp [h], trivial⟩

theorem Grows.trans (h : Grows kernel given c c') (h' : Grows kernel given c' c'') : Grows kernel given c c'' := by
  obtain ⟨ds, hds, hf⟩ := h
  obtain ⟨ds', hds', hf'⟩ := h'
  rw [hds, List.map_append] at hf'
  exact ⟨ds ++ ds', by rw [hds', hds, List.append_assoc], follows_append.mpr ⟨hf, hf'⟩⟩

theorem grows_deposit (h : ∀ y ∈ vars r.target, IsTemporary kernel given y → y ∈ c.decls.map Prod.fst) :
    Grows kernel given c (c.deposit r) := by
  unfold cse.deposit
  split_ifs
  · exact .of_decls_eq rfl
  · exact ⟨[(r.symbol, r.target)], rfl, h, trivial⟩

theorem grows_assign (h : IsTemporary kernel given s → s ∈ c.decls.map Prod.fst) :
    Grows kernel given c (c.assign x s) := by
  refine ⟨[(x, [.var s])], rfl, fun y hy => ?_, trivial⟩
  obtain rfl : y = s := by simpa [vars] using hy
  exact h

end Follows

/-! ### The table between calls -/

/-- What holds of the table of a worker. -/
structure Tidy (kernel : String) (c : cse) : Prop where
  same_kernel : c.temporary_name_kernel = kernel
  keys : (c.symbols.map (·.target)).Nodup
  /-- The next temporaries are new. -/
  fresh : ∀ k, c.symbol_counter ≤ k → ¬ c.Used [] (temporary kernel c.serial_number k)
  /-- A temporary stands for one text. -/
  distinct : ∀ r ∈ c.symbols, ∀ r' ∈ c.symbols, r.symbol = r'.symbol → Reserved kernel r.symbol → r = r'
  written : ∀ r ∈ c.symbols, r.written = true → c.Declared [] r.symbol
  unwritten : ∀ r ∈ c.symbols, Reserved kernel r.symbol → c.Declared [] r.symbol → r.written = true
  /-- No temporary is declared twice. -/
  once : ∀ x, Reserved kernel x → (c.decls.map Prod.fst).count x ≤ 1

theorem declared_nil_iff {c : cse} {x : String} : c.Declared [] x ↔ x ∈ c.decls.map Prod.fst := by
  simp [cse.Declared]

@[simp] theorem cse.serial_number_symbol_name (c : cse) (name : Option String) (last : Bool) :
    (c.symbol_name name last).2.serial_number = c.serial_number := by
  unfold symbol_name
  split <;> rfl

theorem cse.symbol_counter_deposits (c : cse) (ds : List Text) :
    (c.deposits ds).symbol_counter = c.symbol_counter := by
  induction ds generalizing c with
  | nil => rfl
  | cons text ds ih =>
    rw [deposits, List.foldl_cons, ← deposits, ih]
    cases c.find text with
    | none => rfl
    | some r => exact c.symbol_counter_deposit r

section Tidy

variable {kernel : String} {given : List String} {c c' : cse} {r : symbol_record} {x s : String} {text : Text}
  {name : Option String}

theorem tidy_empty (hkernel : c.temporary_name_kernel = kernel) (hsymbols : c.symbols = []) (hdecls : c.decls = []) :
    Tidy kernel c := by
  refine ⟨hkernel, by simp [hsymbols], fun k _ hu => ?_, by simp [hsymbols], by simp [hsymbols], by simp [hsymbols],
    by simp [hdecls]⟩
  simp [cse.Used, cse.Declared, hsymbols, hdecls] at hu

/-- A record is the only one with its text. -/
theorem Tidy.eq_of_target (h : Tidy kernel c) {r r' : symbol_record} (hr : r ∈ c.symbols) (hr' : r' ∈ c.symbols)
    (heq : r.target = r'.target) : r = r' := List.inj_on_of_nodup_map h.keys hr hr' heq

theorem Tidy.make_symbol (h : Tidy kernel c) : Tidy kernel c.make_symbol.2 :=
  ⟨h.same_kernel, h.keys, fun k hk => h.fresh k (Nat.le_of_succ_le hk), h.distinct, h.written, h.unwritten, h.once⟩

/-- The symbol of a new record. -/
theorem Tidy.symbol_name (h : Tidy kernel c) (last : Bool) (hname : ∀ n, name = some n → ¬ Reserved kernel n) :
    Tidy kernel (c.symbol_name name last).2 ∧ (c.symbol_name name last).2.decls = c.decls ∧
      (Reserved kernel (c.symbol_name name last).1 → ¬ c.Used [] (c.symbol_name name last).1 ∧
        ∀ k, (c.symbol_name name last).2.symbol_counter ≤ k →
          temporary kernel (c.symbol_name name last).2.serial_number k ≠ (c.symbol_name name last).1) ∧
      (last = true → ∀ n, name = some n → (c.symbol_name name last).1 = n) := by
  unfold cse.symbol_name
  split
  · exact ⟨h, rfl, fun hres => absurd hres (hname _ rfl), fun _ n hn => Option.some.inj hn⟩
  · rename_i hnot
    refine ⟨h.make_symbol, rfl, fun _ => ⟨?_, fun k hk heq => ?_⟩, fun hlast n hn => (hnot n hn hlast).elim⟩
    · rw [cse.make_symbol, h.same_kernel]
      exact h.fresh _ le_rfl
    · rw [cse.make_symbol, h.same_kernel] at heq
      exact absurd (temporary_inj heq).2 (Nat.ne_of_gt hk)

/-- A text is entered under a new symbol. -/
theorem Tidy.emplace (h : Tidy kernel c) (hwritten : r.written = false) (hfind : c.find r.target = none)
    (hnew : Reserved kernel r.symbol → ¬ c.Used [] r.symbol ∧
      ∀ k, c.symbol_counter ≤ k → temporary kernel c.serial_number k ≠ r.symbol) : Tidy kernel (c.emplace r) := by
  have hmem (r' : symbol_record) (hr' : r' ∈ (c.emplace r).symbols) : r' ∈ c.symbols ∨ r' = r := by
    simpa [cse.emplace] using hr'
  refine ⟨h.same_kernel, ?_, fun k hk hu => ?_, fun r₁ h₁ r₂ h₂ heq hres => ?_, fun r' hr' hw => ?_,
    fun r' hr' hres hd => ?_, h.once⟩
  · rw [cse.emplace, List.map_append, List.map_singleton, List.nodup_append]
    refine ⟨h.keys, List.nodup_singleton _, fun t ht t' ht' heq => ?_⟩
    obtain ⟨r', hr', rfl⟩ := List.mem_map.mp ht
    rw [List.mem_singleton.mp ht'] at heq
    simpa [heq] using List.find?_eq_none.mp hfind r' hr'
  · rcases cse.used_emplace.mp hu with hu | hu
    · exact h.fresh k hk hu
    · exact (hnew ⟨_, _, hu.symm⟩).2 k hk hu
  · rcases hmem r₁ h₁ with old₁ | rfl <;> rcases hmem r₂ h₂ with old₂ | rfl
    · exact h.distinct _ old₁ _ old₂ heq hres
    · exact absurd (.inr (heq ▸ List.mem_map_of_mem old₁)) (hnew (heq ▸ hres)).1
    · exact absurd (.inr (heq ▸ List.mem_map_of_mem old₂)) (hnew hres).1
    · rfl
  · rcases hmem r' hr' with hr' | rfl
    · exact h.written _ hr' hw
    · simp [hwritten] at hw
  · rcases hmem r' hr' with hr' | rfl
    · exact h.unwritten _ hr' hres hd
    · exact absurd (.inl hd) (hnew hres).1

/-- A text of the table is declared, if it is not yet. -/
theorem Tidy.deposit (h : Tidy kernel c) (hr : r ∈ c.symbols) :
    Tidy kernel (c.deposit r) ∧ (c.deposit r).Declared [] r.symbol := by
  by_cases hw : r.written = true
  · rw [cse.deposit, if_pos hw]
    exact ⟨h, h.written r hr hw⟩
  have hdeclared (y : String) : (c.deposit r).Declared [] y ↔ c.Declared [] y ∨ y = r.symbol := cse.declared_deposit hw
  refine ⟨⟨?_, ?_, fun k hk hu => ?_, fun r₁ h₁ r₂ h₂ heq hres => ?_, fun r' hr' hw' => ?_, fun r' hr' hres hd => ?_,
    fun y hy => ?_⟩, (hdeclared _).mpr (.inr rfl)⟩
  · rw [cse.temporary_name_kernel_deposit]
    exact h.same_kernel
  · rw [c.map_symbols_deposit r fun _ => rfl]
    exact h.keys
  · rw [cse.symbol_counter_deposit] at hk
    rw [cse.serial_number_deposit, cse.used_deposit hr] at hu
    exact h.fresh k hk hu
  · obtain ⟨q₁, hq₁, ht₁, hs₁, hw₁⟩ := c.mem_symbols_deposit r h₁
    obtain ⟨q₂, hq₂, ht₂, hs₂, hw₂⟩ := c.mem_symbols_deposit r h₂
    obtain rfl := h.distinct q₁ hq₁ q₂ hq₂ (by rw [← hs₁, ← hs₂, heq]) (hs₁ ▸ hres)
    have hflag : r₁.written = r₂.written := Bool.eq_iff_iff.mpr (hw₁.trans hw₂.symm)
    cases r₁
    cases r₂
    simp_all
  · obtain ⟨q, hq, ht, hs, hflag⟩ := c.mem_symbols_deposit r hr'
    rw [hs, hdeclared]
    rcases hflag.mp hw' with hqw | ⟨heq, -⟩
    · exact .inl (h.written q hq hqw)
    · exact .inr (by rw [h.eq_of_target hq hr heq])
  · obtain ⟨q, hq, ht, hs, hflag⟩ := c.mem_symbols_deposit r hr'
    rw [hs] at hres hd
    refine hflag.mpr (((hdeclared _).mp hd).imp (h.unwritten q hq hres) fun heq => ⟨?_, by simpa using hw⟩)
    rw [h.distinct q hq r hr heq hres]
  · rw [cse.deposit, if_neg hw]
    simp only [List.map_append, List.count_append, List.map_cons, List.map_nil, List.count_singleton]
    split_ifs with heq
    · obtain rfl : r.symbol = y := by simpa using heq
      have hnot : r.symbol ∉ c.decls.map Prod.fst := fun hm => hw (h.unwritten r hr hy (declared_nil_iff.mpr hm))
      rw [List.count_eq_zero.mpr hnot]
    · exact h.once y hy

/-- A name is declared to be a symbol of the table. -/
theorem Tidy.assign (h : Tidy kernel c) (hx : ¬ Reserved kernel x) : Tidy kernel (c.assign x s) := by
  refine ⟨h.same_kernel, h.keys, fun k hk hu => ?_, h.distinct, fun r hr hw => ?_, fun r hr hres hd => ?_,
    fun y hy => ?_⟩
  · exact (cse.used_assign.mp hu).elim (h.fresh k hk) fun heq => hx ⟨_, _, heq.symm⟩
  · exact cse.declared_assign.mpr (.inl (h.written r hr hw))
  · exact h.unwritten r hr hres ((cse.declared_assign.mp hd).resolve_right fun heq => hx (heq ▸ hres))
  · have hne : x ≠ y := fun heq => hx (heq ▸ hy)
    simpa [cse.assign, hne] using h.once y hy

/-- What a call does to the worker, while a pool is filled. -/
structure Advances (kernel : String) (given : List String) (c c' : cse) : Prop where
  tidy : Tidy kernel c'
  grows : Grows kernel given c c'
  ext : Extends [] c c'
  serial : c'.serial_number = c.serial_number

theorem Advances.trans (h : Advances kernel given c c') {c'' : cse} (h' : Advances kernel given c' c'') :
    Advances kernel given c c'' :=
  ⟨h'.tidy, h.grows.trans h'.grows, h.ext.trans h'.ext, h'.serial.trans h.serial⟩

theorem Tidy.advances (h : Tidy kernel c) : Advances kernel given c c := ⟨h, .of_decls_eq rfl, .refl, rfl⟩

/-- A text is declared that can be. -/
theorem Tidy.advances_deposit (h : Tidy kernel c) (hr : r ∈ c.symbols)
    (hvars : ∀ y ∈ vars r.target, IsTemporary kernel given y → c.Declared [] y) :
    Advances kernel given c (c.deposit r) :=
  ⟨(h.deposit hr).1, grows_deposit fun y hy ht => declared_nil_iff.mp (hvars y hy ht), extends_deposit,
    cse.serial_number_deposit c r⟩

/-- The record of a text is deposited if a name was supplied. -/
theorem Tidy.settle (h : Tidy kernel c) (hfind : c.find text = some r)
    (hvars : name.isSome → ∀ y ∈ vars text, IsTemporary kernel given y → c.Declared [] y) :
    Advances kernel given c (if name.isSome then c.deposit r else c) ∧
      (if name.isSome then c.deposit r else c).look text = some r.symbol ∧
      (name.isSome → (if name.isSome then c.deposit r else c).Declared [] r.symbol) := by
  obtain ⟨hr, rfl⟩ := cse.mem_of_find hfind
  have hlook := cse.look_of_find hfind
  split_ifs with hn
  · exact ⟨h.advances_deposit hr (hvars hn), by rwa [cse.look_deposit], fun _ => (h.deposit hr).2⟩
  · exact ⟨h.advances, hlook, fun h => absurd h hn⟩

/-- A name is not declared, because it was declared in an earlier pool. -/
def Stale (n : String) (text : Text) (c : cse) : Prop :=
  ∃ r, c.find text = some r ∧ r.symbol ≠ n ∧ n ∈ c.named_symbols ∧ ¬ c.Declared [] n

/-- **One round of `parse`.** -/
theorem Tidy.enter (h : Tidy kernel c) (last : Bool)
    (hvars : name.isSome → ∀ y ∈ vars text, IsTemporary kernel given y → c.Declared [] y)
    (hname : ∀ n, name = some n → ¬ Reserved kernel n) :
    Advances kernel given c (enter name last text c) ∧
      (∃ s, (enter name last text c).look text = some s ∧
        (name.isSome → (enter name last text c).Declared [] s)) ∧
      ∀ n, name = some n → last = true → ¬ Stale n text c → (enter name last text c).Declared [] n := by
  cases hfind : c.find text with
  | none =>
    obtain ⟨htidy, hdecls, hnew, hlast⟩ := h.symbol_name last hname
    let r : symbol_record := ⟨text, (c.symbol_name name last).1, false⟩
    have hfind' : (c.symbol_name name last).2.find r.target = none := by
      rwa [cse.find, cse.symbols_symbol_name]
    have hused : (c.symbol_name name last).2.Used [] = c.Used [] := by
      funext y
      rw [cse.Used, cse.Used, cse.Declared, cse.Declared, hdecls, cse.symbols_symbol_name]
    have hemplace : Tidy kernel ((c.symbol_name name last).2.emplace r) :=
      htidy.emplace rfl hfind' fun hres => by
        rw [hused]
        exact hnew hres
    have hvars' : name.isSome → ∀ y ∈ vars text, IsTemporary kernel given y →
        ((c.symbol_name name last).2.emplace r).Declared [] y := by
      intro hn y hy ht
      rw [cse.Declared, cse.emplace, hdecls]
      exact hvars hn y hy ht
    obtain ⟨hadv, hlook, hdeclared⟩ := hemplace.settle (cse.find_emplace_self hfind') hvars'
    have heq : Cse.enter name last text c = if name.isSome then
        ((c.symbol_name name last).2.emplace r).deposit r else (c.symbol_name name last).2.emplace r := by
      simp only [Cse.enter, hfind]
      rfl
    rw [heq]
    refine ⟨⟨hadv.tidy, (Grows.of_decls_eq hdecls).trans hadv.grows, ?_, ?_⟩, ⟨r.symbol, hlook, hdeclared⟩, ?_⟩
    · exact (extends_symbol_name.trans extends_emplace).trans hadv.ext
    · exact hadv.serial.trans (c.serial_number_symbol_name name last)
    · intro n hn hl _
      have := hdeclared (by simp [hn])
      rwa [show r.symbol = n from hlast hl n hn] at this
  | some r =>
    obtain ⟨hadv, hlook, hdeclared⟩ := h.settle hfind hvars
    cases name with
    | none =>
      have heq : Cse.enter none last text c = c := by simp only [Cse.enter, hfind]
      rw [heq]
      exact ⟨hadv, ⟨r.symbol, hlook, hdeclared⟩, fun _ hn => by cases hn⟩
    | some n =>
      simp only [Option.isSome_some, if_true, forall_true_left] at hadv hlook hdeclared
      have heq : Cse.enter (some n) last text c =
          if last = true ∧ r.symbol ≠ n ∧ n ∉ (c.deposit r).named_symbols then (c.deposit r).assign n r.symbol
          else c.deposit r := by
        simp only [Cse.enter, hfind]
      have hnamed : (c.deposit r).named_symbols = c.named_symbols := by
        unfold cse.deposit
        split_ifs <;> rfl
      rw [heq, hnamed]
      split_ifs with hassign
      · refine ⟨⟨hadv.tidy.assign (hname n rfl), hadv.grows.trans (grows_assign fun _ => declared_nil_iff.mp hdeclared),
          hadv.ext.trans extends_assign, hadv.serial⟩,
          ⟨r.symbol, hlook, fun _ => cse.declared_assign.mpr (.inl hdeclared)⟩, ?_⟩
        rintro m hm - -
        cases hm
        exact cse.declared_assign.mpr (.inr rfl)
      · refine ⟨hadv, ⟨r.symbol, hlook, fun _ => hdeclared⟩, fun m hm hl hstale => ?_⟩
        cases hm
        by_cases hs : r.symbol = n
        · exact hs ▸ hdeclared
        · have hmem : n ∈ c.named_symbols := by
            by_contra hnot
            exact hassign ⟨hl, hs, hnot⟩
          refine hadv.ext.declared _ ?_
          by_contra hd
          exact hstale ⟨r, hfind, hs, hmem, hd⟩

end Tidy

/-! ### `parse` -/

/-- A round of `parse`, for an expression that is not the last one. -/
def visit (name : Option String) (c : cse) (t : ex) : Option cse :=
  (printed c.look t).map fun r => enter name false r.1 c

/-- What `parse` does before it comes to the expression itself. -/
def parse_operands (e : ex) (name : Option String) (c : cse) : Option cse :=
  (e.operands.flatMap ex.postorder).foldlM (visit name) c

theorem parse_loop_append (name : Option String) (es ts : List ex) (hts : ts ≠ []) (c : cse) :
    parse_loop name (es ++ ts) c = (es.foldlM (visit name) c).bind (parse_loop name ts) := by
  induction es generalizing c with
  | nil => rfl
  | cons e es ih =>
    have hlast : (es ++ ts).isEmpty = false := by simp [hts]
    rw [List.cons_append, parse_loop_cons, hlast, List.foldlM_cons, visit, Option.bind_eq_bind, Option.bind_map,
      Option.bind_assoc]
    exact Option.bind_congr fun r _ => ih _

theorem parse_eq (e : ex) (name : Option String) (c : cse) : parse e name c =
    (parse_operands e name c).bind fun c₁ => (printed c₁.look e).map fun r => enter name true r.1 c₁ := by
  rw [parse, ex.postorder_eq, parse_loop_append _ _ _ (List.cons_ne_nil e []), ← parse_operands]
  refine Option.bind_congr fun c₁ _ => ?_
  rw [parse_loop_cons, Option.map_eq_bind]
  rfl

/-- The call leaves out the declaration of the name: the expression is in the table under another symbol, and
`named_symbols` has the name from an earlier pool. -/
def Skips (e : ex) (n : String) (c : cse) : Prop :=
  ∃ c₁ r, parse_operands e (some n) c = some c₁ ∧ printed c₁.look e = some r ∧ Stale n r.1 c₁

/-- An expression whose symbols do not look like temporaries. -/
def Plain (kernel : String) (e : ex) : Prop := e.Every fun t => ∀ x, t = .symbol x → ¬ Reserved kernel x

section Parse

variable {kernel : String} {given : List String} {c c' : cse} {text : Text} {name : Option String} {t : ex}

/-- The subexpressions have been entered, and declared if a name was supplied. -/
def Settles (name : Option String) (c : cse) : ex → Prop :=
  ex.Every (Entered c.look fun _ s => name.isSome → c.Declared [] s)

theorem Settles.mono {e : ex} (h : Settles name c e) (hext : Extends [] c c') : Settles name c' e :=
  every_entered_mono hext.look (fun _ _ hs hn => hext.declared _ (hs hn)) h

/-- A subexpression is entered after its operands. -/
theorem Tidy.visit (h : Tidy kernel c) (last : Bool) (hgiven : ∀ n ∈ given, c.Declared [] n)
    (hplain : ∀ x, t = .symbol x → ¬ Reserved kernel x) (hops : ∀ x ∈ t.operands, Settles name c x)
    (hname : ∀ n, name = some n → ¬ Reserved kernel n) {r : Text × List Text} (hr : printed c.look t = some r) :
    Advances kernel given c (Cse.enter name last r.1 c) ∧ Settles name (Cse.enter name last r.1 c) t ∧
      ∀ n, name = some n → last = true → ¬ Stale n r.1 c → (Cse.enter name last r.1 c).Declared [] n := by
  have hentered : ∀ x ∈ t.operands, Entered c.look (fun _ s => name.isSome → c.Declared [] s) x := fun x hx =>
    (ex.every_iff.mp (hops x hx)).2
  have hvars : name.isSome → ∀ y ∈ vars r.1, IsTemporary kernel given y → c.Declared [] y := by
    intro hn y hy ht
    rcases mem_printed hr hentered (mem_vars.mp hy) with hsymbol | ⟨u, hu⟩
    · exact hgiven y (ht.resolve_left (hplain y hsymbol))
    · exact hu hn
  obtain ⟨hadv, ⟨s, hlook, hs⟩, hdeclared⟩ := h.enter last hvars hname
  refine ⟨hadv, ex.every_iff.mpr ⟨fun x hx => (hops x hx).mono hadv.ext, r.1, r.2, s, ?_, hlook, hs⟩, hdeclared⟩
  rw [printed_congr hadv.ext.look hops, hr]

/-- A run of the loop over some expressions does what it should. -/
def Enters (kernel : String) (given : List String) (name : Option String) (es : List ex) : Prop :=
  ∀ c c', Tidy kernel c → (∀ n ∈ given, c.Declared [] n) →
    (es.flatMap ex.postorder).foldlM (Cse.visit name) c = some c' →
      Advances kernel given c c' ∧ ∀ e ∈ es, Settles name c' e

theorem enters_nil : Enters kernel given name [] := by
  intro c c' h _ hrun
  obtain rfl : c = c' := by simpa using hrun
  exact ⟨h.advances, fun _ he => absurd he List.not_mem_nil⟩

theorem Enters.cons {e : ex} {es : List ex} (he : Enters kernel given name [e]) (hes : Enters kernel given name es) :
    Enters kernel given name (e :: es) := by
  intro c c' h hgiven hrun
  rw [List.flatMap_cons, List.foldlM_append] at hrun
  obtain ⟨c₁, run₁, run₂⟩ := Option.bind_eq_some_iff.mp hrun
  obtain ⟨hadv₁, hset₁⟩ := he c c₁ h hgiven (by rwa [List.flatMap_singleton])
  obtain ⟨hadv₂, hset₂⟩ := hes c₁ c' hadv₁.tidy (fun n hn => hadv₁.ext.declared _ (hgiven n hn)) run₂
  refine ⟨hadv₁.trans hadv₂, fun x hx => ?_⟩
  rcases List.mem_cons.mp hx with rfl | hx
  · exact (hset₁ x (List.mem_singleton_self x)).mono hadv₂.ext
  · exact hset₂ x hx

theorem Enters.of_forall {es : List ex} (h : ∀ e ∈ es, Enters kernel given name [e]) : Enters kernel given name es := by
  induction es with
  | nil => exact enters_nil
  | cons e es ih => exact (h e List.mem_cons_self).cons (ih fun e he => h e (List.mem_cons_of_mem _ he))

/-- The induction over an expression: its operands come first. -/
theorem enters {e : ex} (he : Plain kernel e) (hname : ∀ n, name = some n → ¬ Reserved kernel n) :
    Enters kernel given name [e] := by
  induction e using ex.induct_operands with
  | h e ih =>
    obtain ⟨hops, hplain⟩ := ex.every_iff.mp he
    intro c c' h hgiven hrun
    rw [List.flatMap_singleton, ex.postorder_eq, List.foldlM_append] at hrun
    obtain ⟨c₁, run₁, run₂⟩ := Option.bind_eq_some_iff.mp hrun
    obtain ⟨hadv₁, hset₁⟩ := Enters.of_forall (fun x hx => ih x hx (hops x hx)) c c₁ h hgiven run₁
    obtain ⟨r, hr, rfl⟩ : ∃ r, printed c₁.look e = some r ∧ Cse.enter name false r.1 c₁ = c' := by
      simpa [Cse.visit, Option.map_eq_some_iff] using run₂
    obtain ⟨hadv₂, hset₂, -⟩ := hadv₁.tidy.visit false
      (fun n hn => hadv₁.ext.declared _ (hgiven n hn)) hplain hset₁ hname hr
    exact ⟨hadv₁.trans hadv₂, fun x hx => List.mem_singleton.mp hx ▸ hset₂⟩

/-- **`parse`** deposits declarations in order, and that of the name unless it skips it. -/
theorem Tidy.parse (h : Tidy kernel c) (hgiven : ∀ n ∈ given, c.Declared [] n) {e : ex} (he : Plain kernel e)
    (hname : ∀ n, name = some n → ¬ Reserved kernel n) (hrun : Cse.parse e name c = some c') :
    Advances kernel given c c' ∧ ∀ n, name = some n → ¬ Skips e n c → c'.Declared [] n := by
  obtain ⟨hops, hplain⟩ := ex.every_iff.mp he
  rw [parse_eq] at hrun
  obtain ⟨c₁, run₁, hrun⟩ := Option.bind_eq_some_iff.mp hrun
  obtain ⟨r, hr, rfl⟩ := Option.map_eq_some_iff.mp hrun
  obtain ⟨hadv₁, hset₁⟩ := Enters.of_forall (fun x hx => enters (hops x hx) hname) c c₁ h hgiven run₁
  obtain ⟨hadv₂, -, hdeclared⟩ := hadv₁.tidy.visit true
    (fun n hn => hadv₁.ext.declared _ (hgiven n hn)) hplain hset₁ hname hr
  refine ⟨hadv₁.trans hadv₂, fun n hn hskip => hdeclared n hn rfl fun hstale => hskip ?_⟩
  subst hn
  exact ⟨c₁, r, run₁, hr, hstale⟩

end Parse

/-! ### `get_symbol_with_use_count` -/

section GetSymbol

variable {kernel : String} {given : List String} {c c' : cse} {text : Text}

/-- What has been declared can be mentioned. -/
def Mentionable (kernel : String) (given : List String) (c : cse) (text : Text) : Prop :=
  ∀ y ∈ vars text, IsTemporary kernel given y → c.Declared [] y

/-- A text is resolved. -/
theorem Tidy.resolve (h : Tidy kernel c) (hvars : Mentionable kernel given c text) :
    Advances kernel given c (c.count true [text]) ∧
      Mentionable kernel given (c.count true [text]) ((c.look text).elim text fun symbol => [.var symbol]) := by
  cases hfind : c.find text with
  | none =>
    have heq : c.count true [text] = c := by simp [cse.count, cse.deposits, hfind]
    have hlook : c.look text = none := by rw [cse.look, hfind, Option.map_none]
    rw [heq, hlook]
    exact ⟨h.advances, hvars⟩
  | some r =>
    have heq : c.count true [text] = c.deposit r := by simp [cse.count, cse.deposits, hfind]
    obtain ⟨hr, rfl⟩ := cse.mem_of_find hfind
    rw [heq, cse.look_of_find hfind]
    refine ⟨h.advances_deposit hr hvars, fun y hy _ => ?_⟩
    obtain rfl : y = r.symbol := by simpa [vars] using hy
    exact (h.deposit hr).2

/-- Declarations are deposited in order for the texts that are resolved on the way to some texts, which can be
mentioned then. -/
def Resolves (kernel : String) (given : List String) (look : Text → Option String) (texts ds : List Text) : Prop :=
  ∀ c, c.look = look → Tidy kernel c → (∀ n ∈ given, c.Declared [] n) →
    Advances kernel given c (c.count true ds) ∧ ∀ text ∈ texts, Mentionable kernel given (c.count true ds) text

variable {look : Text → Option String}

theorem Resolves.finish {r : Text × List Text} (h : Resolves kernel given look [r.1] r.2) :
    Resolves kernel given look [(finish look r).1] (finish look r).2 := by
  rintro c rfl hc hgiven
  obtain ⟨hadv, hvars⟩ := h c rfl hc hgiven
  obtain ⟨hadv', hvars'⟩ := hadv.tidy.resolve (hvars r.1 (List.mem_singleton_self _))
  rw [cse.look_count] at hvars'
  rw [Cse.finish, cse.count_append]
  exact ⟨hadv.trans hadv', fun text ht => List.mem_singleton.mp ht ▸ hvars'⟩

theorem Resolves.operands {es : List ex} {rs : List (Text × List Text)}
    (h : List.Forall₂ (fun e r => shown look e = some r) es rs)
    (hes : ∀ e ∈ es, ∀ r, shown look e = some r → Resolves kernel given look [r.1] r.2) :
    Resolves kernel given look (rs.map Prod.fst) (rs.flatMap Prod.snd) := by
  induction h with
  | nil => exact fun c _ hc _ => ⟨hc.advances, fun text ht => absurd ht List.not_mem_nil⟩
  | @cons e r es rs hr _ ih =>
    intro c hlook hc hgiven
    obtain ⟨hadv₁, hvars₁⟩ := hes e List.mem_cons_self r hr c hlook hc hgiven
    obtain ⟨hadv₂, hvars₂⟩ := ih (fun e he => hes e (List.mem_cons_of_mem _ he)) _
      ((c.look_count true r.2).trans hlook) hadv₁.tidy fun n hn => hadv₁.ext.declared _ (hgiven n hn)
    rw [List.flatMap_cons, cse.count_append]
    refine ⟨hadv₁.trans hadv₂, fun text ht => ?_⟩
    rcases List.mem_cons.mp ht with rfl | ht
    · exact fun y hy hty => hadv₂.ext.declared y (hvars₁ _ (List.mem_singleton_self _) y hy hty)
    · exact hvars₂ text ht

theorem resolves_shown {e : ex} (he : Plain kernel e) {r : Text × List Text} (hr : shown look e = some r) :
    Resolves kernel given look [r.1] r.2 := by
  induction e using ex.induct generalizing r with
  | numeric q =>
    rw [shown, printed_numeric] at hr
    cases hr
    refine Resolves.finish fun c _ hc _ => ⟨hc.advances, fun text ht y hy => ?_⟩
    cases List.mem_singleton.mp ht
    cases hy
  | symbol name =>
    rw [shown, printed_symbol] at hr
    cases hr
    refine Resolves.finish fun c _ hc hgiven => ⟨hc.advances, fun text ht y hy hty => ?_⟩
    cases List.mem_singleton.mp ht
    obtain rfl : y = name := by simpa [vars] using hy
    exact hgiven y (hty.resolve_left ((ex.every_iff.mp he).2 y rfl))
  | node op ops ih =>
    obtain ⟨⟨text, ds⟩, hprint, rfl⟩ := Option.map_eq_some_iff.mp hr
    refine Resolves.finish ?_
    rw [printed_node] at hprint
    obtain ⟨rs, hrs, hprint⟩ := Option.bind_eq_some_iff.mp hprint
    obtain ⟨text', hlayout, heq⟩ := Option.bind_eq_some_iff.mp hprint
    cases heq
    have hoperands : Resolves kernel given look (rs.map Prod.fst) (rs.flatMap Prod.snd) :=
      .operands (forall₂_of_mapM hrs) fun e he' r hr =>
        ih e (mem_visited he') ((ex.every_iff.mp he).1 e (mem_visited he')) hr
    intro c hlook hc hgiven
    obtain ⟨hadv, hvars⟩ := hoperands c hlook hc hgiven
    refine ⟨hadv, fun text ht y hy hty => ?_⟩
    cases List.mem_singleton.mp ht
    obtain ⟨text', ht', hy⟩ := mem_layout hlayout (mem_vars.mp hy)
    exact hvars text' ht' y (mem_vars.mpr hy) hty

/-- **`get_symbol_with_use_count`** deposits the declarations that its text needs, in order. -/
theorem Tidy.get_symbol (h : Tidy kernel c) (hgiven : ∀ n ∈ given, c.Declared [] n) {e : ex} (he : Plain kernel e)
    (hget : Cse.get_symbol true e c = some (text, c')) :
    Advances kernel given c c' ∧ Mentionable kernel given c' text := by
  rw [get_symbol_eq_shown e rfl] at hget
  obtain ⟨r, hr, heq⟩ := Option.map_eq_some_iff.mp hget
  cases heq
  obtain ⟨hadv, hvars⟩ := resolves_shown he hr c rfl h hgiven
  exact ⟨hadv, hvars _ (List.mem_singleton_self _)⟩

end GetSymbol

end Cse

end CppTransport.Translator
