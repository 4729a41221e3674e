import CppTransport.Translator.SubexpressionText
import Mathlib.Data.List.Nodup

/-!
# The table of common subexpressions

A worker is sound for values of the symbols, if the temporaries have the values of their
texts and the declarations, one after the other, give these values to the symbols that they
declare. The operations on the table and on the declarations keep it sound.
-/

namespace CppTransport.Translator

open Library Library.Infix

namespace Cse

/-! ### What the worker keeps to -/

namespace cse

variable (names : List String) (c : cse)

/-- Symbols of the model, and what has been declared. -/
def Declared (x : String) : Prop := x ∈ names ∨ x ∈ c.decls.map Prod.fst

/-- What new symbols must differ from. -/
def Used (x : String) : Prop := c.Declared names x ∨ x ∈ c.symbols.map (·.symbol)

variable {names c} {r : symbol_record} {text : Text} {s : String}

theorem mem_of_find (h : c.find text = some r) : r ∈ c.symbols ∧ r.target = text :=
  ⟨List.mem_of_find?_eq_some h, by simpa using List.find?_some h⟩

theorem look_of_find (h : c.find text = some r) : c.look text = some r.symbol := by rw [look, h, Option.map_some]

theorem find_of_look (h : c.look text = some s) : ∃ r, c.find text = some r ∧ r.symbol = s :=
  Option.map_eq_some_iff.mp h

theorem look_emplace (h : c.look text = some s) : (c.emplace r).look text = some s := by
  obtain ⟨r', hfind, rfl⟩ := find_of_look h
  exact look_of_find (by rw [find, emplace, List.find?_append, ← find, hfind, Option.some_or])

theorem find_emplace_self (h : c.find r.target = none) : (c.emplace r).find r.target = some r := by
  rw [find, emplace, List.find?_append, ← find, h]
  simp

theorem used_emplace : (c.emplace r).Used names s ↔ c.Used names s ∨ s = r.symbol := by
  simp [Used, emplace, Declared, or_assoc]

theorem declared_assign {x y : String} : (c.assign x s).Declared names y ↔ c.Declared names y ∨ y = x := by
  simp [Declared, assign, or_assoc]

theorem used_assign {x y : String} : (c.assign x s).Used names y ↔ c.Used names y ∨ y = x := by
  rw [Used, Used, declared_assign]
  exact or_right_comm

@[simp] theorem symbols_symbol_name (c : cse) (name : Option String) (last : Bool) :
    (c.symbol_name name last).2.symbols = c.symbols := by
  unfold symbol_name
  split <;> rfl

section Deposit

variable (c : cse) (r : symbol_record)

@[simp] theorem temporary_name_kernel_deposit : (c.deposit r).temporary_name_kernel = c.temporary_name_kernel := by
  rw [deposit]
  split_ifs <;> rfl

@[simp] theorem serial_number_deposit : (c.deposit r).serial_number = c.serial_number := by
  rw [deposit]
  split_ifs <;> rfl

@[simp] theorem symbol_counter_deposit : (c.deposit r).symbol_counter = c.symbol_counter := by
  rw [deposit]
  split_ifs <;> rfl

theorem map_symbols_deposit {α : Type} {f : symbol_record → α} (hf : ∀ x, f { x with written := true } = f x) :
    (c.deposit r).symbols.map f = c.symbols.map f := by
  rw [deposit]
  split_ifs
  · rfl
  · rw [mark_written, List.map_map]
    refine List.map_congr_left fun x _ => ?_
    rw [Function.comp]
    split_ifs
    · exact hf x
    · rfl

end Deposit

theorem declared_deposit {c : cse} {r : symbol_record} (hw : ¬ r.written = true) {x : String} :
    (c.deposit r).Declared names x ↔ c.Declared names x ∨ x = r.symbol := by
  simp [Declared, deposit, hw, or_assoc]

theorem used_deposit {c : cse} {r : symbol_record} (hr : r ∈ c.symbols) {x : String} :
    (c.deposit r).Used names x ↔ c.Used names x := by
  rw [Used, Used, c.map_symbols_deposit r fun _ => rfl]
  by_cases hw : r.written = true
  · rw [deposit, if_pos hw]
  · rw [declared_deposit hw]
    refine ⟨?_, fun h => h.imp_left .inl⟩
    rintro ((hd | rfl) | hs)
    · exact .inl hd
    · exact .inr (List.mem_map_of_mem hr)
    · exact .inr hs

theorem mem_decls_deposit {c : cse} {r : symbol_record} {d : String × Text} (h : d ∈ c.decls) :
    d ∈ (c.deposit r).decls := by
  rw [deposit]
  split_ifs
  · exact h
  · exact List.mem_append_left _ h

theorem mem_decls_deposits {c : cse} {ds : List Text} {d : String × Text} (h : d ∈ c.decls) :
    d ∈ (c.deposits ds).decls := by
  induction ds generalizing c with
  | nil => exact h
  | cons text ds ih =>
    rw [deposits, List.foldl_cons, ← deposits]
    cases c.find text with
    | none => exact ih h
    | some r => exact ih (mem_decls_deposit h)

/-- The records stay, but for the flag. -/
theorem mem_symbols_deposit (c : cse) (r : symbol_record) {r' : symbol_record} (h : r' ∈ (c.deposit r).symbols) :
    ∃ r₀ ∈ c.symbols, r'.target = r₀.target ∧ r'.symbol = r₀.symbol ∧
      (r'.written = true ↔ r₀.written = true ∨ r₀.target = r.target ∧ r.written = false) := by
  rw [deposit] at h
  split_ifs at h with hw
  · exact ⟨r', h, rfl, rfl, by simp [hw]⟩
  · obtain ⟨r₀, hr₀, rfl⟩ := List.mem_map.mp h
    refine ⟨r₀, hr₀, ?_⟩
    split_ifs with heq <;> simp [heq, hw]

end cse

/-- The values of the symbols of the model. -/
def env {K : Type} (names : List String) (val : String → K) (x : String) : Option K :=
  if x ∈ names then some (val x) else none

theorem env_congr {K : Type} {names : List String} {val val' : String → K} (h : ∀ x ∈ names, val x = val' x) :
    env names val = env names val' := by
  funext x
  rw [env, env]
  split_ifs with hx
  · rw [h x hx]
  · rfl

theorem update_mono {K : Type} {σ : String → Option K} {x y : String} {v w : K} (hx : σ x = none)
    (hy : σ y = some w) :
    Function.update σ x (some v) y = some w := by
  rw [Function.update_of_ne (by rintro rfl; cases hx.symm.trans hy), hy]

/-- **The worker is sound** for an assignment of values to symbols: the temporaries have the values of their texts,
and so do the declarations. -/
structure Sound {K : Type} [Field K] (names known : List String) (F : Functions K) (val : String → K) (c : cse)
    (σ : String → Option K) : Prop where
  keys : (c.symbols.map (·.target)).Nodup
  distinct : (c.symbols.map (·.symbol)).Nodup
  /-- The next temporaries are new. -/
  fresh : ∀ k, c.symbol_counter ≤ k → ¬ c.Used names (temporary c.temporary_name_kernel c.serial_number k)
  used : ∀ x, (σ x).isSome → c.Used names x
  written : ∀ r ∈ c.symbols, r.written = true ↔ c.Declared names r.symbol
  record : ∀ r ∈ c.symbols, ∃ v, eval F.apply σ r.target = some v ∧ σ r.symbol = some v
  /-- The symbols that may be used in expressions. -/
  known : ∀ x ∈ known, c.Declared names x ∧ σ x = some (val x)
  decls : ∃ ρ, declare F.apply c.decls (env names val) = some ρ ∧ ∀ x v, ρ x = some v → σ x = some v

section Sound

variable {K : Type} [Field K] {F : Functions K} {names known : List String} {val : String → K} {c : cse}
  {σ ρ : String → Option K} {r : symbol_record} {x : String} {text : Text} {v : K}

theorem isSome_declare (h : declare F.apply c.decls (env names val) = some ρ) :
    (ρ x).isSome ↔ c.Declared names x := by
  rw [isSome_of_declare h, cse.Declared, env]
  split_ifs with hx <;> simp [hx]

theorem Sound.eq_none (h : Sound names known F val c σ) (hx : ¬ c.Used names x) : σ x = none := by
  by_contra hne
  exact hx (h.used x (Option.isSome_iff_ne_none.mpr hne))

/-- A declaration whose variables are declared. -/
theorem Sound.declare (h : Sound names known F val c σ) (hx : ¬ c.Declared names x)
    (hvars : ∀ y ∈ vars text, c.Declared names y) (hmono : ∀ y w, σ y = some w → ρ y = some w)
    (htext : eval F.apply σ text = some v) (hv : ρ x = some v) :
    ∃ ρ', Infix.declare F.apply (c.decls ++ [(x, text)]) (env names val) = some ρ' ∧
      ∀ y w, ρ' y = some w → ρ y = some w := by
  obtain ⟨ρ', hdecls, hle⟩ := h.decls
  have same : ∀ y ∈ vars text, ρ' y = σ y := by
    intro y hy
    obtain ⟨w, hw⟩ := Option.isSome_iff_exists.mp ((isSome_declare hdecls).mpr (hvars y hy))
    rw [hw, hle y w hw]
  have hnone : ρ' x = none := by
    by_contra hne
    exact hx ((isSome_declare hdecls).mp (Option.isSome_iff_ne_none.mpr hne))
  refine ⟨_, declare_concat hdecls hnone ((eval_congr same).trans htext), fun y w hy => ?_⟩
  by_cases hxy : y = x
  · rw [hxy, Function.update_self] at hy
    rw [hxy, hv, hy]
  · rw [Function.update_of_ne hxy] at hy
    exact hmono y w (hle y w hy)

/-- A text is entered under a new symbol. -/
theorem Sound.emplace (h : Sound names known F val c σ) (hwritten : r.written = false)
    (hfind : c.find r.target = none)
    (hused : ¬ c.Used names r.symbol) (hv : eval F.apply σ r.target = some v)
    (hfresh : ∀ k, c.symbol_counter ≤ k → temporary c.temporary_name_kernel c.serial_number k ≠ r.symbol) :
    Sound names known F val (c.emplace r) (Function.update σ r.symbol (some v)) := by
  have hnone := h.eq_none hused
  have hmono : ∀ y w, σ y = some w → Function.update σ r.symbol (some v) y = some w := fun y w => update_mono hnone
  constructor
  · rw [cse.emplace, List.map_append, List.map_singleton, List.nodup_append]
    refine ⟨h.keys, List.nodup_singleton _, fun t ht t' ht' heq => ?_⟩
    obtain ⟨r', hr', rfl⟩ := List.mem_map.mp ht
    have := List.find?_eq_none.mp hfind r' hr'
    simp_all
  · rw [cse.emplace, List.map_append, List.map_singleton, List.nodup_append]
    refine ⟨h.distinct, List.nodup_singleton _, fun t ht t' ht' heq => hused (.inr ?_)⟩
    rwa [← List.mem_singleton.mp ht', ← heq]
  · intro k hk hu
    exact (cse.used_emplace.mp hu).elim (h.fresh k hk) (hfresh k hk)
  · intro y hy
    by_cases hys : y = r.symbol
    · exact cse.used_emplace.mpr (.inr hys)
    · rw [Function.update_of_ne hys] at hy
      exact cse.used_emplace.mpr (.inl (h.used y hy))
  · intro r' hr'
    rcases List.mem_append.mp hr' with hr' | hr'
    · exact h.written r' hr'
    · rw [List.mem_singleton.mp hr', hwritten]
      exact iff_of_false Bool.false_ne_true fun hd => hused (.inl hd)
  · intro r' hr'
    rcases List.mem_append.mp hr' with hr' | hr'
    · obtain ⟨w, hw, hs⟩ := h.record r' hr'
      exact ⟨w, eval_mono hmono hw, hmono _ _ hs⟩
    · rw [List.mem_singleton.mp hr']
      exact ⟨v, eval_mono hmono hv, Function.update_self ..⟩
  · exact fun y hy => ⟨(h.known y hy).1, hmono _ _ (h.known y hy).2⟩
  · obtain ⟨ρ', hdecls, hle⟩ := h.decls
    exact ⟨ρ', hdecls, fun y w hy => hmono y w (hle y w hy)⟩

/-- A text of the table is declared. -/
theorem Sound.deposit (h : Sound names known F val c σ) (hfind : c.find text = some r)
    (hvars : ∀ y ∈ vars text, c.Declared names y) : Sound names known F val (c.deposit r) σ := by
  obtain ⟨hr, rfl⟩ := cse.mem_of_find hfind
  by_cases hw : r.written = true
  · rwa [cse.deposit, if_pos hw]
  obtain ⟨v, htext, hv⟩ := h.record r hr
  have hnew : ¬ c.Declared names r.symbol := fun hd => hw ((h.written r hr).mpr hd)
  have same_target : ∀ r' ∈ c.symbols, r'.target = r.target → r' = r := fun r' hr' heq =>
    List.inj_on_of_nodup_map h.keys hr' hr heq
  have same_symbol : ∀ r' ∈ c.symbols, r'.symbol = r.symbol → r' = r := fun r' hr' heq =>
    List.inj_on_of_nodup_map h.distinct hr' hr heq
  have keys_eq : (c.deposit r).symbols.map (·.target) = c.symbols.map (·.target) :=
    c.map_symbols_deposit r fun _ => rfl
  have symbols_eq : (c.deposit r).symbols.map (·.symbol) = c.symbols.map (·.symbol) :=
    c.map_symbols_deposit r fun _ => rfl
  have declared_iff : ∀ y, (c.deposit r).Declared names y ↔ c.Declared names y ∨ y = r.symbol := fun y =>
    cse.declared_deposit hw
  constructor
  · exact keys_eq ▸ h.keys
  · exact symbols_eq ▸ h.distinct
  · intro k hk hu
    rw [cse.symbol_counter_deposit] at hk
    rw [cse.used_deposit hr, cse.temporary_name_kernel_deposit, cse.serial_number_deposit] at hu
    exact h.fresh k hk hu
  · exact fun y hy => (cse.used_deposit hr).mpr (h.used y hy)
  · intro r' hr'
    obtain ⟨r₀, hr₀, -, hsymbol, hwritten⟩ := c.mem_symbols_deposit r hr'
    rw [hwritten, hsymbol, declared_iff, h.written r₀ hr₀]
    refine or_congr_right ⟨fun heq => by rw [same_target r₀ hr₀ heq.1], fun heq => ?_⟩
    exact ⟨by rw [same_symbol r₀ hr₀ heq], by simpa using hw⟩
  · intro r' hr'
    obtain ⟨r₀, hr₀, htarget, hsymbol, -⟩ := c.mem_symbols_deposit r hr'
    rw [htarget, hsymbol]
    exact h.record r₀ hr₀
  · exact fun y hy => ⟨(declared_iff y).mpr (.inl (h.known y hy).1), (h.known y hy).2⟩
  · rw [cse.deposit, if_neg hw]
    exact h.declare hnew hvars (fun _ _ h => h) htext hv

end Sound

/-- Symbols of temporaries. -/
def Reserved (kernel x : String) : Prop :=
  ∃ serial_number symbol_counter, x = temporary kernel serial_number symbol_counter

/-- A name that may be given to an expression. -/
def cse.IsNew (names : List String) (c : cse) (n : String) : Prop :=
  ¬ c.Used names n ∧ ¬ Reserved c.temporary_name_kernel n

theorem temporary_injective {kernel : String} {i m n : ℕ} (h : temporary kernel i m = temporary kernel i n) :
    m = n := by
  have digits : Nat.toDigits 10 m = Nat.toDigits 10 n := by
    rw [← Nat.toList_repr, ← Nat.toList_repr]
    exact congrArg String.toList ((String.append_right_inj _).mp h)
  rw [← Nat.ofDigitChars_ten_toDigits (n := m), digits, Nat.ofDigitChars_ten_toDigits]

/-- What only grows while a pool is filled. -/
structure Extends (names : List String) (c c' : cse) : Prop where
  look : ∀ text s, c.look text = some s → c'.look text = some s
  declared : ∀ x, c.Declared names x → c'.Declared names x
  kernel : c'.temporary_name_kernel = c.temporary_name_kernel

section Extends

variable {names : List String} {c c' c'' : cse} {r : symbol_record} {x s : String} {text : Text}
  {name : Option String} {last : Bool}

theorem Extends.refl : Extends names c c := ⟨fun _ _ h => h, fun _ h => h, rfl⟩

theorem Extends.trans (h : Extends names c c') (h' : Extends names c' c'') : Extends names c c'' :=
  ⟨fun _ _ hx => h'.look _ _ (h.look _ _ hx), fun _ hx => h'.declared _ (h.declared _ hx), h'.kernel.trans h.kernel⟩

theorem extends_symbol_name : Extends names c (c.symbol_name name last).2 := by
  unfold cse.symbol_name
  split
  · exact .refl
  · exact ⟨fun _ _ h => h, fun _ h => h, rfl⟩

theorem extends_emplace : Extends names c (c.emplace r) := ⟨fun _ _ => cse.look_emplace, fun _ h => h, rfl⟩

theorem extends_assign : Extends names c (c.assign x s) :=
  ⟨fun _ _ h => h, fun _ h => cse.declared_assign.mpr (.inl h), rfl⟩

theorem extends_deposit : Extends names c (c.deposit r) := by
  refine ⟨fun _ _ h => by rwa [cse.look_deposit], fun x h => ?_, by simp⟩
  rw [cse.deposit]
  split_ifs
  · exact h
  · exact h.imp_right fun h => by simp [h]

theorem extends_enter : Extends names c (enter name last text c) := by
  unfold enter
  cases c.find text with
  | none =>
    have hnew : Extends names c ((c.symbol_name name last).2.emplace ⟨text, (c.symbol_name name last).1, false⟩) :=
      extends_symbol_name.trans extends_emplace
    dsimp only
    split_ifs
    · exact hnew.trans extends_deposit
    · exact hnew
  | some r =>
    cases name with
    | none => exact .refl
    | some n =>
      dsimp only
      split_ifs
      · exact extends_deposit.trans extends_assign
      · exact extends_deposit

theorem extends_count {use_count : Bool} {ds : List Text} : Extends names c (c.count use_count ds) := by
  cases use_count with
  | false => exact .refl
  | true =>
    rw [cse.count, if_pos rfl]
    induction ds generalizing c with
    | nil => exact .refl
    | cons text ds ih =>
      rw [cse.deposits, List.foldl_cons, ← cse.deposits]
      refine .trans ?_ ih
      cases c.find text with
      | none => exact .refl
      | some r => exact extends_deposit

end Extends

section Sound

variable {K : Type} [Field K] {F : Functions K} {names known : List String} {val : String → K} {c : cse}
  {σ : String → Option K} {r : symbol_record} {s x : String} {text : Text} {v : K}

theorem Sound.declared_deposit (h : Sound names known F val c σ) (hr : r ∈ c.symbols) :
    (c.deposit r).Declared names r.symbol := by
  by_cases hw : r.written = true
  · rw [cse.deposit, if_pos hw]
    exact (h.written r hr).mp hw
  · rw [cse.deposit, if_neg hw]
    exact .inr (by simp)

/-- A name is declared to be a symbol that is declared. -/
theorem Sound.assign (h : Sound names known F val c σ) (hused : ¬ c.Used names x)
    (hfresh : ∀ k, temporary c.temporary_name_kernel c.serial_number k ≠ x) (hs : c.Declared names s)
    (hv : σ s = some v) : Sound names known F val (c.assign x s) (Function.update σ x (some v)) := by
  have hmono : ∀ y w, σ y = some w → Function.update σ x (some v) y = some w := fun y w =>
    update_mono (h.eq_none hused)
  refine ⟨h.keys, h.distinct, fun k hk hu => ?_, fun y hy => ?_, fun r hr => ?_, fun r hr => ?_, fun y hy => ?_, ?_⟩
  · exact (cse.used_assign.mp hu).elim (h.fresh k hk) (hfresh k)
  · by_cases hyx : y = x
    · exact cse.used_assign.mpr (.inr hyx)
    · rw [Function.update_of_ne hyx] at hy
      exact cse.used_assign.mpr (.inl (h.used y hy))
  · rw [h.written r hr, cse.declared_assign]
    refine (or_iff_left fun heq => hused (.inr ?_)).symm
    exact heq ▸ List.mem_map_of_mem hr
  · obtain ⟨w, hw, hsw⟩ := h.record r hr
    exact ⟨w, eval_mono hmono hw, hmono _ _ hsw⟩
  · exact ⟨cse.declared_assign.mpr (.inl (h.known y hy).1), hmono _ _ (h.known y hy).2⟩
  · have hvars : ∀ y ∈ vars [.var s], c.Declared names y := by simpa [vars] using hs
    exact h.declare (fun hd => hused (.inl hd)) hvars hmono (reads_var hv).evaluates.eval (Function.update_self ..)

theorem Sound.make_symbol (h : Sound names known F val c σ) : Sound names known F val c.make_symbol.2 σ :=
  ⟨h.keys, h.distinct, fun k hk => h.fresh k (Nat.le_of_succ_le hk), h.used, h.written, h.record, h.known, h.decls⟩

/-- The symbol of a new record is new. -/
theorem Sound.symbol_name (h : Sound names known F val c σ) {name : Option String} {last : Bool}
    (hname : ∀ n, name = some n → last = true → c.IsNew names n) {c₀ : cse}
    (heq : c.symbol_name name last = (s, c₀)) :
    Sound names known F val c₀ σ ∧ ¬ c.Used names s ∧
      (∀ k, c₀.symbol_counter ≤ k → temporary c₀.temporary_name_kernel c₀.serial_number k ≠ s) ∧
      c₀.symbols = c.symbols ∧ c₀.decls = c.decls ∧
      (Reserved c.temporary_name_kernel s ∨ last = true ∧ name = some s) := by
  unfold cse.symbol_name at heq
  split at heq
  · cases heq
    obtain ⟨hused, hres⟩ := hname s rfl rfl
    exact ⟨h, hused, fun k _ heq => hres ⟨_, k, heq.symm⟩, rfl, rfl, .inr ⟨rfl, rfl⟩⟩
  · cases heq
    refine ⟨h.make_symbol, h.fresh _ le_rfl, fun k hk heq => ?_, rfl, rfl, .inl ⟨_, _, rfl⟩⟩
    exact absurd (temporary_injective heq) (Nat.ne_of_gt hk)

end Sound

/-- What holds of the symbol of an expression: it has its value, and it is declared if a name was supplied. -/
def Settled {K : Type} [Field K] (names : List String) (F : Functions K) (val : String → K) (name : Option String)
    (c : cse) (σ : String → Option K) (t : ex) (s : String) : Prop :=
  σ s = some (value F val t) ∧ (name.isSome → c.Declared names s)

section Enter

variable {K : Type} [Field K] {F : Functions K} {names known : List String} {val : String → K} {c c' : cse}
  {σ σ' : String → Option K} {r : symbol_record} {s : String} {text : Text} {name : Option String} {last : Bool}
  {t : ex}

theorem Settled.mono (h : Settled names F val name c σ t s) (hext : Extends names c c')
    (hσ : ∀ x v, σ x = some v → σ' x = some v) : Settled names F val name c' σ' t s :=
  ⟨hσ _ _ h.1, fun hn => hext.declared _ (h.2 hn)⟩

/-- The record of a text is deposited if a name was supplied. -/
theorem Sound.settle (h : Sound names known F val c σ) (hfind : c.find text = some r)
    (htext : eval F.apply σ text = some (value F val t))
    (hvars : name.isSome → ∀ y ∈ vars text, c.Declared names y) :
    Sound names known F val (if name.isSome then c.deposit r else c) σ ∧
      (if name.isSome then c.deposit r else c).look text = some r.symbol ∧
      Settled names F val name (if name.isSome then c.deposit r else c) σ t r.symbol ∧
      ∀ x, (if name.isSome then c.deposit r else c).Used names x → c.Used names x := by
  obtain ⟨hr, htarget⟩ := cse.mem_of_find hfind
  obtain ⟨v, hv, hs⟩ := h.record r hr
  rw [htarget, htext] at hv
  have hlook := cse.look_of_find hfind
  split_ifs with hn
  · exact ⟨h.deposit hfind (hvars hn), by rwa [cse.look_deposit],
      ⟨hs.trans hv.symm, fun _ => h.declared_deposit hr⟩,
      fun x => (cse.used_deposit hr).mp⟩
  · exact ⟨h, hlook, ⟨hs.trans hv.symm, fun h => absurd h hn⟩, fun x h => h⟩

/-- **One round of `parse`.** -/
theorem Sound.enter (h : Sound names known F val c σ) (htext : eval F.apply σ text = some (value F val t))
    (hvars : name.isSome → ∀ y ∈ vars text, c.Declared names y)
    (hname : ∀ n, name = some n → last = true → c.IsNew names n) :
    ∃ σ', Sound names known F val (enter name last text c) σ' ∧ (∀ x v, σ x = some v → σ' x = some v) ∧
      (∃ s, (enter name last text c).look text = some s ∧
        Settled names F val name (enter name last text c) σ' t s) ∧
      (∀ x, (enter name last text c).Used names x →
        c.Used names x ∨ Reserved c.temporary_name_kernel x ∨ last = true ∧ name = some x) ∧
      ∀ n, name = some n → last = true → (enter name last text c).Declared names n →
        σ' n = some (value F val t) := by
  cases hfind : c.find text with
  | none =>
    rcases hs : c.symbol_name name last with ⟨s, c₀⟩
    obtain ⟨h₀, hused, hfresh, hsymbols, hdecls, hnew⟩ := h.symbol_name hname hs
    let r : symbol_record := ⟨text, s, false⟩
    have used_eq : c₀.Used names = c.Used names := by
      funext x
      rw [cse.Used, cse.Used, cse.Declared, cse.Declared, hdecls, hsymbols]
    have hfind₀ : c₀.find r.target = none := by rwa [cse.find, hsymbols]
    have hused₀ : ¬ c₀.Used names s := used_eq ▸ hused
    have hσ : ∀ x w, σ x = some w → Function.update σ s (some (value F val t)) x = some w := fun x w =>
      update_mono (h₀.eq_none hused₀)
    have h₁ := h₀.emplace (r := r) rfl hfind₀ hused₀ htext hfresh
    have hvars₁ : name.isSome → ∀ y ∈ vars text, (c₀.emplace r).Declared names y := by
      intro hn y hy
      rw [cse.Declared, cse.emplace, hdecls]
      exact hvars hn y hy
    obtain ⟨h₂, hlook, hsettled, hused₂⟩ := h₁.settle (cse.find_emplace_self hfind₀) (eval_mono hσ htext) hvars₁
    have heq : Cse.enter name last text c = if name.isSome then (c₀.emplace r).deposit r else c₀.emplace r := by
      simp only [Cse.enter, hfind, hs]
      rfl
    rw [heq]
    refine ⟨_, h₂, hσ, ⟨s, hlook, hsettled⟩, fun x hx => ?_, fun n hn hlast _ => ?_⟩
    · rcases cse.used_emplace.mp (hused₂ x hx) with hx | rfl
      · exact .inl (used_eq ▸ hx)
      · exact .inr hnew
    · cases hn
      cases hlast
      cases hs
      exact hsettled.1
  | some r =>
    obtain ⟨h₂, hlook, hsettled, hused₂⟩ := h.settle hfind htext hvars
    have hr := (cse.mem_of_find hfind).1
    cases name with
    | none =>
      have heq : Cse.enter none last text c = c := by simp only [Cse.enter, hfind]
      rw [heq]
      exact ⟨σ, h, fun _ _ h => h, ⟨r.symbol, hlook, hsettled⟩, fun _ => .inl, fun _ hn => by cases hn⟩
    | some n =>
      have heq : Cse.enter (some n) last text c =
          if last = true ∧ r.symbol ≠ n ∧ n ∉ (c.deposit r).named_symbols then (c.deposit r).assign n r.symbol
          else c.deposit r := by
        simp only [Cse.enter, hfind]
      simp only [Option.isSome_some, if_true] at h₂ hlook hsettled hused₂
      rw [heq]
      split_ifs with hassign
      · obtain ⟨hlast, -, -⟩ := hassign
        obtain ⟨hused, hres⟩ := hname n rfl hlast
        have hused' : ¬ (c.deposit r).Used names n := fun hu => hused (hused₂ n hu)
        have hfresh : ∀ k, temporary (c.deposit r).temporary_name_kernel (c.deposit r).serial_number k ≠ n :=
          fun k heq => hres ⟨_, k, by simpa using heq.symm⟩
        have hσ : ∀ x w, σ x = some w → Function.update σ n (some (value F val t)) x = some w := fun x w =>
          update_mono (h₂.eq_none hused')
        refine ⟨_, h₂.assign hused' hfresh (hsettled.2 rfl) hsettled.1, hσ,
          ⟨r.symbol, hlook, hsettled.mono extends_assign hσ⟩, fun x hx => ?_, fun m hm _ _ => ?_⟩
        · rcases cse.used_assign.mp hx with hx | rfl
          · exact .inl (hused₂ x hx)
          · exact .inr (.inr ⟨hlast, rfl⟩)
        · cases hm
          exact Function.update_self ..
      · refine ⟨σ, h₂, fun _ _ h => h, ⟨r.symbol, hlook, hsettled⟩, fun x hx => .inl (hused₂ x hx),
          fun m hm hlast hd => ?_⟩
        exact absurd (hused₂ m (.inl hd)) (hname m hm hlast).1

end Enter

end Cse

end CppTransport.Translator
