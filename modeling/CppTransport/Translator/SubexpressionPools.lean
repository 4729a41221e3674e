import CppTransport.Translator.SubexpressionOrder
import CppTransport.Translator.SubexpressionValues

/-!
# Pools of temporaries

Several workers make temporaries with one kernel for their names. A worker fills a pool until it
is cleared, and then the next one. For each worker the `items` say what clients see of its current
pool, in this order: the declarations, the texts that are returned, and the names that they
supplied. `generated` collects the names that are made in all pools.

`declared_before_use`: definitions precede uses in all runs whose calls are `Allowed`. `not_ordered`
has runs of other calls. In one of them a worker gives a name in its second pool that it has declared
to be a symbol of its table in the first: `clear` keeps `named_symbols`, and the name is not declared
again.
-/

namespace CppTransport.Translator

open Library Library.Infix

namespace Cse

/-! ### The items of a pool -/

/-- What clients see of a pool. -/
inductive Item where
  | declaration (symbol : String) (target : Text)
  /-- A text that was returned. -/
  | returned (text : Text)
  /-- A name that was supplied. -/
  | given (name : String)
deriving DecidableEq

namespace Item

/-- What an item mentions symbols in. -/
def text : Item → Text
  | declaration _ target => target
  | returned text => text
  | given _ => []

/-- The names supplied. -/
def names (items : List Item) : List String := items.filterMap fun
  | given name => some name
  | _ => none

/-- The symbols declared. -/
def symbols (items : List Item) : List String := items.filterMap fun
  | declaration symbol _ => some symbol
  | _ => none

/-- New declarations. -/
def declarations (ds : List (String × Text)) : List Item := ds.map fun d => declaration d.1 d.2

/-- **In order**: a temporary that is mentioned has been declared before. -/
def InOrder (kernel : String) (items : List Item) : Prop :=
  ∀ pre it post, items = pre ++ it :: post → ∀ y ∈ vars it.text, IsTemporary kernel (names pre) y → y ∈ symbols pre

variable {kernel : String} {items items' : List Item} {ds : List (String × Text)}

@[simp] theorem names_append : names (items ++ items') = names items ++ names items' := List.filterMap_append

@[simp] theorem symbols_append : symbols (items ++ items') = symbols items ++ symbols items' := List.filterMap_append

@[simp] theorem names_declarations : names (declarations ds) = [] := by simp [names, declarations]

@[simp] theorem symbols_declarations : symbols (declarations ds) = ds.map Prod.fst := by
  simp [symbols, declarations, List.filterMap_map]

theorem inOrder_nil : InOrder kernel [] := by
  rintro pre it post h
  simp at h

/-- One more item. -/
theorem InOrder.snoc (h : InOrder kernel items) (it : Item)
    (hit : ∀ y ∈ vars it.text, IsTemporary kernel (names items) y → y ∈ symbols items) :
    InOrder kernel (items ++ [it]) := by
  intro pre it' post heq
  rcases List.eq_nil_or_concat post with rfl | ⟨post, last, rfl⟩
  · obtain ⟨rfl, hlast⟩ := List.append_inj' heq rfl
    obtain rfl : it = it' := by simpa using hlast
    exact hit
  · rw [List.concat_eq_append, ← List.cons_append, ← List.append_assoc] at heq
    exact h pre it' post (List.append_inj' heq rfl).1

/-- Declarations that can follow. -/
theorem InOrder.declarations (h : InOrder kernel items) (hds : Follows kernel (names items) (symbols items) ds) :
    InOrder kernel (items ++ Item.declarations ds) := by
  induction ds generalizing items with
  | nil => simpa [Item.declarations] using h
  | cons d ds ih =>
    obtain ⟨hd, hds⟩ := hds
    have hnew := ih (h.snoc (.declaration d.1 d.2) hd) (by simpa [names, symbols] using hds)
    simpa [Item.declarations] using hnew

end Item

/-! ### Workers -/

/-- A call of a worker. -/
inductive Call where
  | parse (expr : ex) (name : Option String)
  | get_symbol_with_use_count (expr : ex)
  | clear

/-- A worker, with its current pool. -/
structure Worker where
  cse : cse
  /-- How many pools have been cleared. -/
  pool : ℕ
  items : List Item

namespace Worker

variable (w : Worker)

/-- The worker after a call: declarations, and other items. -/
def fill (c : Cse.cse) (others : List Item) : Worker :=
  { w with cse := c, items := w.items ++ Item.declarations (c.decls.drop w.cse.decls.length) ++ others }

/-- A call; `none` is an exception. -/
def call : Call → Option Worker
  | .parse expr name => (parse expr name w.cse).map fun c => w.fill c (name.toList.map .given)
  | .get_symbol_with_use_count expr => (get_symbol true expr w.cse).map fun r => w.fill r.2 [.returned r.1]
  | .clear => some ⟨w.cse.clear, w.pool + 1, []⟩

/-- The names that are made until the counter has another value. -/
def made (symbol_counter : ℕ) : List String :=
  (List.range (symbol_counter - w.cse.symbol_counter)).map fun k =>
    temporary w.cse.temporary_name_kernel w.cse.serial_number (w.cse.symbol_counter + k)

end Worker

/-- Workers, with the names they have made, each with its worker and pool. -/
structure Workers (ι : Type) where
  worker : ι → Worker
  generated : List ((ι × ℕ) × String)

namespace Workers

variable {ι : Type} [DecidableEq ι]

/-- A call of one of the workers. -/
def next (s : Workers ι) (a : ι × Call) : Option (Workers ι) :=
  ((s.worker a.1).call a.2).map fun w => {
    worker := Function.update s.worker a.1 w
    generated := s.generated ++
      ((s.worker a.1).made w.cse.symbol_counter).map fun x => ((a.1, (s.worker a.1).pool), x) }

/-- Workers are made. -/
def initial (kernel : String) (serial_number : ι → ℕ) : Workers ι where
  worker i := ⟨.initial kernel (serial_number i), 0, []⟩
  generated := []

/-- Runs of workers that share a kernel. -/
def system (kernel : String) (serial_number : ι → ℕ) : System (Workers ι) (ι × Call) :=
  System.ofNext (· = initial kernel serial_number) next

/-- The serial number of a pool. -/
def pool_serial (serial_number : ι → ℕ) (p : ι × ℕ) : ℕ := serial_number p.1 + p.2

/-- No symbol and no name looks like a temporary, no declaration of a name is skipped, and no other worker has made
names in a pool of the same serial number. -/
def Allowed (kernel : String) (serial_number : ι → ℕ) (s : Workers ι) (a : ι × Call) : Prop :=
  match a.2 with
  | .parse expr name =>
    Plain kernel expr ∧ (∀ n, name = some n → ¬ Reserved kernel n ∧ ¬ Skips expr n (s.worker a.1).cse) ∧
      ∀ b ∈ s.generated, b.1.1 ≠ a.1 → pool_serial serial_number b.1 ≠ (s.worker a.1).cse.serial_number
  | .get_symbol_with_use_count expr => Plain kernel expr
  | .clear => True

/-- **Definitions precede uses**: in every pool a temporary is declared before it is mentioned, no temporary that a
worker made is declared twice, and names that are made in two pools differ. -/
structure Ordered (kernel : String) (s : Workers ι) : Prop where
  order : ∀ i, Item.InOrder kernel (s.worker i).items
  once : ∀ i x, Reserved kernel x → (Item.symbols (s.worker i).items).count x ≤ 1
  apart : ∀ a ∈ s.generated, ∀ b ∈ s.generated, a.1 ≠ b.1 → a.2 ≠ b.2

end Workers

/-- What holds of a worker between two calls. -/
structure Worker.Kept (kernel : String) (serial_number : ℕ) (w : Worker) : Prop where
  tidy : Tidy kernel w.cse
  serial : w.cse.serial_number = serial_number + w.pool
  symbols : Item.symbols w.items = w.cse.decls.map Prod.fst
  given : ∀ n ∈ Item.names w.items, w.cse.Declared [] n
  order : Item.InOrder kernel w.items

section Kept

variable {kernel : String} {serial_number : ℕ} {w : Worker} {c : Cse.cse}

/-- Declarations are deposited in order. -/
theorem Worker.Kept.advance (h : w.Kept kernel serial_number)
    (hadv : Advances kernel (Item.names w.items) w.cse c) : (w.fill c []).Kept kernel serial_number := by
  obtain ⟨ds, hds, hfollows⟩ := hadv.grows
  rw [← h.symbols] at hfollows
  have hdrop : c.decls.drop w.cse.decls.length = ds := by rw [hds, List.drop_left]
  refine ⟨hadv.tidy, hadv.serial.trans h.serial, ?_, fun n hn => ?_, ?_⟩
  · simp [fill, h.symbols, hds]
  · rw [fill, hdrop, List.append_nil, Item.names_append, Item.names_declarations, List.append_nil] at hn
    exact hadv.ext.declared n (h.given n hn)
  · rw [fill, hdrop, List.append_nil]
    exact h.order.declarations hfollows

/-- An item that is not a declaration. -/
theorem Worker.Kept.snoc (h : w.Kept kernel serial_number) (it : Item) (hsymbols : Item.symbols [it] = [])
    (hgiven : ∀ n ∈ Item.names [it], w.cse.Declared [] n)
    (hit : ∀ y ∈ vars it.text, IsTemporary kernel (Item.names w.items) y → w.cse.Declared [] y) :
    { w with items := w.items ++ [it] }.Kept kernel serial_number := by
  refine ⟨h.tidy, h.serial, ?_, fun n hn => ?_, h.order.snoc it fun y hy ht => ?_⟩
  · rw [Item.symbols_append, hsymbols, List.append_nil, h.symbols]
  · rw [Item.names_append] at hn
    exact (List.mem_append.mp hn).elim (h.given n) (hgiven n)
  · rw [h.symbols]
    exact declared_nil_iff.mp (hit y hy ht)

/-- **One call.** -/
theorem Worker.Kept.call (h : w.Kept kernel serial_number) {a : Call} {w' : Worker} (hrun : w.call a = some w')
    (hplain : ∀ e name, a = .parse e name →
      Plain kernel e ∧ ∀ n, name = some n → ¬ Reserved kernel n ∧ ¬ Skips e n w.cse)
    (hplain' : ∀ e, a = .get_symbol_with_use_count e → Plain kernel e) : w'.Kept kernel serial_number := by
  cases a with
  | parse e name =>
    obtain ⟨he, hname⟩ := hplain e name rfl
    obtain ⟨c, hparse, rfl⟩ := Option.map_eq_some_iff.mp hrun
    obtain ⟨hadv, hdeclared⟩ := h.tidy.parse h.given he (fun n hn => (hname n hn).1) hparse
    have hkept := h.advance hadv
    cases name with
    | none => exact hkept
    | some n =>
      have hn : c.Declared [] n := hdeclared n rfl (hname n rfl).2
      have := hkept.snoc (.given n) rfl (fun m hm => by
        obtain rfl : m = n := by simpa [Item.names] using hm
        exact hn) (fun y hy => by cases hy)
      simpa [fill] using this
  | get_symbol_with_use_count e =>
    obtain ⟨⟨text, c⟩, hget, rfl⟩ := Option.map_eq_some_iff.mp hrun
    obtain ⟨hadv, hvars⟩ := h.tidy.get_symbol h.given (hplain' e rfl) hget
    have hkept := h.advance hadv
    have hnames : Item.names (w.fill c []).items = Item.names w.items := by simp [fill]
    have := hkept.snoc (.returned text) rfl (fun m hm => by simp [Item.names] at hm) fun y hy ht =>
      hvars y hy (hnames ▸ ht)
    simpa [fill] using this
  | clear =>
    obtain rfl := Option.some.inj hrun
    refine ⟨tidy_empty h.tidy.same_kernel rfl rfl, ?_, rfl, fun n hn => by simp [Item.names] at hn, Item.inOrder_nil⟩
    rw [cse.clear, h.serial]
    rfl

end Kept

namespace Workers

variable {ι : Type} [DecidableEq ι] {kernel : String} {serial_number : ι → ℕ} {s s' : Workers ι}

/-- What holds of all workers. -/
structure Kept (kernel : String) (serial_number : ι → ℕ) (s : Workers ι) : Prop where
  worker : ∀ i, (s.worker i).Kept kernel (serial_number i)
  /-- A name has the serial number of its pool. -/
  generated : ∀ a ∈ s.generated, ∃ k, a.2 = temporary kernel (pool_serial serial_number a.1) k
  /-- Pools of two workers have two serial numbers. -/
  apart : ∀ a ∈ s.generated, ∀ b ∈ s.generated, a.1.1 ≠ b.1.1 →
    pool_serial serial_number a.1 ≠ pool_serial serial_number b.1

/-- Only `parse` makes names. -/
theorem made_eq_nil {w w' : Worker} {a : Call} (hrun : w.call a = some w') (ha : ∀ e name, a ≠ .parse e name) :
    w.made w'.cse.symbol_counter = [] := by
  have hle : w'.cse.symbol_counter ≤ w.cse.symbol_counter := by
    cases a with
    | parse e name => exact absurd rfl (ha e name)
    | get_symbol_with_use_count e =>
      obtain ⟨⟨text, c⟩, hget, rfl⟩ := Option.map_eq_some_iff.mp hrun
      rw [get_symbol_eq_shown e rfl] at hget
      obtain ⟨r, -, heq⟩ := Option.map_eq_some_iff.mp hget
      cases heq
      exact (w.cse.symbol_counter_deposits r.2).le
    | clear =>
      obtain rfl := Option.some.inj hrun
      exact Nat.zero_le _
  rw [Worker.made, Nat.sub_eq_zero_of_le hle, List.range_zero, List.map_nil]

theorem Kept.next (h : s.Kept kernel serial_number) {a : ι × Call} (hallowed : Allowed kernel serial_number s a)
    (hn : s.next a = some s') : s'.Kept kernel serial_number := by
  obtain ⟨i, call⟩ := a
  obtain ⟨w, hrun, rfl⟩ := Option.map_eq_some_iff.mp hn
  have hw : w.Kept kernel (serial_number i) := (h.worker i).call hrun
    (fun e name hcall => by subst hcall; exact ⟨hallowed.1, hallowed.2.1⟩)
    (fun e hcall => by subst hcall; exact hallowed)
  have hnew (b : (ι × ℕ) × String) (hb : b ∈ ((s.worker i).made w.cse.symbol_counter).map fun x =>
      ((i, (s.worker i).pool), x)) : b.1 = (i, (s.worker i).pool) ∧
        (∃ k, b.2 = temporary kernel (pool_serial serial_number b.1) k) ∧
          ∀ b' ∈ s.generated, b'.1.1 ≠ i → pool_serial serial_number b'.1 ≠ pool_serial serial_number b.1 := by
    obtain ⟨x, hx, rfl⟩ := List.mem_map.mp hb
    have hserial : (s.worker i).cse.serial_number = pool_serial serial_number (i, (s.worker i).pool) :=
      (h.worker i).serial
    refine ⟨rfl, ?_, ?_⟩
    · obtain ⟨k, -, rfl⟩ := List.mem_map.mp hx
      exact ⟨_, by rw [(h.worker i).tidy.same_kernel, hserial]⟩
    · rw [← hserial]
      cases call with
      | parse e name => exact hallowed.2.2
      | get_symbol_with_use_count e =>
        rw [made_eq_nil hrun fun e name => nofun] at hx
        cases hx
      | clear =>
        rw [made_eq_nil hrun fun e name => nofun] at hx
        cases hx
  refine ⟨fun j => ?_, fun b hb => ?_, fun b hb b' hb' hne => ?_⟩
  · by_cases hj : j = i
    · subst hj
      simpa using hw
    · simpa [hj] using h.worker j
  · exact (List.mem_append.mp hb).elim (h.generated b) fun hb => (hnew b hb).2.1
  · rcases List.mem_append.mp hb with hb | hb <;> rcases List.mem_append.mp hb' with hb' | hb'
    · exact h.apart b hb b' hb' hne
    · obtain ⟨hpool, -, hother⟩ := hnew b' hb'
      exact hother b hb fun hi => hne (by rw [hi, hpool])
    · obtain ⟨hpool, -, hother⟩ := hnew b hb
      exact (hother b' hb' fun hi => hne (by rw [hi, hpool])).symm
    · exact absurd (by rw [(hnew b hb).1, (hnew b' hb').1]) hne

omit [DecidableEq ι] in
theorem kept_initial : (initial kernel serial_number).Kept kernel serial_number :=
  ⟨fun _ => ⟨tidy_empty rfl rfl rfl, rfl, rfl, fun n hn => by simp [initial, Item.names] at hn, Item.inOrder_nil⟩,
    fun a ha => by simp [initial] at ha, fun a ha => by simp [initial] at ha⟩

theorem declared_before_use
    (h : ((system kernel serial_number).restrict (Allowed kernel serial_number)).Reachable s) : Ordered kernel s := by
  have hkept : s.Kept kernel serial_number := by
    refine System.Invariant.reachable (I := Kept kernel serial_number) ⟨?_, ?_⟩ h
    · rintro s rfl
      exact kept_initial
    · rintro s a s' hs ⟨hallowed, hn⟩
      exact hs.next hallowed hn
  refine ⟨fun i => (hkept.worker i).order, fun i x hx => ?_, fun a ha b hb hne heq => ?_⟩
  · rw [(hkept.worker i).symbols]
    exact (hkept.worker i).tidy.once x hx
  · obtain ⟨m, hm⟩ := hkept.generated a ha
    obtain ⟨n, hn⟩ := hkept.generated b hb
    have hserial := (temporary_inj (hm.symm.trans (heq.trans hn))).1
    have hi : a.1.1 = b.1.1 := by_contra fun hi => hkept.apart a ha b hb hi hserial
    rw [pool_serial, pool_serial, hi] at hserial
    exact hne (Prod.ext hi (Nat.add_left_cancel hserial))

theorem declared_before_use_named : ∃ s : Workers Unit, (s.worker ()).items =
    [.declaration "V" [.var "x"], .given "V", .returned [.call "std::sin", .var "V", .closing]] ∧
      Ordered "_t" s := by
  have hplain (x : String) (hx : x.length < 4) : ¬ Reserved "_t" x := by
    intro h
    have hlength := h.length
    have hkernel : "_t".length = 2 := by decide
    omega
  let expr : ex := .symbol "x"
  let call : ex := .node (.function "sin") [.symbol "V"]
  obtain ⟨s₁, h₁⟩ : ∃ s₁, (initial "_t" fun _ : Unit => 0).next ((), .parse expr (some "V")) = some s₁ := ⟨_, rfl⟩
  obtain ⟨s₂, h₂, hs₂⟩ : ∃ s₂, s₁.next ((), .get_symbol_with_use_count call) = some s₂ ∧ (s₂.worker ()).items =
      [.declaration "V" [.var "x"], .given "V", .returned [.call "std::sin", .var "V", .closing]] := by
    obtain rfl := Option.some.inj h₁
    exact ⟨_, rfl, by decide⟩
  have allowed₁ : Allowed "_t" (fun _ => 0) (initial "_t" fun _ : Unit => 0) ((), .parse expr (some "V")) := by
    refine ⟨fun t ht x hx => ?_, fun n hn => ?_, fun b hb => by cases hb⟩
    · obtain rfl : t = .symbol "x" := by simpa [expr, ex.postorder] using ht
      cases hx
      exact hplain _ (by decide)
    · cases hn
      refine ⟨hplain _ (by decide), ?_⟩
      rintro ⟨c₁, r, hrun, -, _, -, -, hmem, -⟩
      obtain rfl := Option.some.inj hrun
      cases hmem
  have allowed₂ : Allowed "_t" (fun _ => 0) s₁ ((), .get_symbol_with_use_count call) := by
    intro t ht x hx
    subst hx
    obtain rfl : x = "V" := by simpa [call, ex.postorder, ex.postorders] using ht
    exact hplain _ (by decide)
  have hreach : ((system "_t" fun _ : Unit => 0).restrict (Allowed "_t" fun _ => 0)).Reachable s₂ :=
    ⟨_, _, rfl, .snoc (.snoc .nil ⟨allowed₁, h₁⟩) ⟨allowed₂, h₂⟩⟩
  exact ⟨s₂, hs₂, declared_before_use hreach⟩

/-- In the second pool of a worker a name is mentioned that is not declared; and two workers make the same names. -/
theorem not_ordered :
    (∃ s : Workers Unit, (system "_t" fun _ => 0).Reachable s ∧
      (s.worker ()).items = [.declaration "_t_1_0" [.var "x"], .given "V", .returned [.var "V"]] ∧ ¬ Ordered "_t" s) ∧
    ∃ s : Workers Bool, (system "_t" fun _ => 0).Reachable s ∧
      s.generated = [((true, 0), "_t_0_0"), ((false, 0), "_t_0_0")] ∧ ¬ Ordered "_t" s := by
  constructor
  · obtain ⟨s, hs, hitems⟩ : ∃ s, [((), Call.parse (.symbol "x") none), ((), .parse (.symbol "x") (some "V")),
        ((), .clear), ((), .parse (.symbol "x") none), ((), .parse (.symbol "x") (some "V")),
        ((), .get_symbol_with_use_count (.symbol "V"))].foldlM next (initial "_t" fun _ => 0) = some s ∧
          (s.worker ()).items = [.declaration "_t_1_0" [.var "x"], .given "V", .returned [.var "V"]] :=
      ⟨_, rfl, by decide⟩
    refine ⟨s, ⟨_, _, rfl, System.run_ofNext_of_foldlM hs⟩, hitems, fun h => ?_⟩
    have hmem := h.order () [.declaration "_t_1_0" [.var "x"], .given "V"] (.returned [.var "V"]) [] hitems "V"
      (by decide) (.inr (by decide))
    revert hmem
    decide
  · obtain ⟨s, hs, hgenerated⟩ : ∃ s, [(true, Call.parse (.symbol "x") none), (false, .parse (.symbol "x") none)].foldlM
        next (initial "_t" fun _ => 0) = some s ∧
          s.generated = [((true, 0), "_t_0_0"), ((false, 0), "_t_0_0")] := ⟨_, rfl, by decide⟩
    refine ⟨s, ⟨_, _, rfl, System.run_ofNext_of_foldlM hs⟩, hgenerated, fun h => ?_⟩
    exact h.apart ((true, 0), "_t_0_0") (by simp [hgenerated]) ((false, 0), "_t_0_0") (by simp [hgenerated])
      (by decide) rfl

end Workers

end Cse

end CppTransport.Translator
