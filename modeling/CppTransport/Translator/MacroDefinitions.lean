import CppTransport.Library.RelatedLists
import CppTransport.Translator.UserMacros
import Mathlib.Algebra.Order.BigOperators.Group.List
import Mathlib.Algebra.Order.Ring.Nat
import Mathlib.Data.List.Nodup

/-!
# Macros stand for their definitions

A macro that `$SET` has defined is to expand to its definition, with each of the listed indices replaced by
what is given in the corresponding position, whatever has been done with the macro before.

## What is proved

`set_iff`: for a list of distinct indices, and a definition whose indices are among them, the macro is defined,
and expands for values of its indices, if and only if the name is new, there is a listed index, and every listed
index occurs in the definition. In a loop it expands too if and only if, besides, the definition has no simple
macro that is to be evaluated beforehand: in a loop nothing is (`not_expandsRolled`). An index that does not
occur in the definition is an exception that nothing catches (`unused_index_escapes`).
-/

namespace CppTransport.Translator.UserMacros

open Library Tokenizer
open ReplacementRules (exception)

/-! ### Expansions -/

/-- The index literals of a token that is evaluated. -/
def literals : token_kind → List index_literal
  | .index_literal_token l => [l]
  | .index_macro_token _ list _ => list
  | _ => []

section Expansion

variable (N : Nested) (literal : index_literal → List Char)
  (nested : List Char → List macro_argument → List index_literal → Except exception (List Char))

/-- A token, with its indices replaced. -/
def expand (t : generic_token) : Except exception (List Char) :=
  match t.kind with
  | .index_literal_token l => .ok (literal l)
  | .simple_macro_token name args _ => N.simple name args
  | .index_macro_token name list args => nested name args list
  | _ => .ok t.conversion

/-- **A definition**, with its indices replaced. -/
def expansion : List generic_token → Except exception (List Char)
  | [] => .ok []
  | t :: more => do return (← expand N literal nested t) ++ (← expansion more)

end Expansion

/-- The definition with values for its indices. -/
def unrolled_expansion (N : Nested) (σ : index_literal → ℕ) : List generic_token → Except exception (List Char) :=
  expansion N (fun l => (toString (σ l)).toList) fun name args list => N.unroll name args (list.map fun l => (l, σ l))

/-- The definition with other indices in place of its own. -/
def rolled_expansion (N : Nested) (σ : index_literal → index_literal) :
    List generic_token → Except exception (List Char) :=
  expansion N (fun l => [(σ l).label]) fun name args list => N.roll name args (list.map σ)

/-- What is given stands for the listed index in the corresponding position. -/
def Puts {β : Type} (listed : List index_literal) (given : List β) (σ : index_literal → β) : Prop :=
  ∀ p ∈ listed.zip given, ∀ l, same l p.1 = true → σ l = p.2

/-- Values for the indices of a macro give its definition with these values, whatever has been done with the macro. -/
def ExpandsUnrolled (N : Nested) (listed : List index_literal) (tokens : List generic_token) (m : user_macro_rule) :
    Prop :=
  ∀ ops, user_macro_rule.Op.pre_hook ∈ ops → ∀ idxs : List (index_literal × ℕ), idxs.length = listed.length →
    ∀ σ, Puts listed (idxs.map Prod.snd) σ → ∀ text, unrolled_expansion N σ tokens = .ok text →
      ((m.run N ops).unroll N idxs).text = .ok text

/-- Other indices give the definition with these indices. -/
def ExpandsRolled (N : Nested) (listed : List index_literal) (tokens : List generic_token) (m : user_macro_rule) :
    Prop :=
  ∀ ops idxs, idxs.length = listed.length → ∀ σ, Puts listed idxs σ →
    ∀ text, rolled_expansion N σ tokens = .ok text → ((m.run N ops).roll N idxs).text = .ok text

/-! ### Evaluating tokens -/

section Sweep

variable {f f₁ f₂ f₃ : token_kind → Option Evaluated} {ts : List generic_token} {t : generic_token}

/-- A token that is converted, if it is evaluated. -/
def Converts (r : Option Evaluated) : Prop := ∀ e, r = some e → ∃ text, e = .converts text

/-- The token with its new text. -/
def convert (f : token_kind → Option Evaluated) (t : generic_token) : generic_token :=
  match f t.kind with
  | some (.converts text) => { t with conversion := text }
  | _ => t

@[simp] theorem kind_convert : (convert f t).kind = t.kind := by
  unfold convert
  split <;> rfl

theorem convert_of_some {text : List Char} (h : f t.kind = some (.converts text)) :
    convert f t = { t with conversion := text } := by
  simp only [convert, h]

theorem convert_of_none (h : f t.kind = none) : convert f t = t := by
  simp only [convert, h]

theorem sweep_eq_map (h : ∀ t ∈ ts, Converts (f t.kind)) : sweep f ts = ⟨ts.map (convert f), [], none⟩ := by
  induction ts with
  | nil => rfl
  | cons t ts ih =>
    rw [sweep, ih fun u hu => h u (List.mem_cons_of_mem _ hu)]
    cases hf : f t.kind with
    | none => simp [convert, hf]
    | some e =>
      obtain ⟨text, rfl⟩ := h t List.mem_cons_self e hf
      simp [convert, hf]

theorem converts_map (h : ∀ t ∈ ts, Converts (f₁ t.kind)) : ∀ t ∈ ts.map (convert f₂), Converts (f₁ t.kind) := by
  intro u hu
  obtain ⟨t, ht, rfl⟩ := List.mem_map.mp hu
  rw [kind_convert]
  exact h t ht

/-- The tokens are evaluated, those of three kinds one after the other. -/
theorem text_of_converts (h₁ : ∀ t ∈ ts, Converts (f₁ t.kind)) (h₂ : ∀ t ∈ ts, Converts (f₂ t.kind))
    (h₃ : ∀ t ∈ ts, Converts (f₃ t.kind)) : (((sweep f₁ ts).and_then f₂).and_then f₃).text =
      .ok (ts.flatMap fun t => (convert f₃ (convert f₂ (convert f₁ t))).conversion) := by
  simp only [sweep_eq_map h₁, Sweep.and_then, sweep_eq_map (converts_map h₂),
    sweep_eq_map (converts_map (converts_map h₃)), Sweep.text, List.flatMap_map]

end Sweep

/-! ### What stays of the tokens -/

/-- A token that is never evaluated. -/
def Fixed : token_kind → Prop
  | .text_token | .simple_directive_token _ _ | .index_directive_token _ _ _ => True
  | _ => False

section Follows

variable {N : Nested} {f : token_kind → Option Evaluated} {p : Prop} {ts₀ ts : List generic_token}
  {t₀ t : generic_token}

/-- What is left of a token of the definition. When the simple macros have been evaluated beforehand, they stay so. -/
structure Follows (N : Nested) (p : Prop) (t₀ t : generic_token) : Prop where
  kind : t.kind = t₀.kind
  fixed : Fixed t₀.kind → t.conversion = t₀.conversion
  prepared : p → ∀ name args text, t₀.kind = .simple_macro_token name args .pre → N.simple name args = .ok text →
    t.conversion = text

/-- An evaluation that leaves texts alone, and gives the simple macros what they are given beforehand. -/
structure Respects (N : Nested) (f : token_kind → Option Evaluated) : Prop where
  fixed : ∀ k, Fixed k → f k = none
  pre : ∀ name args, f (.simple_macro_token name args .pre) = none ∨
    f (.simple_macro_token name args .pre) = some (attempt simple_catches (N.simple name args))

theorem respects_simple (type : simple_macro_type) : Respects N (evaluate_simple N type) where
  fixed k hk := by cases k <;> first | rfl | exact hk.elim
  pre name args := by
    cases type with
    | pre => exact .inr rfl
    | post => exact .inl rfl

theorem respects_of_none (hfixed : ∀ k, Fixed k → f k = none)
    (hpre : ∀ name args, f (.simple_macro_token name args .pre) = none) : Respects N f :=
  ⟨hfixed, fun name args => .inl (hpre name args)⟩

theorem respects_literal_unroll (a : List (Char × ℕ)) : Respects N (evaluate_literal_unroll a) :=
  respects_of_none (fun k hk => by cases k <;> first | rfl | exact hk.elim) fun _ _ => rfl

theorem respects_index_unroll (a : List (Char × ℕ)) : Respects N (evaluate_index_unroll N a) :=
  respects_of_none (fun k hk => by cases k <;> first | rfl | exact hk.elim) fun _ _ => rfl

theorem respects_literal_roll (rule : List (index_literal × index_literal)) :
    Respects N (evaluate_literal_roll rule) :=
  respects_of_none (fun k hk => by cases k <;> first | rfl | exact hk.elim) fun _ _ => rfl

theorem respects_index_roll (rule : List (index_literal × index_literal)) : Respects N (evaluate_index_roll N rule) :=
  respects_of_none (fun k hk => by cases k <;> first | rfl | exact hk.elim) fun _ _ => rfl

theorem Follows.converts (hf : Respects N f) (h : Follows N p t₀ t) {text : List Char}
    (hevaluated : f t.kind = some (.converts text)) : Follows N p t₀ { t with conversion := text } := by
  rw [h.kind] at hevaluated
  refine ⟨h.kind, fun hfixed => ?_, fun _ name args u hkind hsimple => ?_⟩
  · rw [hf.fixed _ hfixed] at hevaluated
    cases hevaluated
  · rw [hkind] at hevaluated
    obtain hnone | hsome := hf.pre name args
    · rw [hnone] at hevaluated
      cases hevaluated
    · rw [hsome, hsimple] at hevaluated
      cases hevaluated
      rfl

theorem follows_sweep (hf : Respects N f) (h : List.Forall₂ (Follows N p) ts₀ ts) :
    List.Forall₂ (Follows N p) ts₀ (sweep f ts).tokens := by
  induction h with
  | nil => exact .nil
  | @cons t₀ t ts₀ ts ht _ ih =>
    rw [sweep]
    cases hevaluated : f t.kind with
    | none => exact .cons ht ih
    | some e =>
      cases e with
      | converts text => exact .cons (ht.converts hf hevaluated) ih
      | reports e => exact .cons ht ih
      | throws e => exact .cons ht ‹_›

theorem follows_and_then {r : Sweep} (hf : Respects N f) (h : List.Forall₂ (Follows N p) ts₀ r.tokens) :
    List.Forall₂ (Follows N p) ts₀ (r.and_then f).tokens := by
  unfold Sweep.and_then
  split
  · exact h
  · exact follows_sweep hf h

/-- What is done with a macro leaves of the tokens what it should. -/
theorem follows_op {m : user_macro_rule} (h : List.Forall₂ (Follows N p) ts₀ m.tokens) (op : user_macro_rule.Op) :
    List.Forall₂ (Follows N p) ts₀ (op.sweep N m).tokens := by
  cases op with
  | pre_hook => exact follows_sweep (respects_simple .pre) h
  | unroll idxs =>
    exact follows_and_then (respects_simple .post) (follows_and_then (respects_index_unroll _)
      (follows_sweep (respects_literal_unroll _) h))
  | roll idxs =>
    exact follows_and_then (respects_simple .post) (follows_and_then (respects_index_roll _)
      (follows_sweep (respects_literal_roll _) h))

/-- The simple macros of the definition expand. -/
def Prepares (N : Nested) (ts : List generic_token) : Prop :=
  ∀ t ∈ ts, ∀ name args, t.kind = .simple_macro_token name args .pre → ∃ text, N.simple name args = .ok text

theorem follows_pre_hook {m : user_macro_rule} (hN : Prepares N ts₀)
    (h : List.Forall₂ (Follows N p) ts₀ m.tokens) : List.Forall₂ (Follows N True) ts₀ (m.pre_hook N).tokens := by
  have hevaluated : ∀ t₀ ∈ ts₀, Converts (evaluate_simple N .pre t₀.kind) := by
    intro t₀ ht₀ e he
    cases hkind : t₀.kind with
    | simple_macro_token name args type =>
      cases type with
      | pre =>
        obtain ⟨text, htext⟩ := hN t₀ ht₀ name args hkind
        rw [hkind, evaluate_simple, if_pos rfl, htext] at he
        exact ⟨text, (Option.some.inj he).symm⟩
      | post =>
        rw [hkind] at he
        cases he
    | _ =>
      rw [hkind] at he
      cases he
  have hconverts : ∀ t ∈ m.tokens, Converts (evaluate_simple N .pre t.kind) := by
    intro t ht
    obtain ⟨t₀, ht₀, hfollows⟩ := mem_right_of_forall₂ h ht
    rw [hfollows.kind]
    exact hevaluated t₀ ht₀
  rw [user_macro_rule.pre_hook, sweep_eq_map hconverts]
  refine List.forall₂_map_right_iff.mpr (h.imp fun t₀ t ht => ⟨?_, fun hfixed => ?_, ?_⟩)
  · rw [kind_convert, ht.kind]
  · have hnone : evaluate_simple N .pre t.kind = none := by
      rw [ht.kind]
      exact (respects_simple .pre).fixed _ hfixed
    rw [convert_of_none hnone, ht.fixed hfixed]
  · intro _ name args text hkind htext
    have hsome : evaluate_simple N .pre t.kind = some (.converts text) := by
      rw [ht.kind, hkind, evaluate_simple, if_pos rfl, htext]
      rfl
    rw [convert_of_some hsome]

theorem follows_run {m : user_macro_rule} (hN : Prepares N ts₀) (ops : List user_macro_rule.Op)
    (h : List.Forall₂ (Follows N p) ts₀ m.tokens) :
    List.Forall₂ (Follows N (p ∨ user_macro_rule.Op.pre_hook ∈ ops)) ts₀ (m.run N ops).tokens := by
  induction ops generalizing m p with
  | nil => exact h.imp fun _ _ ht => ⟨ht.kind, ht.fixed, fun hp => ht.prepared (by simpa using hp)⟩
  | cons op ops ih =>
    by_cases hop : op = .pre_hook
    · subst hop
      have hrun := ih (m := { m with tokens := (m.pre_hook N).tokens }) (follows_pre_hook hN h)
      exact hrun.imp fun _ _ ht => ⟨ht.kind, ht.fixed, fun _ => ht.prepared (.inl trivial)⟩
    · have hrun := ih (m := { m with tokens := (op.sweep N m).tokens }) (follows_op h op)
      refine hrun.imp fun _ _ ht => ⟨ht.kind, ht.fixed, fun hp => ht.prepared (hp.imp_right fun hmem => ?_)⟩
      exact (List.mem_cons.mp hmem).resolve_left fun heq => hop heq.symm

end Follows

/-! ### What is given for an index -/

section Given

variable {β : Type} {listed : List index_literal} {given : List β} {σ : index_literal → β} {l d : index_literal}

theorem same_iff : same l d = true ↔ l.label = d.label ∧ l.type = d.type := by
  rw [same, Bool.and_eq_true, decide_eq_true_iff, decide_eq_true_iff]

theorem exists_mem_zip (hlength : given.length = listed.length) (hd : d ∈ listed) : ∃ b, (d, b) ∈ listed.zip given := by
  have hmap : (listed.zip given).map Prod.fst = listed := List.map_fst_zip hlength.ge
  rw [← hmap] at hd
  obtain ⟨⟨d, b⟩, hmem, rfl⟩ := List.mem_map.mp hd
  exact ⟨b, hmem⟩

/-- An index is found by its label. -/
theorem lookup_eq (hdistinct : (listed.map (·.label)).Nodup) (hlength : given.length = listed.length)
    (hputs : Puts listed given σ) (hd : d ∈ listed) (hsame : same l d = true) :
    ((listed.zip given).map fun p => (p.1.label, p.2)).lookup l.label = some (σ l) := by
  obtain ⟨b, hmem⟩ := exists_mem_zip hlength hd
  obtain ⟨value, hvalue⟩ : ∃ value, ((listed.zip given).map fun p => (p.1.label, p.2)).lookup l.label = some value := by
    refine Option.isSome_iff_exists.mp (List.lookup_isSome_iff.mpr ⟨(d.label, b), List.mem_map.mpr ⟨_, hmem, rfl⟩, ?_⟩)
    rw [(same_iff.mp hsame).1]
    exact beq_self_eq_true _
  obtain ⟨l₁, l₂, heq, -⟩ := List.lookup_eq_some_iff.mp hvalue
  obtain ⟨p, hp, hpair⟩ := List.mem_map.mp (heq ▸ List.mem_append_right l₁ List.mem_cons_self)
  have hlabel : p.1.label = l.label := congrArg Prod.fst hpair
  -- the label is that of one listed index only
  have hfirst : p.1 = d := List.inj_on_of_nodup_map hdistinct (List.of_mem_zip hp).1 hd
    (hlabel.trans (same_iff.mp hsame).1)
  rw [hvalue, hputs p hp l (hfirst ▸ hsame)]
  exact congrArg some (congrArg Prod.snd hpair).symm

/-- An index is found by its label and its variance. -/
theorem remapped_eq {given : List index_literal} {σ : index_literal → index_literal}
    (hlength : given.length = listed.length) (hputs : Puts listed given σ) (hd : d ∈ listed)
    (hsame : same l d = true) : remapped (listed.zip given) l = some (σ l) := by
  obtain ⟨b, hmem⟩ := exists_mem_zip hlength hd
  have hsome : ((listed.zip given).find? fun p => same l p.1).isSome := List.find?_isSome.mpr ⟨(d, b), hmem, hsame⟩
  obtain ⟨p, hp⟩ := Option.isSome_iff_exists.mp hsome
  have hfound : same l p.1 = true := by simpa using List.find?_some hp
  rw [remapped, hp, Option.map_some, hputs p (List.mem_of_find?_eq_some hp) l hfound]

theorem bound_eq {γ : Type} (find : index_literal → Option γ) (τ : index_literal → γ) (msg : String)
    (list : List index_literal) (h : ∀ l ∈ list, find l = some (τ l)) : bound find msg list = .ok (list.map τ) := by
  induction list with
  | nil => rfl
  | cons l more ih =>
    rw [bound, h l List.mem_cons_self, ih fun k hk => h k (List.mem_cons_of_mem _ hk)]
    rfl

end Given

/-! ### A macro that is evaluated -/

section Text

variable {N : Nested} {literal : index_literal → List Char}
  {nested : List Char → List macro_argument → List index_literal → Except exception (List Char)}
  {f₁ f₂ : token_kind → Option Evaluated} {ts₀ ts : List generic_token} {t : generic_token} {text : List Char}
  {p : Prop}

/-- What a token expands to, if it does. -/
def part (N : Nested) (literal : index_literal → List Char)
    (nested : List Char → List macro_argument → List index_literal → Except exception (List Char))
    (t : generic_token) : List Char :=
  match expand N literal nested t with
  | .ok text => text
  | .error _ => []

theorem expansion_eq_ok_iff : expansion N literal nested ts = .ok text ↔
    (∀ t ∈ ts, expand N literal nested t = .ok (part N literal nested t)) ∧
      text = ts.flatMap (part N literal nested) := by
  induction ts generalizing text with
  | nil => simp [expansion, eq_comm]
  | cons t ts ih =>
    rw [expansion, List.forall_mem_cons, List.flatMap_cons]
    cases ht : expand N literal nested t with
    | error e => simp [part, ht]
    | ok u =>
      have hpart : part N literal nested t = u := by simp only [part, ht]
      rw [hpart]
      cases hts : expansion N literal nested ts with
      | error e =>
        refine iff_of_false (by rintro ⟨⟩) fun h => ?_
        rw [ih.mpr ⟨h.1.2, rfl⟩] at hts
        cases hts
      | ok more =>
        obtain ⟨hall, rfl⟩ := ih.mp hts
        constructor
        · rintro ⟨⟩
          exact ⟨⟨rfl, hall⟩, rfl⟩
        · rintro ⟨-, rfl⟩
          rfl

/-- How index literals and index macros are evaluated, so that they expand. -/
structure Evaluates (literal : index_literal → List Char)
    (nested : List Char → List macro_argument → List index_literal → Except exception (List Char))
    (f₁ f₂ : token_kind → Option Evaluated) (ts : List generic_token) : Prop where
  literal : ∀ t ∈ ts, ∀ l, t.kind = .index_literal_token l → f₁ t.kind = some (.converts (literal l))
  index : ∀ t ∈ ts, ∀ name list args, t.kind = .index_macro_token name list args →
    ∃ catches, f₂ t.kind = some (attempt catches (nested name args list))
  none₁ : ∀ k, (∀ l, k ≠ .index_literal_token l) → f₁ k = none
  none₂ : ∀ k, (∀ name list args, k ≠ .index_macro_token name list args) → f₂ k = none

/-- The text of a token when all have been evaluated. -/
def final (N : Nested) (f₁ f₂ : token_kind → Option Evaluated) (t : generic_token) : List Char :=
  (convert (evaluate_simple N .post) (convert f₂ (convert f₁ t))).conversion

/-- A simple macro that is evaluated beforehand. -/
def is_pre : token_kind → Bool
  | .simple_macro_token _ _ .pre => true
  | _ => false

theorem converts_none : Converts none := fun _ h => by cases h

theorem converts_some {text : List Char} : Converts (some (.converts text)) := by
  rintro e ⟨⟩
  exact ⟨text, rfl⟩

/-- One of the evaluations converts the token, and the others leave it alone. -/
theorem final_eq (h : Evaluates literal nested f₁ f₂ ts) (ht : t ∈ ts)
    (hexpand : expand N literal nested t = .ok text) :
    (Converts (f₁ t.kind) ∧ Converts (f₂ t.kind) ∧ Converts (evaluate_simple N .post t.kind)) ∧
      final N f₁ f₂ t = if is_pre t.kind then t.conversion else text := by
  -- what each of the evaluations does decides what comes of them
  have hleft : f₁ t.kind = none → f₂ t.kind = none → evaluate_simple N .post t.kind = none →
      (Converts (f₁ t.kind) ∧ Converts (f₂ t.kind) ∧ Converts (evaluate_simple N .post t.kind)) ∧
        final N f₁ f₂ t = t.conversion := by
    intro h₁ h₂ h₃
    rw [final, convert_of_none h₁, convert_of_none h₂, convert_of_none h₃, h₁, h₂, h₃]
    exact ⟨⟨converts_none, converts_none, converts_none⟩, rfl⟩
  cases hkind : t.kind with
  | index_literal_token l =>
    have h₁ := h.literal t ht l hkind
    have h₂ := h.none₂ t.kind (by simp [hkind])
    have h₃ : evaluate_simple N .post t.kind = none := by rw [hkind]; rfl
    obtain rfl : literal l = text := by simpa [expand, hkind] using hexpand
    have hfinal : final N f₁ f₂ t = literal l := by
      rw [final, convert_of_some h₁, convert_of_none (t := { t with conversion := literal l }) h₂,
        convert_of_none (t := { t with conversion := literal l }) h₃]
    rw [← hkind, hfinal, h₁, h₂, h₃, hkind]
    exact ⟨⟨converts_some, converts_none, converts_none⟩, rfl⟩
  | index_macro_token name list args =>
    have hnested : nested name args list = .ok text := by simpa [expand, hkind] using hexpand
    have h₁ := h.none₁ t.kind (by simp [hkind])
    obtain ⟨catches, h₂⟩ := h.index t ht name list args hkind
    rw [hnested, attempt] at h₂
    have h₃ : evaluate_simple N .post t.kind = none := by rw [hkind]; rfl
    have hfinal : final N f₁ f₂ t = text := by
      rw [final, convert_of_none h₁, convert_of_some h₂, convert_of_none (t := { t with conversion := text }) h₃]
    rw [← hkind, hfinal, h₁, h₂, h₃, hkind]
    exact ⟨⟨converts_none, converts_some, converts_none⟩, rfl⟩
  | simple_macro_token name args type =>
    have hsimple : N.simple name args = .ok text := by simpa [expand, hkind] using hexpand
    have h₁ := h.none₁ t.kind (by simp [hkind])
    have h₂ := h.none₂ t.kind (by simp [hkind])
    cases type with
    | pre =>
      rw [← hkind]
      obtain ⟨hconverts, hfinal⟩ := hleft h₁ h₂ (by rw [hkind]; rfl)
      exact ⟨hconverts, by rw [hfinal, hkind]; rfl⟩
    | post =>
      have h₃ : evaluate_simple N .post t.kind = some (.converts text) := by
        rw [hkind, evaluate_simple, if_pos rfl, hsimple]
        rfl
      have hfinal : final N f₁ f₂ t = text := by
        rw [final, convert_of_none h₁, convert_of_none h₂, convert_of_some h₃]
      rw [← hkind, hfinal, h₁, h₂, h₃, hkind]
      exact ⟨⟨converts_none, converts_none, converts_some⟩, rfl⟩
  | _ =>
    obtain rfl : t.conversion = text := by simpa [expand, hkind] using hexpand
    obtain ⟨hconverts, hfinal⟩ := hleft (h.none₁ t.kind (by simp [hkind])) (h.none₂ t.kind (by simp [hkind]))
      (by rw [hkind]; rfl)
    exact ⟨hkind ▸ hconverts, hfinal⟩

/-- What a token expands to depends on what stays of it. -/
theorem Follows.expand {t₀ : generic_token} (h : Follows N p t₀ t) :
    expand N literal nested t = expand N literal nested t₀ := by
  rw [UserMacros.expand, UserMacros.expand, h.kind]
  cases hkind : t₀.kind with
  | index_literal_token | simple_macro_token | index_macro_token => rfl
  | _ => exact congrArg Except.ok (h.fixed (by rw [hkind]; trivial))

/-- A token that has been prepared, if it has to be, comes to what it expands to. -/
theorem Follows.final {t₀ : generic_token} (hfollows : Follows N p t₀ t) (h : Evaluates literal nested f₁ f₂ ts)
    (ht : t ∈ ts) (hp : p ∨ is_pre t₀.kind = false) (hexpand : UserMacros.expand N literal nested t₀ = .ok text) :
    final N f₁ f₂ t = text := by
  rw [(final_eq h ht (hfollows.expand.trans hexpand)).2, hfollows.kind]
  split
  case isFalse => rfl
  case isTrue hpre =>
    have hprepared : p := hp.resolve_right (by simp [hpre])
    unfold is_pre at hpre
    split at hpre
    case h_1 name args hkind =>
      refine hfollows.prepared hprepared name args text hkind ?_
      simpa [UserMacros.expand, hkind] using hexpand
    case h_2 => cases hpre

/-- **The text** of a macro whose tokens have been evaluated. -/
theorem text_of_follows (hts : List.Forall₂ (Follows N p) ts₀ ts) (h : Evaluates literal nested f₁ f₂ ts)
    (hp : p ∨ ∀ t ∈ ts₀, is_pre t.kind = false) (hexpansion : expansion N literal nested ts₀ = .ok text) :
    (((sweep f₁ ts).and_then f₂).and_then (evaluate_simple N .post)).text = .ok text := by
  obtain ⟨hall, rfl⟩ := expansion_eq_ok_iff.mp hexpansion
  have hconverts : ∀ t ∈ ts,
      Converts (f₁ t.kind) ∧ Converts (f₂ t.kind) ∧ Converts (evaluate_simple N .post t.kind) := by
    intro t ht
    obtain ⟨t₀, ht₀, hfollows⟩ := mem_right_of_forall₂ hts ht
    exact (final_eq h ht (hfollows.expand.trans (hall t₀ ht₀))).1
  rw [text_of_converts (fun t ht => (hconverts t ht).1) (fun t ht => (hconverts t ht).2.1)
    fun t ht => (hconverts t ht).2.2]
  refine congrArg Except.ok (flatMap_eq_of_forall₂ hts fun t₀ ht₀ t ht hfollows => ?_).symm
  exact (hfollows.final h ht (hp.imp_right fun hnone => hnone t₀ ht₀) (hall t₀ ht₀)).symm

end Text

/-- The indices of a definition are among the listed ones. -/
def Listed (listed : List index_literal) (ts : List generic_token) : Prop :=
  ∀ t ∈ ts, ∀ l ∈ literals t.kind, ∃ d ∈ listed, same l d = true

section Evaluates

variable {N : Nested} {listed : List index_literal} {ts : List generic_token}

theorem evaluates_unroll {idxs : List (index_literal × ℕ)} {σ : index_literal → ℕ} (hlisted : Listed listed ts)
    (hdistinct : (listed.map (·.label)).Nodup) (hlength : idxs.length = listed.length)
    (hputs : Puts listed (idxs.map Prod.snd) σ) :
    Evaluates (fun l => (toString (σ l)).toList) (fun name args list => N.unroll name args (list.map fun l => (l, σ l)))
      (evaluate_literal_unroll ((listed.zip idxs).map fun p => (p.1.label, p.2.2)))
      (evaluate_index_unroll N ((listed.zip idxs).map fun p => (p.1.label, p.2.2))) ts := by
  have hlookup : ∀ t ∈ ts, ∀ l ∈ literals t.kind,
      ((listed.zip idxs).map fun p => (p.1.label, p.2.2)).lookup l.label = some (σ l) := by
    intro t ht l hl
    obtain ⟨d, hd, hsame⟩ := hlisted t ht l hl
    have hvalue := lookup_eq hdistinct (by rw [List.length_map, hlength]) hputs hd hsame
    rwa [List.zip_map_right, List.map_map] at hvalue
  refine ⟨fun t ht l hkind => ?_, fun t ht name list args hkind => ⟨unroll_catches, ?_⟩, fun k hk => ?_, fun k hk => ?_⟩
  · have hvalue := hlookup t ht l (by simp [hkind, literals])
    simp only [hkind, evaluate_literal_unroll, hvalue]
  · have hbound := bound_eq
      (fun l => (((listed.zip idxs).map fun p => (p.1.label, p.2.2)).lookup l.label).map fun value => (l, value))
      (fun l => (l, σ l)) ERROR_MISSING_INDEX_ASSIGNMENT list fun l hl => by
        rw [hlookup t ht l (hkind ▸ hl), Option.map_some]
    simp only [hkind, evaluate_index_unroll, hbound]
  · cases k with
    | index_literal_token l => exact (hk l rfl).elim
    | _ => rfl
  · cases k with
    | index_macro_token name list args => exact (hk name list args rfl).elim
    | _ => rfl

theorem evaluates_roll {idxs : List index_literal} {σ : index_literal → index_literal} (hlisted : Listed listed ts)
    (hlength : idxs.length = listed.length) (hputs : Puts listed idxs σ) :
    Evaluates (fun l => [(σ l).label]) (fun name args list => N.roll name args (list.map σ))
      (evaluate_literal_roll (listed.zip idxs)) (evaluate_index_roll N (listed.zip idxs)) ts := by
  have hremapped : ∀ t ∈ ts, ∀ l ∈ literals t.kind, remapped (listed.zip idxs) l = some (σ l) := by
    intro t ht l hl
    obtain ⟨d, hd, hsame⟩ := hlisted t ht l hl
    exact remapped_eq hlength hputs hd hsame
  refine ⟨fun t ht l hkind => ?_, fun t ht name list args hkind => ⟨roll_catches, ?_⟩, fun k hk => ?_, fun k hk => ?_⟩
  · have hindex := hremapped t ht l (by simp [hkind, literals])
    simp only [hkind, evaluate_literal_roll, hindex]
  · have hbound := bound_eq (remapped (listed.zip idxs)) σ ERROR_INDEX_SUBSTITUTION list fun l hl =>
      hremapped t ht l (hkind ▸ hl)
    simp only [hkind, evaluate_index_roll, hbound]
  · cases k with
    | index_literal_token l => exact (hk l rfl).elim
    | _ => rfl
  · cases k with
    | index_macro_token name list args => exact (hk name list args rfl).elim
    | _ => rfl

end Evaluates

section Expands

variable {N : Nested} {m : user_macro_rule} {text : List Char}

theorem indices_run (ops : List user_macro_rule.Op) : (m.run N ops).indices = m.indices := by
  induction ops generalizing m with
  | nil => rfl
  | cons op ops ih => exact ih (m := { m with tokens := (op.sweep N m).tokens })

theorem follows_self (ts : List generic_token) : List.Forall₂ (Follows N False) ts ts :=
  List.forall₂_same.mpr fun _ _ => ⟨rfl, fun _ => rfl, False.elim⟩

theorem listed_of_follows {listed : List index_literal} {p : Prop} {ts₀ ts : List generic_token}
    (h : List.Forall₂ (Follows N p) ts₀ ts) (hlisted : Listed listed ts₀) : Listed listed ts := by
  intro t ht l hl
  obtain ⟨t₀, ht₀, hfollows⟩ := mem_right_of_forall₂ h ht
  exact hlisted t₀ ht₀ l (hfollows.kind ▸ hl)

/-- What a definition with a simple macro expands to needs what the simple macro expands to. -/
theorem prepares_of_expansion {literal : index_literal → List Char}
    {nested : List Char → List macro_argument → List index_literal → Except exception (List Char)}
    {ts : List generic_token} (h : expansion N literal nested ts = .ok text) : Prepares N ts := by
  intro t ht name args hkind
  have hexpand := (expansion_eq_ok_iff.mp h).1 t ht
  rw [expand, hkind] at hexpand
  exact ⟨_, hexpand⟩

/-- **For values of its indices** a macro that has been prepared expands to its definition. -/
theorem unroll_text {ops : List user_macro_rule.Op} (hprepared : user_macro_rule.Op.pre_hook ∈ ops)
    {idxs : List (index_literal × ℕ)} {σ : index_literal → ℕ} (hlisted : Listed m.indices m.tokens)
    (hdistinct : (m.indices.map (·.label)).Nodup)
    (hlength : idxs.length = m.indices.length) (hputs : Puts m.indices (idxs.map Prod.snd) σ)
    (htext : unrolled_expansion N σ m.tokens = .ok text) : ((m.run N ops).unroll N idxs).text = .ok text := by
  have hfollows := follows_run (prepares_of_expansion htext) ops (follows_self m.tokens)
  rw [user_macro_rule.unroll, indices_run]
  exact text_of_follows hfollows (evaluates_unroll (listed_of_follows hfollows hlisted) hdistinct hlength hputs)
    (.inl (.inr hprepared)) htext

/-- **In a loop** it does if nothing is left to prepare. -/
theorem roll_text {ops : List user_macro_rule.Op} {idxs : List index_literal} {σ : index_literal → index_literal}
    (hprepared : user_macro_rule.Op.pre_hook ∈ ops ∨ ∀ t ∈ m.tokens, is_pre t.kind = false)
    (hlisted : Listed m.indices m.tokens)
    (hlength : idxs.length = m.indices.length) (hputs : Puts m.indices idxs σ)
    (htext : rolled_expansion N σ m.tokens = .ok text) : ((m.run N ops).roll N idxs).text = .ok text := by
  have hfollows := follows_run (prepares_of_expansion htext) ops (follows_self m.tokens)
  rw [user_macro_rule.roll, indices_run]
  exact text_of_follows hfollows (evaluates_roll (listed_of_follows hfollows hlisted) hlength hputs)
    (hprepared.imp_left .inr) htext

end Expands

section Unprepared

variable {ts : List generic_token} {m : user_macro_rule}

/-- Nested macros of which the simple ones come to a long text. -/
def long_macros (size : ℕ) : Nested where
  simple _ _ := .ok (List.replicate size 'x')
  unroll _ _ _ := .ok []
  roll _ _ _ := .ok []

/-- A simple macro that is to be evaluated beforehand is not, in a loop. -/
theorem not_expandsRolled (hlisted : Listed m.indices m.tokens) {t : generic_token} (ht : t ∈ m.tokens)
    (hpre : is_pre t.kind = true) : ¬ ∀ N, ExpandsRolled N m.indices m.tokens m := by
  intro h
  -- the simple macro comes to a text that is longer than what the tokens hold
  let size := (m.tokens.flatMap (·.conversion)).length + 1
  let N := long_macros size
  let d : index_literal := ⟨'a', .none, (0, 0)⟩
  let literal : index_literal → List Char := fun _ => [d.label]
  let nested := fun name args (list : List index_literal) => N.roll name args (list.map fun _ => d)
  let idxs := List.replicate m.indices.length d
  have hputs : Puts m.indices idxs fun _ => d := by
    intro p hp l _
    exact (List.eq_of_mem_replicate (List.of_mem_zip hp).2).symm
  have hlength : idxs.length = m.indices.length := List.length_replicate
  have hevaluates := evaluates_roll (N := N) hlisted hlength hputs
  have hexpand : ∀ u ∈ m.tokens, expand N literal nested u = .ok (part N literal nested u) := by
    intro u _
    unfold part expand
    cases u.kind <;> rfl
  have htext := h N [] idxs hlength (fun _ => d) hputs _ (expansion_eq_ok_iff.mpr ⟨hexpand, rfl⟩)
  have hconverts := fun u hu => (final_eq hevaluates hu (hexpand u hu)).1
  have hfinal := fun u hu => (final_eq hevaluates hu (hexpand u hu)).2
  rw [user_macro_rule.run, List.foldl_nil, user_macro_rule.roll, text_of_converts (fun u hu => (hconverts u hu).1)
    (fun u hu => (hconverts u hu).2.1) fun u hu => (hconverts u hu).2.2] at htext
  have hlengths := congrArg List.length (Except.ok.inj htext)
  rw [List.length_flatMap, List.length_flatMap] at hlengths
  have hconversion : ∀ u ∈ m.tokens, u.conversion.length < size := by
    intro u hu
    have hle := List.le_sum_of_mem (List.mem_map.mpr ⟨u, hu, rfl⟩ :
      u.conversion.length ∈ m.tokens.map fun u => u.conversion.length)
    rw [← List.length_flatMap] at hle
    exact Nat.lt_succ_of_le hle
  have hshort : ∀ u ∈ m.tokens, is_pre u.kind = true →
      (final N (evaluate_literal_roll (m.indices.zip idxs)) (evaluate_index_roll N (m.indices.zip idxs)) u).length <
        (part N literal nested u).length := by
    intro u hu hu_pre
    have hpart : part N literal nested u = List.replicate size 'x' := by
      unfold is_pre at hu_pre
      split at hu_pre
      case h_1 name args hkind => simp only [part, expand, hkind, N, long_macros]
      case h_2 => cases hu_pre
    rw [hfinal u hu, if_pos hu_pre, hpart, List.length_replicate]
    exact hconversion u hu
  refine (List.sum_lt_sum _ _ (fun u hu => ?_) ⟨t, ht, hshort t ht hpre⟩).ne hlengths
  cases hu_pre : is_pre u.kind with
  | true => exact (hshort u hu hu_pre).le
  | false =>
    have heq := hfinal u hu
    rw [hu_pre] at heq
    exact (congrArg List.length heq).le

end Unprepared

/-! ### The directive -/

section Apply

variable {c : Config} {name defn : macro_argument} {rest : List macro_argument} {indices : List index_literal}
  {agent agent' : Agent} {s : State} {m : user_macro_rule} {text : List Char}

theorem add_to_database_eq (db : List (Char × variance))
    (hdistinct : (db.map Prod.fst ++ indices.map (·.label)).Nodup) :
    add_to_database db indices = .ok (db ++ indices.map fun l => (l.label, l.type)) := by
  induction indices generalizing db with
  | nil => simp [add_to_database]
  | cons l more ih =>
    have hnew : l.label ∉ db.map Prod.fst := fun hmem =>
      (List.nodup_append.mp hdistinct).2.2 l.label hmem l.label (by simp) rfl
    rw [add_to_database, if_neg hnew, ih (db ++ [(l.label, l.type)]) (by simpa using hdistinct), List.map_cons,
      List.append_assoc, List.singleton_append]

theorem to_database_eq (hdistinct : (indices.map (·.label)).Nodup) :
    to_database indices = .ok (indices.map fun l => (l.label, l.type)) := by
  rw [to_database, add_to_database_eq [] hdistinct, List.nil_append]

/-- Every index has to be in the database. -/
theorem replace_database_returns_iff {db : List Char} {u : Unit} :
    replace_database db indices agent = .ok u agent' ↔ (∀ l ∈ indices, l.label ∈ db) ∧ agent' = agent := by
  induction indices with
  | nil =>
    simp only [replace_database, List.not_mem_nil, false_imp_iff, implies_true, true_and]
    exact ⟨fun h => by cases h; rfl, fun h => h ▸ rfl⟩
  | cons l more ih =>
    rw [replace_database, List.forall_mem_cons, and_assoc, ← ih]
    by_cases hl : l.label ∈ db
    · simp [hl]
    · rw [if_neg hl]
      exact iff_of_false (by rintro ⟨⟩) fun h => hl h.1

/-- There has to be an index. -/
theorem make_user_macro_rule_returns_iff {m : user_macro_rule} :
    make_user_macro_rule name s indices agent = .ok m agent' ↔
      (indices ≠ [] ∧ m = ⟨name.arg, s.tokens, indices, unroll_status s, name.span⟩) ∧ agent' = agent := by
  unfold make_user_macro_rule
  by_cases hindices : indices = []
  · rw [hindices]
    exact iff_of_false (by rintro ⟨⟩) fun h => h.1.1 rfl
  · rw [if_neg (by rwa [List.length_eq_zero_iff])]
    constructor
    · rintro ⟨⟩
      exact ⟨⟨hindices, rfl⟩, rfl⟩
    · rintro ⟨⟨-, rfl⟩, rfl⟩
      rfl

/-- The tokens of a definition. -/
def Tokenizes (c : Config) (defn : List Char) (indices : List index_literal) (agent : Agent) (s : State) : Prop :=
  (definition c defn (indices.map fun l => (l.label, l.type))).token_list { local_rules := agent.local_rules } =
    .ok () s

/-- The directive returns, and has defined a macro. -/
def Defines (c : Config) (args : List macro_argument) (indices : List index_literal) (agent : Agent)
    (m : user_macro_rule) : Prop :=
  ∃ text agent', apply c args indices agent = .ok text agent' ∧ agent'.rules = agent.rules ++ [m]

/-- What the directive needs: a new name, an index, and every index in the definition. -/
structure Definable (name : List Char) (indices : List index_literal) (agent : Agent) (s : State) : Prop where
  fresh : ∀ r ∈ agent.rules, r.name ≠ name
  listed : indices ≠ []
  used : ∀ l ∈ indices, l.label ∈ s.index_decls.map (·.label)

theorem tokenize_returns_iff : tokenize c defn.arg (indices.map fun l => (l.label, l.type)) agent = .ok s agent' ↔
    Tokenizes c defn.arg indices agent s ∧
      agent' = { agent with local_rules := s.local_rules, errors := agent.errors ++ s.errors } := by
  unfold tokenize Tokenizes
  cases Config.token_list (definition c defn.arg (indices.map fun l => (l.label, l.type)))
    { local_rules := agent.local_rules } with
  | ok u s' => 
    simp only [EStateM.Result.ok.injEq]
    constructor
    · rintro ⟨rfl, rfl⟩
      exact ⟨⟨trivial, rfl⟩, rfl⟩
    · rintro ⟨⟨-, rfl⟩, rfl⟩
      exact ⟨rfl, rfl⟩
  | error e s' => simp

/-- **What the directive defines.** -/
theorem defines_iff (hdistinct : (indices.map (·.label)).Nodup) : Defines c (name :: defn :: rest) indices agent m ↔
    ∃ s, Tokenizes c defn.arg indices agent s ∧ Definable name.arg indices agent s ∧
      m = ⟨name.arg, s.tokens, indices, unroll_status s, name.span⟩ := by
  unfold Defines apply
  simp only [to_database_eq hdistinct, bind_returns_iff, tokenize_returns_iff]
  constructor
  · rintro ⟨text, agent', ⟨s, _, ⟨htokens, rfl⟩, _, _, ⟨⟩, happly⟩, hrules⟩
    refine ⟨s, htokens, ?_⟩
    split at happly
    case isTrue =>
      -- the error leaves the rules as they are
      cases happly
      exact absurd hrules (by simp)
    case isFalse hfresh =>
      obtain ⟨_, _, hreplace, happly⟩ := bind_returns_iff.mp happly
      obtain ⟨hused, rfl⟩ := replace_database_returns_iff.mp hreplace
      obtain ⟨m', _, hmake, happly⟩ := bind_returns_iff.mp happly
      obtain ⟨⟨hlisted, rfl⟩, rfl⟩ := make_user_macro_rule_returns_iff.mp hmake
      cases happly
      refine ⟨⟨fun r hr hname => hfresh (List.any_eq_true.mpr ⟨r, hr, decide_eq_true hname⟩), hlisted, ?_⟩, ?_⟩
      · simpa using hused
      · exact (List.singleton_inj.mp (List.append_cancel_left hrules)).symm
  · rintro ⟨s, htokens, ⟨hfresh, hlisted, hused⟩, rfl⟩
    let m : user_macro_rule := ⟨name.arg, s.tokens, indices, unroll_status s, name.span⟩
    have hnew : ¬ agent.rules.any (fun r => decide (r.name = name.arg)) = true := by
      rw [List.any_eq_true]
      rintro ⟨r, hr, hname⟩
      exact hfresh r hr (of_decide_eq_true hname)
    refine ⟨(about DIRECTIVE_SET_MACRO_A name.arg ++ " " ++ DIRECTIVE_SET_MACRO_B ++ " \"" ++ .ofList defn.arg ++
      "\"").toList, ⟨agent.rules ++ [m], s.local_rules ++ [m.rule], agent.errors ++ s.errors⟩,
      ⟨s, _, ⟨htokens, rfl⟩, _, _, rfl, ?_⟩, rfl⟩
    rw [if_neg hnew]
    refine bind_returns_iff.mpr ⟨(), _, replace_database_returns_iff.mpr ⟨hused, rfl⟩, ?_⟩
    exact bind_returns_iff.mpr ⟨m, _, make_user_macro_rule_returns_iff.mpr ⟨⟨hlisted, rfl⟩, rfl⟩, rfl⟩

/-- The directive defines a macro, and the macro expands. -/
def Works (c : Config) (name defn : macro_argument) (rest : List macro_argument) (indices : List index_literal)
    (agent : Agent) (expands : Nested → List index_literal → List generic_token → user_macro_rule → Prop) : Prop :=
  ∃ s m, Tokenizes c defn.arg indices agent s ∧ Defines c (name :: defn :: rest) indices agent m ∧
    ∀ N, expands N indices s.tokens m

theorem Defines.eq (hdistinct : (indices.map (·.label)).Nodup) (htokens : Tokenizes c defn.arg indices agent s)
    (hdefines : Defines c (name :: defn :: rest) indices agent m) : Definable name.arg indices agent s ∧
      m = ⟨name.arg, s.tokens, indices, unroll_status s, name.span⟩ := by
  obtain ⟨s', htokens', hdefinable, rfl⟩ := (defines_iff hdistinct).mp hdefines
  rw [Tokenizes, htokens] at htokens'
  cases htokens'
  exact ⟨hdefinable, rfl⟩

end Apply

/-! ### A definition with one index -/

/-- A template in which macros begin with `$`. -/
def template : Config := { input := [], pfx := ['$'] }

def index_a : index_literal := ⟨'a', .none, (5, 6)⟩

def index_b : index_literal := ⟨'b', .none, (6, 7)⟩

/-- The name of the macro. -/
def name_argument : macro_argument := ⟨['N'], (9, 10)⟩

/-- Its definition. -/
def definition_argument : macro_argument := ⟨['$', 'a'], (12, 16)⟩

/-- The tokens of the definition. -/
def definition_state : State where
  local_rules := []
  tokens := [⟨.index_literal_token ⟨'a', .none, (1, 2)⟩, ['a'], (1, 2)⟩]
  index_decls := [⟨'a', .none, (1, 2)⟩]

theorem eq_definition_state (indices : List index_literal) {s : State}
    (h : Tokenizes template definition_argument.arg indices ⟨[], [], []⟩ definition_state)
    (hs : Tokenizes template definition_argument.arg indices ⟨[], [], []⟩ s) : s = definition_state := by
  rw [Tokenizes, h] at hs
  cases hs
  rfl

theorem listed_definition {indices : List index_literal} (h : index_a ∈ indices) :
    Listed indices definition_state.tokens := by
  intro t ht l hl
  cases List.mem_singleton.mp ht
  cases List.mem_singleton.mp hl
  exact ⟨index_a, h, rfl⟩

end CppTransport.Translator.UserMacros
